import ScriptCheck.Session
import ScriptCheck.Source
import ScriptCheck.Syntax.Outline

/-!
# Checking a program

A check takes a program text through the lexer and the parser and tells what came of it: a verdict,
the lines that were asked for, and the notes that accompany them.
-/

namespace ScriptCheck

/-- What a check is to do. -/
structure Job where
  /-- The program text, or the path of the file that holds it. -/
  source : String
  /-- Whether `source` is the text itself. -/
  isText : Bool := false
  dumpTokens : Bool := false
  dumpTree : Bool := false
  failFast : Bool := false
  deriving DecidableEq, Repr

namespace Check

/-- The verdict on a program: whether it is free of errors. -/
inductive Verdict where
  | accepted
  | rejected
  deriving DecidableEq, Repr

/-- The status that tells a verdict. -/
def Verdict.status : Verdict → Nat
  | accepted => 0
  | rejected => 1

/-- Why there is no verdict. -/
inductive Fault where
  | source (fault : Source.Fault)
  | lexer (fault : Lexer.Fault)
  | numeral (fault : Numeral.Fault)
  deriving DecidableEq, Repr

/-- The message of a fault. -/
def Fault.message : Fault → String
  | source fault => fault.message
  | lexer fault => fault.message
  | numeral fault => fault.message

/-- A note that accompanies a check: an event, which only a verbose check shows, or a message. -/
inductive Note where
  | event (e : Event)
  | message (text : String)
  deriving DecidableEq, Repr

/-- The line that shows a note, if it is shown. -/
def Note.line? (verbose : Bool) : Note → Option String
  | event e => if verbose then some e.line else none
  | message text => some text

/-- What a check tells. -/
structure Report where
  verdict : Except Fault Verdict
  lines : List String
  notes : List Note
  /-- The tree that the last line shows, if one was asked for. -/
  tree : Option Node := none

/-- A text of complete lines. -/
def joinLines (lines : List String) : String :=
  String.join (lines.map (· ++ "\n"))

/-- The lines that were asked for. -/
def Report.output (r : Report) : String :=
  joinLines r.lines

/-- The notes that are shown. -/
def Report.remarks (verbose : Bool) (r : Report) : String :=
  joinLines (r.notes.filterMap (·.line? verbose))

/-- The line of a token in a dump. -/
def tokenLine (t : Token) : String :=
  toString t.line ++ ":" ++ toString t.column ++ "\t" ++ t.kind.name ++ "\t" ++ Text.quoted t.text

/-- The dump of a sequence of tokens. -/
def tokenDump (tokens : List Token) : List String :=
  "== TOKENS ==" :: tokens.map tokenLine

/-- The dump of a tree. -/
def treeDump (program : Node) : List String :=
  ["== AST ==", program.outline.render]

/-- The place of a malformed token; other faults of the lexer have none. -/
def malformedPlace? : Lexer.Fault → Option (Int × Int)
  | .unterminatedString line column | .malformedNumber line column => some (line, column)
  | _ => none

/-- The message about a malformed token at the given place. -/
def malformedMessage (fault : Lexer.Fault) (line column : Int) : String :=
  (Diagnostic.mk line fault.message).format ++ " (col " ++ toString column ++ ")"

/-- The notes about the syntax errors of a program. -/
def errorNotes (r : Reporter) : List Note :=
  r.diagnostics.map (fun d => .message d.format)
    ++ [.message ("parser exited with " ++ toString r.errorCount ++ " errors")]

variable [Stack]

/-- Check the tokens of a program, after the given lines and notes. -/
def ofTokens (job : Job) (tokens : List Token) (lines : List String) (notes : List Note) : Report :=
  let (outcome, session) := (Session.ofTokens tokens job.failFast).parse
  let notes := notes ++ session.log.toList.map .event
  match outcome with
  | .error (.numeral fault) => { verdict := .error (.numeral fault), lines, notes }
  | .error _ => { verdict := .ok .rejected, lines, notes := notes ++ errorNotes session.reporter }
  | .ok program =>
    if session.reporter.hadError then
      { verdict := .ok .rejected, lines, notes := notes ++ errorNotes session.reporter }
    else
      { verdict := .ok .accepted,
        lines := if job.dumpTree then lines ++ treeDump program else lines, notes,
        tree := if job.dumpTree then some program else none }

/-- Check a program text, after the given notes. A job that asks for the tokens alone ends with
them. -/
def ofText (job : Job) (text : String) (notes : List Note) : Report :=
  match tokenize text with
  | .error fault =>
    match malformedPlace? fault with
    | some (line, column) =>
      { verdict := .ok .rejected, lines := [],
        notes := notes ++ [.message (malformedMessage fault line column)] }
    | none => { verdict := .error (.lexer fault), lines := [], notes }
  | .ok tokens =>
    let notes := notes ++ [.event (.lexed tokens.length)]
    let lines := if job.dumpTokens then tokenDump tokens else []
    if job.dumpTokens && !job.dumpTree then { verdict := .ok .accepted, lines, notes }
    else ofTokens job tokens lines notes

/-- Do a check, where `load` gives the bytes of the file at a path. -/
def run (job : Job) (load : String → Except Source.Fault (List Nat)) : Report :=
  if job.isText then ofText job job.source []
  else if !job.source.endsWith Source.suffix then
    { verdict := .error (.source .wrongSuffix), lines := [], notes := [] }
  else
    let notes := [.event (.reading job.source)]
    match load job.source >>= Source.textOfBytes with
    | .error fault => { verdict := .error (.source fault), lines := [], notes }
    | .ok text => ofText job text notes

/-! ## On a stack -/

/-- How a check ends where the stack has an end. -/
inductive Ending where
  | told (report : Report)
  /-- A tree was to be shown that is too deep to be told as data: the check breaks off behind the
  heading of its dump. -/
  | brokenOff (lines : List String) (notes : List Note)

/-- A report, as far as there is room on the stack to make it. -/
def Report.ending (r : Report) : Ending :=
  match r.tree with
  | none => .told r
  | some program =>
    if program.outlineDepth ≤ Stack.outline then .told r
    else .brokenOff r.lines.dropLast r.notes

/-- Do a check on a stack. -/
def runOnStack (job : Job) (load : String → Except Source.Fault (List Nat)) : Ending :=
  (run job load).ending

end Check

end ScriptCheck
