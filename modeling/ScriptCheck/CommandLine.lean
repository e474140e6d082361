import ScriptCheck.Check

/-!
# The command line

Arguments that start with a hyphen are switches, the others the source. A long switch may be cut
short as long as only one switch starts that way; short switches may share a hyphen; after `--`
nothing is a switch. Arguments are classified before any of them takes effect, and then take effect
from left to right.
-/

namespace ScriptCheck.CommandLine

open ScriptCheck.Text

/-! ## Switches -/

/-- The switches. -/
inductive Switch where
  | help | string | dumpTokens | dumpTree | verbose | failFast
  deriving DecidableEq, Repr

namespace Switch

/-- Every switch. -/
def all : List Switch :=
  [help, string, dumpTokens, dumpTree, verbose, failFast]

/-- The short name of a switch, without its hyphen. -/
def short? : Switch → Option Char
  | help => some 'h'
  | string => some 's'
  | _ => none

/-- The long name of a switch. -/
def long : Switch → String
  | help => "--help"
  | string => "--string"
  | dumpTokens => "--dump-tokens"
  | dumpTree => "--dump-ast"
  | verbose => "--verbose"
  | failFast => "--fail-fast"

/-- A switch as messages name it. -/
def title (s : Switch) : String :=
  match s.short? with
  | some c => "-" ++ c.toString ++ "/" ++ s.long
  | none => s.long

/-- The switch of the given short name. -/
def ofShort? (c : Char) : Option Switch :=
  all.find? (·.short? == some c)

/-- The switches whose long names start with the given text. -/
def startingWith (start : String) : List Switch :=
  all.filter (·.long.startsWith start)

/-- The switches of which at most one may be given. -/
def rivals : List Switch :=
  [dumpTokens, dumpTree, verbose]

end Switch

/-! ## Faults -/

/-- Why a command line cannot be carried out. -/
inductive Fault where
  /-- Several switches start like the argument. -/
  | ambiguous (argument : String) (candidates : List Switch)
  /-- A value is attached to a switch that takes none. -/
  | valueAttached (s : Switch) (value : String)
  /-- Two switches exclude each other. -/
  | excluded (s rival : Switch)
  | sourceMissing
  | unrecognized (arguments : List String)
  deriving DecidableEq, Repr

/-- The message of a fault. -/
def Fault.message : Fault → String
  | ambiguous argument candidates =>
    "ambiguous option: " ++ argument ++ " could match "
      ++ ", ".intercalate (candidates.map (·.long))
  | valueAttached s value =>
    "argument " ++ s.title ++ ": ignored explicit argument " ++ quoted value
  | excluded s rival => "argument " ++ s.title ++ ": not allowed with argument " ++ rival.title
  | sourceMissing => "the following arguments are required: source"
  | unrecognized arguments => "unrecognized arguments: " ++ " ".intercalate arguments

/-! ## Classifying arguments -/

/-- What an argument is. -/
inductive Argument where
  /-- No switch. -/
  | plain (text : String)
  /-- The mark after which nothing is a switch. -/
  | mark
  /-- A switch by its long name, with the value attached to it. -/
  | long (s : Switch) (value : Option String)
  /-- A switch by its short name, with the characters attached to it. -/
  | short (s : Switch) (attached : Option (List Char))
  /-- It looks like a switch and is none. -/
  | unknown (text : String)
  deriving DecidableEq, Repr

/-- The part in front of the first `=`, and the part behind it if there is one. -/
def splitValue (cs : List Char) : String × Option String :=
  let name := String.ofList (cs.takeWhile (· != '='))
  match cs.dropWhile (· != '=') with
  | [] => (name, none)
  | _ :: value => (name, some (String.ofList value))

/-- Whether the characters are decimal digits, and at least one. -/
def areDigits (cs : List Char) : Bool :=
  !cs.isEmpty && cs.all isDecimal

/-- Whether an argument is a negative number, which is no switch. It may end in a line feed. -/
def isNegativeNumber (cs : List Char) : Bool :=
  match cs with
  | '-' :: digits =>
    let digits := if digits.getLast? = some '\n' then digits.dropLast else digits
    areDigits digits ||
      (match digits.dropWhile isDecimal with
       | '.' :: fraction => areDigits fraction
       | _ => false)
  | _ => false

/-- What an argument is that names no switch, although it starts with a hyphen. -/
def classifyOther (text : String) : Argument :=
  if isNegativeNumber text.toList || text.contains ' ' then .plain text else .unknown text

/-- Classify an argument that starts with two hyphens and has more characters. -/
def classifyLong (text : String) : Except Fault Argument :=
  let (name, value) := splitValue text.toList
  match Switch.all.find? (·.long == name) with
  | some s => .ok (.long s value)
  | none =>
    match Switch.startingWith name with
    | [] => .ok (classifyOther text)
    | [s] => .ok (.long s value)
    | candidates => .error (.ambiguous text candidates)

/-- What is attached to a short switch, given the characters behind it: the value behind `=`, or
all of them. -/
def attached? : List Char → Option (List Char)
  | [] => none
  | '=' :: value => some value
  | others => some others

/-- Classify an argument other than the mark. -/
def classify (text : String) : Except Fault Argument :=
  match text.toList with
  | '-' :: '-' :: _ => classifyLong text
  | '-' :: c :: others =>
    match Switch.ofShort? c with
    | some s => .ok (.short s (attached? others))
    | none => .ok (classifyOther text)
  | _ => .ok (.plain text)

/-- Classify a sequence of arguments. -/
def classifyAll : List String → Except Fault (List Argument)
  | [] => .ok []
  | text :: rest =>
    if text = "--" then .ok (.mark :: rest.map .plain)
    else do return (← classify text) :: (← classifyAll rest)

/-! ## Carrying out arguments -/

/-- What the arguments carried out so far amount to. -/
structure Choices where
  source : Option String := none
  switches : List Switch := []
  extras : List String := []
  /-- Whether the latest argument is the source. -/
  afterSource : Bool := false

/-- What a command line asks for. -/
inductive Request where
  | help
  | check (job : Job) (verbose : Bool)
  deriving DecidableEq, Repr

/-- The switch `s` and those that share its hyphen, whose short names are attached to it. What is
attached from some switch on has to be short names to its end. -/
def shareHyphen (s : Switch) : (attached : List Char) → Except Fault (List Switch)
  | [] => .ok [s]
  | c :: others =>
    match Switch.ofShort? c with
    | none => .error (.valueAttached s (String.ofList (c :: others)))
    | some s' => (s :: ·) <$> shareHyphen s' others

/-- The switches that a short switch stands for. With `=` and nothing behind it, an empty value is
attached. -/
def shortSwitches (s : Switch) : (attached : Option (List Char)) → Except Fault (List Switch)
  | none => .ok [s]
  | some [] => .error (.valueAttached s "")
  | some cs => shareHyphen s cs

/-- The switch already on that excludes `s`. -/
def Choices.rival? (choices : Choices) (s : Switch) : Option Switch :=
  if Switch.rivals.contains s then
    Switch.rivals.find? fun rival => rival != s && choices.switches.contains rival
  else none

/-- Turn switches on, one after the other. Asking for help ends the reading of the command line. -/
def turnOn (choices : Choices) : List Switch → Except Fault (Option Choices)
  | [] => .ok (some choices)
  | .help :: _ => .ok none
  | s :: rest =>
    match choices.rival? s with
    | some rival => .error (.excluded s rival)
    | none => turnOn { choices with switches := choices.switches ++ [s] } rest

/-- What the choices ask for. -/
def Choices.request (choices : Choices) : Except Fault Request :=
  match choices.source with
  | none => .error .sourceMissing
  | some source =>
    if choices.extras.isEmpty then
      let on := choices.switches.contains
      .ok (.check
        { source
          isText := on .string
          dumpTokens := on .dumpTokens || on .verbose
          dumpTree := on .dumpTree || on .verbose
          failFast := on .failFast } (on .verbose))
    else .error (.unrecognized choices.extras)

/-- Carry out arguments from left to right. The first plain argument is the source. The mark is
dropped next to the source and an extra argument elsewhere. -/
def carryOut (choices : Choices) : List Argument → Except Fault Request
  | [] => choices.request
  | .plain text :: rest =>
    match choices.source with
    | none => carryOut { choices with source := some text, afterSource := true } rest
    | some _ =>
      carryOut { choices with extras := choices.extras ++ [text], afterSource := false } rest
  | .mark :: rest =>
    if choices.source.isNone || choices.afterSource then
      carryOut { choices with afterSource := false } rest
    else carryOut { choices with extras := choices.extras ++ ["--"] } rest
  | .unknown text :: rest =>
    carryOut { choices with extras := choices.extras ++ [text], afterSource := false } rest
  | .long s (some value) :: _ => .error (.valueAttached s value)
  | .long s none :: rest => do
    match ← turnOn { choices with afterSource := false } [s] with
    | none => return .help
    | some choices => carryOut choices rest
  | .short s attached :: rest => do
    match ← turnOn { choices with afterSource := false } (← shortSwitches s attached) with
    | none => return .help
    | some choices => carryOut choices rest

/-- What a command line asks for. -/
def read (arguments : List String) : Except Fault Request := do
  carryOut {} (← classifyAll arguments)

/-! ## Running a command -/

/-- The lines that show how the command is used. -/
def usage : List String :=
  ["usage: queitite [-h] [-s] [--dump-tokens | --dump-ast | --verbose]",
   "                [--fail-fast]",
   "                source"]

/-- The lines that explain the command. -/
def helpLines : List String :=
  usage ++
  ["",
   "queitite syntax checker",
   "",
   "positional arguments:",
   "  source         Program file, or raw source (with -s)",
   "",
   "options:",
   "  -h, --help     show this help message and exit",
   "  -s, --string   Interpret source as literal string",
   "  --dump-tokens  Dump token stream and exit",
   "  --dump-ast     Dump AST and exit",
   "  --verbose      Dump tokens and AST with debug logging",
   "  --fail-fast    Stop at the first syntax error"]

/-- What a command leaves behind: its status and what it has written to the two outputs. -/
structure Completion where
  status : Nat
  output : String
  remarks : String
  deriving DecidableEq, Repr

/-- The status of a command that could not be carried out. -/
def failureStatus : Nat := 2

/-- The completion of a check. -/
def ofReport (verbose : Bool) (r : Check.Report) : Completion :=
  match r.verdict with
  | .ok verdict => { status := verdict.status, output := r.output, remarks := r.remarks verbose }
  | .error fault =>
    { status := failureStatus, output := r.output,
      remarks := r.remarks verbose ++ Check.joinLines ["queitite: " ++ fault.message] }

/-- The status of a command that has broken off. -/
def brokenOffStatus : Nat := 1

/-- The completion of a check on a stack. What the surroundings say about a command that has broken
off is not part of its remarks. -/
def ofEnding (verbose : Bool) : Check.Ending → Completion
  | .told r => ofReport verbose r
  | .brokenOff lines notes =>
    { status := brokenOffStatus, output := Check.joinLines lines,
      remarks := Check.joinLines (notes.filterMap (·.line? verbose)) }

/-- Run a command line, where `load` gives the bytes of the file at a path. -/
def run [Stack] (arguments : List String) (load : String → Except Source.Fault (List Nat)) :
    Completion :=
  match read arguments with
  | .error fault =>
    { status := failureStatus, output := "",
      remarks := Check.joinLines (usage ++ ["queitite: error: " ++ fault.message]) }
  | .ok .help => { status := 0, output := Check.joinLines helpLines, remarks := "" }
  | .ok (.check job verbose) => ofEnding verbose (Check.runOnStack job load)

end ScriptCheck.CommandLine
