import ScriptCheck.Diagnostic

/-!
# Events

What a check does is told by events, each of which is a line of the protocol that one can ask for.
-/

namespace ScriptCheck

/-- An event of a check. -/
inductive Event where
  /-- The text is about to be read from a file. -/
  | reading (path : String)
  /-- The text has been divided into tokens. -/
  | lexed (count : Nat)
  /-- A syntax error has been added to those reported. -/
  | recorded (e : SyntaxError)
  /-- After an error, reading goes on in front of a token. -/
  | resuming (t : Token)
  /-- The whole input has been parsed. -/
  | parsed (declarations errors : Nat)
  deriving DecidableEq, Repr

/-- The part of the program that an event comes from, as the protocol names it. -/
def Event.origin : Event → String
  | reading _ | lexed _ => "queitite.queitite_cli"
  | recorded _ | resuming _ => "queitite.queitite_errors"
  | parsed _ _ => "queitite.queitite_parser"

/-- What happened. -/
def Event.text : Event → String
  | reading path => "reading " ++ path
  | lexed count => "lexed " ++ toString count ++ " tokens"
  | recorded e => "recorded " ++ e.category.name ++ ": " ++ e.diagnostic.format
  | resuming t =>
    "resuming at line " ++ toString t.line ++ " before " ++ t.kind.name ++ " " ++ Text.quoted t.text
  | parsed declarations errors =>
    "parsed " ++ toString declarations ++ " declarations with " ++ toString errors ++ " errors"

/-- The line of an event in the protocol. -/
def Event.line (e : Event) : String :=
  "DEBUG: " ++ e.origin ++ ": " ++ e.text

end ScriptCheck
