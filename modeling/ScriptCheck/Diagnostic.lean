import ScriptCheck.Cursor

/-!
# Syntax errors and diagnostics

A syntax error records what was wrong, at which token, and what had been wanted there; a diagnostic
is the part of it that is shown. A reporter collects errors in the order in which they are reported.
-/

namespace ScriptCheck

/-- The classes of syntax error. -/
inductive Category where
  /-- None of the more special ones. -/
  | general
  /-- Another token was wanted. -/
  | unexpectedToken
  /-- The input ends inside a block. -/
  | unterminatedBlock
  /-- What stands left of an assignment is not a name. -/
  | invalidAssignmentTarget
  /-- No expression starts where one is needed. -/
  | missingExpression
  /-- The nesting goes deeper than the parser follows. -/
  | nestingTooDeep
  deriving DecidableEq, Repr

namespace Category

/-- Every class of syntax error. -/
def all : List Category :=
  [general, unexpectedToken, unterminatedBlock, invalidAssignmentTarget, missingExpression,
   nestingTooDeep]

/-- The name under which errors of the class are recorded. -/
def name : Category → String
  | general => "ParseError"
  | unexpectedToken => "UnexpectedToken"
  | unterminatedBlock => "UnterminatedBlock"
  | invalidAssignmentTarget => "InvalidAssignmentTarget"
  | missingExpression => "MissingExpression"
  | nestingTooDeep => "NestingTooDeep"

/-- The class of the given name. -/
def ofName? (s : String) : Option Category :=
  all.find? (·.name == s)

end Category

/-- What is shown of a syntax error. -/
structure Diagnostic where
  line : Int
  message : String
  deriving DecidableEq, Repr

/-- The line that shows a diagnostic. -/
def Diagnostic.format (d : Diagnostic) : String :=
  "[line " ++ toString d.line ++ "] error: " ++ d.message

/-- A syntax error. -/
structure SyntaxError where
  category : Category
  message : String
  /-- The token that was being looked at. -/
  token : Option Token
  line : Int
  /-- The kind of token that was wanted, if it was a single one. -/
  expected : Option Kind := none
  /-- A hint. -/
  note : Option String := none
  deriving DecidableEq, Repr

namespace SyntaxError

/-- An error at a token is on the line of that token. -/
def atToken (category : Category) (message : String) (token : Token)
    (expected : Option Kind) (note : Option String) : SyntaxError where
  category := category
  message := message
  token := some token
  line := token.line
  expected := expected
  note := note

/-- The error that another token was wanted than `token`. -/
def unexpected (message : String) (token : Token) (expected : Option Kind) : SyntaxError :=
  atToken .unexpectedToken message token expected none

/-- The text that was found where the error is. -/
def found (e : SyntaxError) : Option String :=
  e.token.map (·.text)

/-- What is shown of the error. -/
def diagnostic (e : SyntaxError) : Diagnostic where
  line := e.line
  message := e.message

end SyntaxError

/-- A collection of syntax errors, in the order in which they were reported. -/
structure Reporter where
  errors : Array SyntaxError := #[]

namespace Reporter

/-- The collection with one error more. -/
def report (r : Reporter) (e : SyntaxError) : Reporter :=
  { r with errors := r.errors.push e }

/-- What is shown of the errors. -/
def diagnostics (r : Reporter) : List Diagnostic :=
  r.errors.toList.map (·.diagnostic)

/-- The number of errors. -/
def errorCount (r : Reporter) : Nat :=
  r.errors.size

/-- Whether there is an error. -/
def hadError (r : Reporter) : Bool :=
  r.errorCount != 0

/-- The diagnostics, a line each. -/
def render (r : Reporter) : String :=
  "\n".intercalate (r.diagnostics.map (·.format))

@[simp] theorem errors_report (r : Reporter) (e : SyntaxError) :
    (r.report e).errors.toList = r.errors.toList ++ [e] := by
  simp [report]

end Reporter

end ScriptCheck
