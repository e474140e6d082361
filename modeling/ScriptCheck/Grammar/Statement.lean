import ScriptCheck.Grammar.Expression

/-!
# Statements and declarations

    declaration → function | statement
    function    → "fn" IDENT "(" (IDENT ("," IDENT)*)? ")" block
    statement   → "if" expression statement ("else" statement)?
                | "for" "(" clause? "and" clause? "and" clause? ")" statement
                | "while" "(" expression ")" statement
                | "print" expression end
                | "return" expression end
                | block
                | expression end
    block       → "do" declaration* "end"

A simple statement ends with an end of line, or in front of a token that closes what it stands in.
Ends of line may stand around the declarations of a block, in front of a block or of a governed
statement, and around `else`. The clauses of a `for` are expressions in which `and` separates.
-/

namespace ScriptCheck.Grammar

open ScriptCheck.Rule

/-- Take any number of ends of line. -/
def skipNewlines : Rule Unit :=
  whileNext (· == .eol) (fun _ _ => return ()) ()

/-- The end of a simple statement. -/
def endStatement (message : String) : Rule Unit := do
  match ← accept (· == .eol) with
  | some _ => return ()
  | none => if (← peek).kind.closesStatement then return () else unexpected message (some .eol)

/-- The name of a parameter. -/
def parameter : Rule String := do
  let name ← expect .ident "expected parameter name"
  return name.text

/-- The parameters of a function, without the parentheses around them. -/
def parameters : Rule (List String) := do
  let read ← unlessNext (.operator .rparen) (commaSeparated parameter)
  return read.getD []

/-- The error that the input ends inside the block that `opening` opens. -/
def unterminatedBlock (opening t : Token) : SyntaxError :=
  .atToken .unterminatedBlock "unterminated block" t (some (.keyword .end_))
    (some ("block opened with 'do' on line " ++ toString opening.line))

/-- The statement that a first clause makes: a lone name declares the loop's variable, and anything
else is evaluated. -/
def initializerOf : Node → Node
  | .var line name => .binding line name none
  | e => .expression e.line e

/-- The first clause of a `for`. -/
def forInitializer (andSeparates : Bool) (budget : Nat) : Rule Node := do
  let e ← expression andSeparates budget
  return initializerOf e

/-- A `for` loop in terms of the other statements: the first clause once, and then, while the second
one holds, the body followed by the third. A condition that is left out always holds. -/
def forLoop (line : Int) (initializer : Option Node) (condition increment : Option Node)
    (body : Node) : Node :=
  let step := increment.map fun e => Node.expression e.line e
  let loop := Node.loop line (condition.getD (.literal line (.bool true)))
    (.block line (body :: step.toList))
  .block line (initializer.toList ++ [loop])

/-- A statement that prints a value. -/
def printStatement (andSeparates : Bool) (budget : Nat) : Rule Node := do
  let start ← advance
  let value ← expression andSeparates budget
  endStatement "expected end of line after value"
  return .print start.line value

/-- A statement that returns a value. -/
def returnStatement (andSeparates : Bool) (budget : Nat) : Rule Node := do
  let start ← advance
  let value ← expression andSeparates budget
  endStatement "expected end of line after return value"
  return .return_ start.line value

/-- An expression that is evaluated for its effect. -/
def expressionStatement (andSeparates : Bool) (budget : Nat) : Rule Node := do
  let e ← expression andSeparates budget
  endStatement "expected end of line after expression"
  return .expression e.line e

mutual

/-- A declaration. -/
def declaration (andSeparates : Bool) (budget : Nat) : Rule Node := do
  if (← peek).kind = .keyword .fn then functionDeclaration andSeparates budget
  else statement andSeparates budget
termination_by 16 * budget + 5

/-- The declaration of a function. The word that starts it is not looked at. -/
def functionDeclaration (andSeparates : Bool) (budget : Nat) : Rule Node := do
  let start ← advance
  let name ← expect .ident "expected function name after 'fn'"
  let _ ← expect (.operator .lparen) "expected '(' after function name"
  let params ← parameters
  let _ ← expect (.operator .rparen) "expected ')' after parameters"
  skipNewlines
  if (← peek).kind = .keyword .do_ then
    let body ← block andSeparates budget
    return .function start.line name.text params body
  else unexpected "expected 'do' before function body" (some (.keyword .do_))
termination_by 16 * budget + 3

/-- A statement. -/
def statement (andSeparates : Bool) (budget : Nat) : Rule Node := do
  match (← peek).kind with
  | .keyword .if_ => ifStatement andSeparates budget
  | .keyword .for_ => forStatement andSeparates budget
  | .keyword .print => printStatement andSeparates budget
  | .keyword .return_ => returnStatement andSeparates budget
  | .keyword .while_ => whileStatement andSeparates budget
  | .keyword .do_ => block andSeparates budget
  | _ => expressionStatement andSeparates budget
termination_by 16 * budget + 4

/-- A conditional. An `else` on a later line still belongs to it. -/
def ifStatement (andSeparates : Bool) (budget : Nat) : Rule Node := do
  let start ← advance
  let condition ← expression andSeparates budget
  skipNewlines
  let thenBranch ← deeper .body budget fun rest _ => statement andSeparates rest
  skipNewlines
  match ← accept (· == .keyword .else_) with
  | some _ =>
    skipNewlines
    let elseBranch ← deeper .body budget fun rest _ => statement andSeparates rest
    return .conditional start.line condition thenBranch (some elseBranch)
  | none => return .conditional start.line condition thenBranch none
termination_by 16 * budget + 3

/-- A `for` loop. The word that starts it is not looked at. -/
def forStatement (andSeparates : Bool) (budget : Nat) : Rule Node := do
  let start ← advance
  let _ ← expect (.operator .lparen) "expected '(' after 'for'"
  let initializer ← unlessNext (.keyword .and_) (forInitializer true budget)
  let _ ← expect (.keyword .and_) "expected 'and' after loop initializer"
  let condition ← unlessNext (.keyword .and_) (expression true budget)
  let _ ← expect (.keyword .and_) "expected 'and' after loop condition"
  let increment ← unlessNext (.operator .rparen) (expression true budget)
  let _ ← expect (.operator .rparen) "expected ')' after for clauses"
  skipNewlines
  let body ← deeper .body budget fun rest _ => statement andSeparates rest
  return forLoop start.line initializer condition increment body
termination_by 16 * budget + 3

/-- A `while` loop. -/
def whileStatement (andSeparates : Bool) (budget : Nat) : Rule Node := do
  let start ← advance
  let _ ← expect (.operator .lparen) "expected '(' after 'while'"
  let condition ← expression andSeparates budget
  let _ ← expect (.operator .rparen) "expected ')' after condition"
  skipNewlines
  let body ← deeper .body budget fun rest _ => statement andSeparates rest
  return .loop start.line condition body
termination_by 16 * budget + 3

/-- A block, which is on the line of the word that opens it. -/
def block (andSeparates : Bool) (budget : Nat) : Rule Node := do
  let opening ← expect (.keyword .do_) "expected 'do' to open block"
  insideBlock do
    skipNewlines
    let body ← untilNext (· == .keyword .end_) do
      let d ← deeper .block budget fun rest _ => declaration andSeparates rest
      skipNewlines
      return d
    match ← accept (· == .keyword .end_) with
    | some _ => return .block opening.line body
    | none => invalid (unterminatedBlock opening)
termination_by 16 * budget + 2

end

/-! ## Whole inputs -/

/-- An expression that takes the whole input, ends of line around it aside. -/
def wholeExpression (andSeparates : Bool) (budget : Nat) : Rule Node := do
  skipNewlines
  let e ← expression andSeparates budget
  skipNewlines
  if (← peek).kind = .eof then return e
  else unexpected "expected end of input after expression" none

end ScriptCheck.Grammar
