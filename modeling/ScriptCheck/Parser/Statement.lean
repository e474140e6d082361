import ScriptCheck.Grammar.Statement
import ScriptCheck.Parser.Expression

/-!
# Parsing statements and declarations

One action for each rule of the grammar of statements. The header of a `for` loop lets `and`
separate its clauses, until they are read or one of them fails (`Parser.forStatement`), and a block
is open from the word that opens it to the word that closes it (`Parser.block`).
-/

namespace ScriptCheck.Parser

open ScriptCheck.Action
open ScriptCheck.Grammar (forLoop initializerOf unterminatedBlock)

/-- Pass over ends of line. -/
def skipNewlines : Action Unit :=
  read Grammar.skipNewlines

/-- The end of a simple statement. -/
def endStatement (message : String) : Action Unit :=
  read (Grammar.endStatement message)

/-- The parameters of a function, without the parentheses around them. -/
def parameters : Action (List String) :=
  read Grammar.parameters

/-- The first clause of a `for`. -/
def forInitializer (budget : Nat) : Action Node := do
  let e ← expression budget
  return initializerOf e

/-- The clauses of a `for`, each of which may be left out, without the parentheses around them. -/
def forClauses (budget : Nat) : Action (Option Node × Option Node × Option Node) := do
  let initializer ← unlessNext (.keyword .and_) (forInitializer budget)
  let _ ← expect (.keyword .and_) "expected 'and' after loop initializer"
  let condition ← unlessNext (.keyword .and_) (expression budget)
  let _ ← expect (.keyword .and_) "expected 'and' after loop condition"
  let increment ← unlessNext (.operator .rparen) (expression budget)
  return (initializer, condition, increment)

/-- A statement that prints a value. -/
def printStatement (budget : Nat) : Action Node := do
  let start ← advance
  let value ← expression budget
  endStatement "expected end of line after value"
  return .print start.line value

/-- A statement that returns a value. -/
def returnStatement (budget : Nat) : Action Node := do
  let start ← advance
  let value ← expression budget
  endStatement "expected end of line after return value"
  return .return_ start.line value

/-- An expression that is evaluated for its effect. -/
def expressionStatement (budget : Nat) : Action Node := do
  let e ← expression budget
  endStatement "expected end of line after expression"
  return .expression e.line e

mutual

/-- A declaration. -/
def declaration (budget : Nat) : Action Node := do
  if (← peek).kind = .keyword .fn then functionDeclaration budget
  else statement budget
termination_by 16 * budget + 5

/-- The declaration of a function. The word that starts it is not looked at. -/
def functionDeclaration (budget : Nat) : Action Node := do
  let start ← advance
  let name ← expect .ident "expected function name after 'fn'"
  let _ ← expect (.operator .lparen) "expected '(' after function name"
  let params ← parameters
  let _ ← expect (.operator .rparen) "expected ')' after parameters"
  skipNewlines
  if (← peek).kind = .keyword .do_ then
    let body ← block budget
    return .function start.line name.text params body
  else unexpected "expected 'do' before function body" (some (.keyword .do_))
termination_by 16 * budget + 3

/-- A statement. -/
def statement (budget : Nat) : Action Node := do
  let t ← peek
  if t.kind = .keyword .if_ then ifStatement budget
  else if t.kind = .keyword .for_ then forStatement budget
  else if t.kind = .keyword .print then printStatement budget
  else if t.kind = .keyword .return_ then returnStatement budget
  else if t.kind = .keyword .while_ then whileStatement budget
  else if t.kind = .keyword .do_ then block budget
  else expressionStatement budget
termination_by 16 * budget + 4

/-- A conditional. An `else` on a later line still belongs to it. -/
def ifStatement (budget : Nat) : Action Node := do
  let start ← advance
  let condition ← expression budget
  skipNewlines
  let thenBranch ← deeper .body budget fun rest _ => statement rest
  skipNewlines
  match ← accept (· == .keyword .else_) with
  | some _ =>
    skipNewlines
    let elseBranch ← deeper .body budget fun rest _ => statement rest
    return .conditional start.line condition thenBranch (some elseBranch)
  | none => return .conditional start.line condition thenBranch none
termination_by 16 * budget + 3

/-- A `for` loop. The word that starts it is not looked at. -/
def forStatement (budget : Nat) : Action Node := do
  let start ← advance
  let _ ← expect (.operator .lparen) "expected '(' after 'for'"
  let (initializer, condition, increment) ← during true (forClauses budget)
  let _ ← expect (.operator .rparen) "expected ')' after for clauses"
  skipNewlines
  let body ← deeper .body budget fun rest _ => statement rest
  return forLoop start.line initializer condition increment body
termination_by 16 * budget + 3

/-- A `while` loop. -/
def whileStatement (budget : Nat) : Action Node := do
  let start ← advance
  let _ ← expect (.operator .lparen) "expected '(' after 'while'"
  let condition ← expression budget
  let _ ← expect (.operator .rparen) "expected ')' after condition"
  skipNewlines
  let body ← deeper .body budget fun rest _ => statement rest
  return .loop start.line condition body
termination_by 16 * budget + 3

/-- A block, which is on the line of the word that opens it. -/
def block (budget : Nat) : Action Node := do
  let opening ← expect (.keyword .do_) "expected 'do' to open block"
  insideBlock do
    skipNewlines
    let body ← untilNext (· == .keyword .end_) do
      let d ← deeper .block budget fun rest _ => declaration rest
      skipNewlines
      return d
    match ← accept (· == .keyword .end_) with
    | some _ => return .block opening.line body
    | none => invalid (unterminatedBlock opening)
termination_by 16 * budget + 2

end

/-! ## Whole inputs -/

/-- An expression that takes the whole input, ends of line around it aside. -/
def wholeExpression (budget : Nat) : Action Node := do
  skipNewlines
  let e ← expression budget
  skipNewlines
  if (← peek).kind = .eof then return e
  else unexpected "expected end of input after expression" none

end ScriptCheck.Parser
