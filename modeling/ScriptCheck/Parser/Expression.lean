import ScriptCheck.Grammar.Expression
import ScriptCheck.Session.Action

/-!
# Parsing expressions

One action for each rule of the ladder of expressions. How `and` is read is up to the session: the
actions look at it where an `and` stands, and inside parentheses and argument lists they set it
aside and bring it back (`Action.nested`).
-/

namespace ScriptCheck.Parser

open ScriptCheck.Action
open ScriptCheck.Grammar (joinLogical joinBinary literalValue? missingExpression)

/-- Operators of one tier between operands of the next: they group to the left. -/
def leftFold (operand : Action Node) (operators : (andSeparates : Bool) → Kind → Bool)
    (join : Token → Node → Node → Node) : Action Node := do
  let first ← operand
  whileNext operators (fun op left => do
    let right ← operand
    return join op left right) first

mutual

/-- An expression. -/
def expression (budget : Nat) : Action Node :=
  assignment budget
termination_by 16 * budget + 11

/-- A value, or the assignment of one to a name. -/
def assignment (budget : Nat) : Action Node := do
  let target ← logicOr budget
  if (← peek).kind = .operator .assign then
    match target with
    | .var line name =>
      let _ ← advance
      let value ← deeper .assigned budget fun rest _ => assignment rest
      return .assign line name value
    | _ =>
      invalid fun t =>
        .atToken .invalidAssignmentTarget "invalid assignment target" t none none
  else return target
termination_by 16 * budget + 10

/-- Alternatives joined by `or`. -/
def logicOr (budget : Nat) : Action Node :=
  leftFold (logicAnd budget) (fun _ k => k == .keyword .or_) joinLogical
termination_by 16 * budget + 9

/-- Conditions joined by `and`, unless it separates clauses. -/
def logicAnd (budget : Nat) : Action Node :=
  leftFold (equality budget) (fun andSeparates k => k == .keyword .and_ && !andSeparates)
    joinLogical
termination_by 16 * budget + 8

/-- Comparisons for equality. -/
def equality (budget : Nat) : Action Node :=
  leftFold (comparison budget) (fun _ => Kind.isEquality) joinBinary
termination_by 16 * budget + 7

/-- Comparisons by order. -/
def comparison (budget : Nat) : Action Node :=
  leftFold (term budget) (fun _ => Kind.isComparison) joinBinary
termination_by 16 * budget + 6

/-- Sums and differences. -/
def term (budget : Nat) : Action Node :=
  leftFold (factor budget) (fun _ => Kind.isTerm) joinBinary
termination_by 16 * budget + 5

/-- Products, quotients, powers and defaults. -/
def factor (budget : Nat) : Action Node :=
  leftFold (unary budget) (fun _ => Kind.isFactor) joinBinary
termination_by 16 * budget + 4

/-- An operand with any number of operators in front. -/
def unary (budget : Nat) : Action Node := do
  match ← accept Kind.isUnary with
  | some op =>
    let operand ← deeper .operand budget fun rest _ => unary rest
    return .unary op.line op.text operand
  | none => call budget
termination_by 16 * budget + 3

/-- A primary expression with any number of argument lists behind it. -/
def call (budget : Nat) : Action Node := do
  let callee ← primary budget
  whileNext (fun _ k => k == .operator .lparen) (fun paren callee => do
    let passed ← nested (deeper .argument budget fun rest _ => arguments rest)
    let _ ← expect (.operator .rparen) "expected ')' after arguments"
    return .call paren.line callee passed) callee
termination_by 16 * budget + 2

/-- The arguments of a call, without the parentheses around them. -/
def arguments (budget : Nat) : Action (List Node) := do
  let read ← unlessNext (.operator .rparen) (commaSeparated (expression budget))
  return read.getD []
termination_by 16 * budget + 12

/-- A literal, a name, or an expression in parentheses. -/
def primary (budget : Nat) : Action Node := do
  let t ← peek
  if t.kind = .number then
    let _ ← advance
    match t.numberValue with
    | .ok value => return .literal t.line value
    | .error fault => fail fun _ => .numeral fault
  else
    match literalValue? t with
    | some value =>
      let _ ← advance
      return .literal t.line value
    | none =>
      if t.kind = .operator .lparen then
        let _ ← advance
        let inner ← nested (deeper .grouping budget fun rest _ => expression rest)
        let _ ← expect (.operator .rparen) "expected ')' after expression"
        return .grouping t.line inner
      else if t.kind = .ident then
        let _ ← advance
        return .var t.line t.text
      else invalid missingExpression
termination_by 16 * budget + 1

end

end ScriptCheck.Parser
