import ScriptCheck.Grammar.Nesting
import ScriptCheck.Syntax.Tree

/-!
# Expressions

The rules for expressions form a ladder. From the loosest tier to the tightest:

    assignment  → IDENT "=" assignment | logicOr
    logicOr     → logicAnd ("or" logicAnd)*
    logicAnd    → equality ("and" equality)*
    equality    → comparison (("==" | "!=") comparison)*
    comparison  → term ((">" | ">=" | "<" | "<=") term)*
    term        → factor (("+" | "-") factor)*
    factor      → unary (("/" | "*" | "**" | "??") unary)*
    unary       → ("!" | "-") unary | call
    call        → primary ("(" arguments? ")")*
    primary     → NUMBER | STRING | "true" | "false" | "nil" | "(" expression ")" | IDENT

A rule has two parameters. While `andSeparates` holds, `and` separates the clauses of a `for` and is
no operator; inside parentheses it always is one, so the rules for calls and primaries are not told.
The budget is what the nesting may still take.

The rules say what is read. The parser follows them with actions on a session, which does not pass
the way to read `and` on but sets it and brings it back (`Parser.expression_reads`).
-/

namespace ScriptCheck.Grammar

open ScriptCheck.Rule

/-- Operators of one tier between operands of the next: they group to the left. -/
def leftFold (operand : Rule Node) (operators : Kind → Bool) (join : Token → Node → Node → Node) :
    Rule Node := do
  let first ← operand
  whileNext operators (fun op left => do
    let right ← operand
    return join op left right) first

/-- The expression that an operator of a logical tier makes. -/
def joinLogical (op : Token) (left right : Node) : Node :=
  .logical op.line op.text left right

/-- The expression that an operator of another tier makes. -/
def joinBinary (op : Token) (left right : Node) : Node :=
  .binary op.line op.text left right

/-- The value of a literal token other than a number, and nothing for other tokens. A string that
carries no value stands for its text. -/
def literalValue? (t : Token) : Option Literal :=
  match t.kind with
  | .string => some (t.literal.getD (.text t.text))
  | .keyword .true_ => some (.bool true)
  | .keyword .false_ => some (.bool false)
  | .keyword .nil => some .nil
  | _ => none

/-- The hint for a token that starts no expression. -/
def missingExpressionNote (t : Token) : Option String :=
  match t.kind with
  | .eof => some "reached end of input"
  | .error => some ("unexpected character " ++ Text.quoted t.text)
  | _ => none

/-- The error that no expression starts with a token. -/
def missingExpression (t : Token) : SyntaxError :=
  .atToken .missingExpression "expected expression" t none (missingExpressionNote t)

mutual

/-- An expression. -/
def expression (andSeparates : Bool) (budget : Nat) : Rule Node :=
  assignment andSeparates budget
termination_by 16 * budget + 11

/-- A value, or the assignment of one to a name. -/
def assignment (andSeparates : Bool) (budget : Nat) : Rule Node := do
  let target ← logicOr andSeparates budget
  if (← peek).kind = .operator .assign then
    match target with
    | .var line name =>
      let _ ← advance
      let value ← deeper .assigned budget fun rest _ => assignment andSeparates rest
      return .assign line name value
    | _ =>
      invalid fun t =>
        .atToken .invalidAssignmentTarget "invalid assignment target" t none none
  else return target
termination_by 16 * budget + 10

/-- Alternatives joined by `or`. -/
def logicOr (andSeparates : Bool) (budget : Nat) : Rule Node :=
  leftFold (logicAnd andSeparates budget) (· == .keyword .or_) joinLogical
termination_by 16 * budget + 9

/-- Conditions joined by `and`, unless it separates clauses. -/
def logicAnd (andSeparates : Bool) (budget : Nat) : Rule Node :=
  leftFold (equality andSeparates budget) (fun k => k == .keyword .and_ && !andSeparates)
    joinLogical
termination_by 16 * budget + 8

/-- Comparisons for equality. -/
def equality (andSeparates : Bool) (budget : Nat) : Rule Node :=
  leftFold (comparison andSeparates budget) Kind.isEquality joinBinary
termination_by 16 * budget + 7

/-- Comparisons by order. -/
def comparison (andSeparates : Bool) (budget : Nat) : Rule Node :=
  leftFold (term andSeparates budget) Kind.isComparison joinBinary
termination_by 16 * budget + 6

/-- Sums and differences. -/
def term (andSeparates : Bool) (budget : Nat) : Rule Node :=
  leftFold (factor andSeparates budget) Kind.isTerm joinBinary
termination_by 16 * budget + 5

/-- Products, quotients, powers and defaults. -/
def factor (andSeparates : Bool) (budget : Nat) : Rule Node :=
  leftFold (unary andSeparates budget) Kind.isFactor joinBinary
termination_by 16 * budget + 4

/-- An operand with any number of operators in front. -/
def unary (andSeparates : Bool) (budget : Nat) : Rule Node := do
  match ← accept Kind.isUnary with
  | some op =>
    let operand ← deeper .operand budget fun rest _ => unary andSeparates rest
    return .unary op.line op.text operand
  | none => call budget
termination_by 16 * budget + 3

/-- A primary expression with any number of argument lists behind it. -/
def call (budget : Nat) : Rule Node := do
  let callee ← primary budget
  whileNext (· == .operator .lparen) (fun paren callee => do
    let passed ← deeper .argument budget fun rest _ => arguments false rest
    let _ ← expect (.operator .rparen) "expected ')' after arguments"
    return .call paren.line callee passed) callee
termination_by 16 * budget + 2

/-- The arguments of a call, without the parentheses around them. -/
def arguments (andSeparates : Bool) (budget : Nat) : Rule (List Node) := do
  let read ← unlessNext (.operator .rparen) (commaSeparated (expression andSeparates budget))
  return read.getD []
termination_by 16 * budget + 12

/-- A literal, a name, or an expression in parentheses. -/
def primary (budget : Nat) : Rule Node := do
  let t ← peek
  match t.kind with
  | .number =>
    let _ ← advance
    match t.numberValue with
    | .ok value => return .literal t.line value
    | .error fault => fail fun _ => .numeral fault
  | .operator .lparen =>
    let _ ← advance
    let inner ← deeper .grouping budget fun rest _ => expression false rest
    let _ ← expect (.operator .rparen) "expected ')' after expression"
    return .grouping t.line inner
  | .ident =>
    let _ ← advance
    return .var t.line t.text
  | _ =>
    match literalValue? t with
    | some value =>
      let _ ← advance
      return .literal t.line value
    | none => invalid missingExpression
termination_by 16 * budget + 1

end

end ScriptCheck.Grammar
