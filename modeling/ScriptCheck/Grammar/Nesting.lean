import ScriptCheck.Grammar.Rule
import ScriptCheck.Stack

/-!
# Bounded nesting

Constructs may be nested in one another to a bounded depth only. Each way to nest has a weight, and
the weights of the constructs around a token may add up to `Nesting.limit`. A rule for a construct
that can hold others takes what is left of that sum as its budget, and as every weight is positive,
the budget is also what the recursion of the grammar runs on.
-/

namespace ScriptCheck

/-- The ways in which one construct can stand inside another. -/
inductive Nesting where
  /-- An expression in parentheses. -/
  | grouping
  /-- An argument of a call. -/
  | argument
  /-- The operand behind an operator that stands in front. -/
  | operand
  /-- The value of an assignment. -/
  | assigned
  /-- A declaration in a block. -/
  | block
  /-- The statement that a condition or a loop governs. -/
  | body
  deriving DecidableEq, Repr

namespace Nesting

/-- How much of the budget a way to nest takes: the more rules of the grammar lie between the two
constructs, the more. -/
def weight : Nesting → Nat
  | grouping => 16
  | argument => 16
  | operand => 1
  | assigned => 1
  | block => 3
  | body => 2

/-- The budget at the top level. -/
def limit [Stack] : Nat := Stack.nesting

theorem weight_pos (n : Nesting) : 0 < n.weight := by
  cases n <;> decide

theorem sub_weight_lt (n : Nesting) {budget : Nat} (h : n.weight ≤ budget) :
    budget - n.weight < budget := by
  have hpos := n.weight_pos
  omega

end Nesting

/-- A rule inside another, read with what is then left of the budget, or a failure when the budget
does not last. -/
def Rule.deeper {α : Type} (way : Nesting) (budget : Nat)
    (inner : (rest : Nat) → rest < budget → Rule α) : Rule α :=
  if h : way.weight ≤ budget then
    inner (budget - way.weight) (way.sub_weight_lt h)
  else Rule.fail fun _ => .tooDeep

end ScriptCheck
