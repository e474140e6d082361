import ScriptCheck.Grammar.Nesting
import ScriptCheck.Syntax.Tree

/-!
# How deep a tree is nested

`Node.nesting` is what a tree takes of the nesting budget when it is written out and read: the
greatest sum of the weights around any of its parts. Parts side by side cost no more than the
deepest of them.
-/

namespace ScriptCheck.Node

mutual

/-- What reading a tree takes of the nesting budget. -/
def nesting : Node → Nat
  | program _ statements => nestingWithin 0 statements
  | function _ _ _ body => body.nesting
  | binding _ _ none => 0
  | binding _ _ (some initializer) => initializer.nesting
  | block _ statements => nestingWithin (Nesting.weight .block) statements
  | conditional _ condition thenBranch none =>
    max condition.nesting (Nesting.weight .body + thenBranch.nesting)
  | conditional _ condition thenBranch (some elseBranch) =>
    max condition.nesting
      (max (Nesting.weight .body + thenBranch.nesting) (Nesting.weight .body + elseBranch.nesting))
  | loop _ condition body => max condition.nesting (Nesting.weight .body + body.nesting)
  | print _ value => value.nesting
  | return_ _ value => value.nesting
  | expression _ value => value.nesting
  | assign _ _ value => Nesting.weight .assigned + value.nesting
  | logical _ _ left right => max left.nesting right.nesting
  | binary _ _ left right => max left.nesting right.nesting
  | unary _ _ operand => Nesting.weight .operand + operand.nesting
  | call _ callee arguments =>
    max callee.nesting (Nesting.weight .argument + nestingWithin 0 arguments)
  | literal .. => 0
  | var .. => 0
  | grouping _ inner => Nesting.weight .grouping + inner.nesting
  | bare _ => 0

/-- What several trees side by side take of it, each inside something of the given weight. -/
def nestingWithin (weight : Nat) : List Node → Nat
  | [] => 0
  | n :: ns => max (weight + n.nesting) (nestingWithin weight ns)

end

/-- Trees side by side fit exactly when each of them does. -/
theorem nestingWithin_le_iff {weight budget : Nat} {ns : List Node} :
    nestingWithin weight ns ≤ budget ↔ ∀ n ∈ ns, weight + n.nesting ≤ budget := by
  induction ns with
  | nil => simp [nestingWithin]
  | cons n ns ih => rw [nestingWithin, Nat.max_le, ih, List.forall_mem_cons]

end ScriptCheck.Node
