import ScriptCheck.Syntax.Tree

/-!
# Walking through a tree

The children of a node come in the order of the source. A walk visits a node before its children and
each child with all below it before the next: `Node.walk_eq` says so in terms of the children.
-/

namespace ScriptCheck.Node

/-- The nodes directly below a node. -/
def children : Node → List Node
  | program _ statements | block _ statements => statements
  | function _ _ _ body => [body]
  | binding _ _ initializer => initializer.toList
  | conditional _ condition thenBranch elseBranch =>
    condition :: thenBranch :: elseBranch.toList
  | loop _ condition body => [condition, body]
  | print _ value | return_ _ value | expression _ value | assign _ _ value => [value]
  | logical _ _ left right | binary _ _ left right => [left, right]
  | unary _ _ operand => [operand]
  | call _ callee arguments => callee :: arguments
  | grouping _ inner => [inner]
  | literal .. | var .. | bare _ => []

mutual

/-- The nodes of a tree, each before those below it. -/
def walk : Node → List Node
  | n@(program _ statements) => n :: walkAll statements
  | n@(function _ _ _ body) => n :: body.walk
  | n@(binding _ _ none) => [n]
  | n@(binding _ _ (some initializer)) => n :: initializer.walk
  | n@(block _ statements) => n :: walkAll statements
  | n@(conditional _ condition thenBranch none) => n :: (condition.walk ++ thenBranch.walk)
  | n@(conditional _ condition thenBranch (some elseBranch)) =>
    n :: (condition.walk ++ (thenBranch.walk ++ elseBranch.walk))
  | n@(loop _ condition body) => n :: (condition.walk ++ body.walk)
  | n@(print _ value) => n :: value.walk
  | n@(return_ _ value) => n :: value.walk
  | n@(expression _ value) => n :: value.walk
  | n@(assign _ _ value) => n :: value.walk
  | n@(logical _ _ left right) => n :: (left.walk ++ right.walk)
  | n@(binary _ _ left right) => n :: (left.walk ++ right.walk)
  | n@(unary _ _ operand) => n :: operand.walk
  | n@(call _ callee arguments) => n :: (callee.walk ++ walkAll arguments)
  | n@(literal ..) => [n]
  | n@(var ..) => [n]
  | n@(grouping _ inner) => n :: inner.walk
  | n@(bare _) => [n]

/-- The walks through several trees, one after the other. -/
def walkAll : List Node → List Node
  | [] => []
  | n :: ns => n.walk ++ walkAll ns

end

/-- The number of nodes of a tree. -/
def count (n : Node) : Nat :=
  n.walk.length

theorem walkAll_eq (ns : List Node) : walkAll ns = ns.flatMap walk := by
  induction ns with
  | nil => rfl
  | cons n ns ih => simp [walkAll, ih]

/-- A walk is the node followed by the walks through its children. -/
theorem walk_eq (n : Node) : n.walk = n :: n.children.flatMap walk := by
  cases n with
  | binding line name initializer => cases initializer <;> simp [walk, children]
  | conditional line condition thenBranch elseBranch =>
    cases elseBranch <;> simp [walk, children]
  | _ => simp [walk, children, walkAll_eq]

end ScriptCheck.Node
