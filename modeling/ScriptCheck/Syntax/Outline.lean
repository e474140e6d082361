import ScriptCheck.Json
import ScriptCheck.Syntax.Tree

/-!
# Trees as data

The outline of a tree is a JSON value that keeps all of it: an object to the node, which gives the
node's form and line and then its contents in a fixed order. A child that is left out is null.
-/

namespace ScriptCheck

/-- A literal value as data. -/
def Literal.outline : Literal → Json
  | nil => .null
  | bool b => .bool b
  | int i => .int i
  | float x => .float x
  | text s => .text s

/-- The object of a node of the given form and line. -/
def Json.node (kind : String) (line : Int) (contents : List (String × Json)) : Json :=
  .object (("kind", .text kind) :: ("line", .int line) :: contents)

namespace Node

mutual

/-- A tree as data. -/
def outline : Node → Json
  | program line statements => .node "program" line [("statements", .list (outlineAll statements))]
  | function line name params body =>
    .node "function" line
      [("name", .text name), ("params", .list (params.map .text)), ("body", body.outline)]
  | binding line name none =>
    .node "var_binding" line [("name", .text name), ("initializer", .null)]
  | binding line name (some initializer) =>
    .node "var_binding" line [("name", .text name), ("initializer", initializer.outline)]
  | block line statements => .node "block" line [("statements", .list (outlineAll statements))]
  | conditional line condition thenBranch none =>
    .node "if" line
      [("condition", condition.outline), ("then_branch", thenBranch.outline),
       ("else_branch", .null)]
  | conditional line condition thenBranch (some elseBranch) =>
    .node "if" line
      [("condition", condition.outline), ("then_branch", thenBranch.outline),
       ("else_branch", elseBranch.outline)]
  | loop line condition body =>
    .node "while" line [("condition", condition.outline), ("body", body.outline)]
  | print line value => .node "print" line [("expression", value.outline)]
  | return_ line value => .node "return" line [("value", value.outline)]
  | expression line value => .node "expression_stmt" line [("expression", value.outline)]
  | assign line target value =>
    .node "assign" line [("target", .text target), ("value", value.outline)]
  | logical line operator left right =>
    .node "logical" line
      [("operator", .text operator), ("left", left.outline), ("right", right.outline)]
  | binary line operator left right =>
    .node "binary" line
      [("operator", .text operator), ("left", left.outline), ("right", right.outline)]
  | unary line operator operand =>
    .node "unary" line [("operator", .text operator), ("operand", operand.outline)]
  | call line callee arguments =>
    .node "call" line
      [("callee", callee.outline), ("arguments", .list (outlineAll arguments))]
  | literal line value => .node "literal" line [("value", value.outline)]
  | var line name => .node "variable" line [("name", .text name)]
  | grouping line inner => .node "grouping" line [("expression", inner.outline)]
  | bare line => .node "node" line []

/-- Several trees as data. -/
def outlineAll : List Node → List Json
  | [] => []
  | n :: ns => n.outline :: outlineAll ns

end

theorem outlineAll_eq (ns : List Node) : outlineAll ns = ns.map outline := by
  induction ns with
  | nil => rfl
  | cons n ns ih => simp [outlineAll, ih]

/-! ## How deep it is to tell a tree -/

mutual

/-- How many calls deep it is to tell a tree as data. A node is told in a call of its own. So is
each of its contents; a list of contents is told in two calls, and each of its entries in another.
To see which contents a node has is two calls deep. -/
def outlineDepth : Node → Nat
  | program _ statements => 1 + outlineDepthAll statements
  | function _ _ _ body => 2 + body.outlineDepth
  | binding _ _ none => 3
  | binding _ _ (some initializer) => 2 + initializer.outlineDepth
  | block _ statements => 1 + outlineDepthAll statements
  | conditional _ condition thenBranch none =>
    2 + max condition.outlineDepth thenBranch.outlineDepth
  | conditional _ condition thenBranch (some elseBranch) =>
    2 + max condition.outlineDepth (max thenBranch.outlineDepth elseBranch.outlineDepth)
  | loop _ condition body => 2 + max condition.outlineDepth body.outlineDepth
  | print _ value => 2 + value.outlineDepth
  | return_ _ value => 2 + value.outlineDepth
  | expression _ value => 2 + value.outlineDepth
  | assign _ _ value => 2 + value.outlineDepth
  | logical _ _ left right => 2 + max left.outlineDepth right.outlineDepth
  | binary _ _ left right => 2 + max left.outlineDepth right.outlineDepth
  | unary _ _ operand => 2 + operand.outlineDepth
  | call _ callee arguments => 1 + max (1 + callee.outlineDepth) (outlineDepthAll arguments)
  | literal .. => 3
  | var .. => 3
  | grouping _ inner => 2 + inner.outlineDepth
  | bare _ => 3

/-- How many calls deep it is to tell a list of trees. -/
def outlineDepthAll : List Node → Nat
  | [] => 2
  | n :: ns => max (3 + n.outlineDepth) (outlineDepthAll ns)

end

end Node

end ScriptCheck
