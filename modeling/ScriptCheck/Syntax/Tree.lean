import ScriptCheck.Literal

/-!
# Syntax trees

A tree is a node with the trees below it, and every node has the line of the source that it is
attributed to. The forms of nodes are those of the language: a program, statements and expressions.
What a form says is which parts a node has, and not what may stand in them. That a condition is an
expression and the body of a function a block is a property of the trees that the parser makes.

Operators are kept as they are written. A `for` loop has no form of its own: it is read as a block
around a `while` loop.
-/

namespace ScriptCheck

/-- A node of a syntax tree. -/
inductive Node where
  | program (line : Int) (statements : List Node)
  | function (line : Int) (name : String) (params : List String) (body : Node)
  | binding (line : Int) (name : String) (initializer : Option Node)
  | block (line : Int) (statements : List Node)
  | conditional (line : Int) (condition thenBranch : Node) (elseBranch : Option Node)
  | loop (line : Int) (condition body : Node)
  | print (line : Int) (value : Node)
  | return_ (line : Int) (value : Node)
  /-- An expression that is evaluated for its effect. -/
  | expression (line : Int) (value : Node)
  | assign (line : Int) (target : String) (value : Node)
  | logical (line : Int) (operator : String) (left right : Node)
  | binary (line : Int) (operator : String) (left right : Node)
  | unary (line : Int) (operator : String) (operand : Node)
  | call (line : Int) (callee : Node) (arguments : List Node)
  | literal (line : Int) (value : Literal)
  | var (line : Int) (name : String)
  | grouping (line : Int) (inner : Node)
  /-- A node of no particular form, which has no parts. -/
  | bare (line : Int)
  deriving Repr

namespace Node

/-- The line of a node. -/
def line : Node → Int
  | program line .. | function line .. | binding line .. | block line .. | conditional line ..
  | loop line .. | print line .. | return_ line .. | expression line .. | assign line ..
  | logical line .. | binary line .. | unary line .. | call line .. | literal line .. | var line ..
  | grouping line .. | bare line => line

/-- The name of a node's form. -/
def kind : Node → String
  | program .. => "program"
  | function .. => "function"
  | binding .. => "var_binding"
  | block .. => "block"
  | conditional .. => "if"
  | loop .. => "while"
  | print .. => "print"
  | return_ .. => "return"
  | expression .. => "expression_stmt"
  | assign .. => "assign"
  | logical .. => "logical"
  | binary .. => "binary"
  | unary .. => "unary"
  | call .. => "call"
  | literal .. => "literal"
  | var .. => "variable"
  | grouping .. => "grouping"
  | bare _ => "node"

end Node

end ScriptCheck
