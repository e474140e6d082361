import ScriptCheck.Syntax.Tree

/-!
# Trees that agree

Two trees agree when they have the same forms and contents, wherever in a source they came from:
lines are not compared, and literals are compared as `Literal.agrees` does.
-/

namespace ScriptCheck.Node

mutual

/-- Whether two trees agree. -/
def agrees : Node → Node → Bool
  | program _ statements, program _ statements' => allAgree statements statements'
  | function _ name params body, function _ name' params' body' =>
    name == name' && params == params' && body.agrees body'
  | binding _ name none, binding _ name' none => name == name'
  | binding _ name (some initializer), binding _ name' (some initializer') =>
    name == name' && initializer.agrees initializer'
  | block _ statements, block _ statements' => allAgree statements statements'
  | conditional _ condition thenBranch none, conditional _ condition' thenBranch' none =>
    condition.agrees condition' && thenBranch.agrees thenBranch'
  | conditional _ condition thenBranch (some elseBranch),
    conditional _ condition' thenBranch' (some elseBranch') =>
    condition.agrees condition' && thenBranch.agrees thenBranch' && elseBranch.agrees elseBranch'
  | loop _ condition body, loop _ condition' body' =>
    condition.agrees condition' && body.agrees body'
  | print _ value, print _ value' => value.agrees value'
  | return_ _ value, return_ _ value' => value.agrees value'
  | expression _ value, expression _ value' => value.agrees value'
  | assign _ target value, assign _ target' value' => target == target' && value.agrees value'
  | logical _ operator left right, logical _ operator' left' right' =>
    operator == operator' && left.agrees left' && right.agrees right'
  | binary _ operator left right, binary _ operator' left' right' =>
    operator == operator' && left.agrees left' && right.agrees right'
  | unary _ operator operand, unary _ operator' operand' =>
    operator == operator' && operand.agrees operand'
  | call _ callee arguments, call _ callee' arguments' =>
    callee.agrees callee' && allAgree arguments arguments'
  | literal _ value, literal _ value' => value.agrees value'
  | var _ name, var _ name' => name == name'
  | grouping _ inner, grouping _ inner' => inner.agrees inner'
  | bare _, bare _ => true
  | _, _ => false

/-- Whether two lists of trees agree item by item. -/
def allAgree : List Node → List Node → Bool
  | [], [] => true
  | n :: ns, n' :: ns' => n.agrees n' && allAgree ns ns'
  | _, _ => false

end

end ScriptCheck.Node
