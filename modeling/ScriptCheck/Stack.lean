/-!
# Room on the stack

How deep a program may be nested is not up to the language but to the stack that its parser runs on,
and so is how deep a tree may be to be told as data. What there is room for is a parameter of all
that runs on a stack, and nothing is proved about how much it is.
-/

namespace ScriptCheck

/-- What a stack has room for. -/
class Stack where
  /-- What the weights of the constructs around a token may add up to. -/
  nesting : Nat
  /-- How many calls deep it may be to tell a tree as data. -/
  outline : Nat

/-- What is left of a thousand calls. It is what the command runs with, and what examples are about
that do not say otherwise. -/
instance Stack.standard : Stack where
  nesting := 970
  outline := 990

end ScriptCheck
