import ScriptCheck.Decimal.Numeral
import ScriptCheck.Decimal.Shortest

/-!
# Literal values

The value that a literal of the language stands for.
-/

namespace ScriptCheck

/-- A literal value. -/
inductive Literal where
  | nil
  | bool (value : Bool)
  | int (value : Int)
  | float (value : Binary64)
  | text (value : String)
  deriving DecidableEq, Repr

namespace Literal

/-- Whether two literals are of one type and have equal values. So `true`, `1` and `1.0` are
pairwise different, and a number that is none differs from itself. -/
def agrees : Literal → Literal → Bool
  | .nil, .nil => true
  | .bool a, .bool b => a == b
  | .int a, .int b => a == b
  | .float a, .float b => a.sameValue b
  | .text a, .text b => a == b
  | _, _ => false

/-- Floating-point values are written positionally while the exponent of their leading digit lies
between -4 and 15, and otherwise with an exponent of at least two digits. -/
def floatLayout : Decimal.Layout where
  leastPositional := -4
  greatestPositional := 15
  exponentMark := "e"
  exponentWidth := 2
  infinityName := "inf"
  nanName := "nan"

/-- The text of a floating-point value. -/
def floatText (x : Binary64) : String :=
  floatLayout.text x

end Literal

end ScriptCheck
