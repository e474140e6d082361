import ScriptCheck.Decimal.Binary64

/-!
# The shortest decimal text of a binary number

Every decimal number that lies closer to a binary number `x` than to its neighbours reads back as
`x`. The text of `x` has the fewest digits that read back, and of those the digits nearest to `x`.
The candidates on a decimal grid are the two multiples of its step next to `x`; the coarsest grid
with a candidate that reads back gives the digits.
-/

namespace ScriptCheck.Decimal

/-- A decimal number `digits · 10^exponent`. -/
structure Scaled where
  digits : Nat
  exponent : Int
  deriving DecidableEq, Repr

/-- A positive binary number `significand · 2^exponent`, seen in quarters of its last place. -/
structure Neighbourhood where
  significand : Nat
  exponent : Int

namespace Neighbourhood

/-- The number itself, in quarters of its last place. -/
def centre (n : Neighbourhood) : Nat := 4 * n.significand

/-- The upper end of the numbers that read back as this one: half a place above it. -/
def upper (n : Neighbourhood) : Nat := 4 * n.significand + 2

/-- The lower end: half a place below the number, or a quarter when the number is the least of its
exponent and the places below it are half as wide. -/
def lower (n : Neighbourhood) : Nat :=
  if n.significand = Binary64.fieldWeight ∧ n.exponent ≠ -1074 then 4 * n.significand - 1
  else 4 * n.significand - 2

/-- Whether the fraction `num / den` of quarters reads back. The ends do when the significand is
even, because a half-way case is rounded to the even neighbour. -/
def admits (n : Neighbourhood) (num den : Nat) : Bool :=
  if n.significand % 2 = 0 then n.lower * den ≤ num && num ≤ n.upper * den
  else n.lower * den < num && num < n.upper * den

/-- The multiple of `10^x` that reads back and is nearest to the number, if there is one. -/
def onGrid? (n : Neighbourhood) (x : Int) : Option Nat :=
  let step := (4 * Nat.pow 10 x.toNat) <<< (-n.exponent).toNat
  let unit := Nat.pow 10 (-x).toNat <<< n.exponent.toNat
  let below := n.centre * unit / step
  let above := below + 1
  let rest := n.centre * unit % step
  match n.admits (below * step) unit && below ≠ 0, n.admits (above * step) unit with
  | true, true =>
    some (if 2 * rest < step || (2 * rest = step && below % 2 = 0) then below else above)
  | true, false => some below
  | false, true => some above
  | false, false => none

/-- An exponent of ten above the number: for a number of `n` bits before or after the point it
exceeds the logarithm by less than a twentieth of `n`. -/
def topExponent (n : Neighbourhood) : Int :=
  let width : Int := n.significand.log2 + n.exponent + 1
  if 0 ≤ width then width * 31 / 100 + 1 else -(-width * 30 / 100)

/-- The grids tried, from the coarsest on. The finest one has more than seventeen digits before its
last, so one of them always serves. -/
def grids (n : Neighbourhood) : List Int :=
  (List.range 48).map fun (i : Nat) => n.topExponent - i

/-- The shortest decimal number that reads back. -/
def shortest (n : Neighbourhood) : Scaled :=
  (n.grids.findSome? fun x => (n.onGrid? x).map (⟨·, x⟩)).getD ⟨n.significand, 0⟩

end Neighbourhood

/-- How a decimal number is laid out as text. -/
structure Layout where
  /-- The least exponent of the leading digit that is written positionally. -/
  leastPositional : Int
  /-- The greatest exponent of the leading digit that is written positionally. -/
  greatestPositional : Int
  /-- What stands between the digits and the exponent. -/
  exponentMark : String
  /-- How many digits the exponent has at least. -/
  exponentWidth : Nat
  infinityName : String
  nanName : String

/-- `n` in decimal digits, with zeros in front up to the width. -/
def padded (width n : Nat) : String :=
  let digits := toString n
  "".pushn '0' (width - digits.length) ++ digits

/-- The text of a positive number in the given layout. Positional text always has a digit on both
sides of the point; scientific text has a point only between digits. -/
def Layout.write (layout : Layout) (d : Scaled) : String :=
  let digits := toString d.digits
  let lead : Int := d.exponent + digits.length - 1
  if layout.leastPositional ≤ lead ∧ lead ≤ layout.greatestPositional then
    if lead < 0 then "0." ++ "".pushn '0' (-lead - 1).toNat ++ digits
    else
      let whole := (lead + 1).toNat
      let spread := digits ++ "".pushn '0' (whole + 1 - digits.length)
      String.ofList (spread.toList.take whole) ++ "." ++ String.ofList (spread.toList.drop whole)
  else
    let first := String.ofList (digits.toList.take 1)
    let others := String.ofList (digits.toList.drop 1)
    first ++ (if others.isEmpty then "" else "." ++ others) ++ layout.exponentMark
      ++ (if lead < 0 then "-" else "+") ++ padded layout.exponentWidth lead.natAbs

/-- The text of a number in the given layout. -/
def Layout.text (layout : Layout) (x : Binary64) : String :=
  let sign := if x.isNegative then "-" else ""
  match x.shape with
  | .nan => layout.nanName
  | .infinite _ => sign ++ layout.infinityName
  | .finite _ 0 _ => sign ++ "0.0"
  | .finite _ m q => sign ++ layout.write (Neighbourhood.mk m q).shortest

end ScriptCheck.Decimal
