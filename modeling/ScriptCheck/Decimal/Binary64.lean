/-!
# Binary floating-point numbers

A number with a fractional part is read, compared and written, never calculated with. So it is kept
as the 64 bits of its IEEE 754 format, and the three operations are exact arithmetic on integers.
`Binary64.nearest` rounds a fraction once, to the nearest number of the format and half-way cases to
the even one; the subnormal numbers and the overflow to infinity need no case of their own, because
the bit patterns of the non-negative numbers stand in the order of their values.
-/

namespace ScriptCheck

/-- A binary floating-point number of 64 bits. -/
structure Binary64 where
  bits : UInt64
  deriving DecidableEq, Repr

namespace Binary64

/-- What a number is: `finite negative m q` stands for `m · 2^q` with its sign. -/
inductive Shape where
  | nan
  | infinite (negative : Bool)
  | finite (negative : Bool) (significand : Nat) (exponent : Int)
  deriving DecidableEq, Repr

/-- The weight of the lowest bit of the exponent field. -/
def fieldWeight : Nat := 1 <<< 52

/-- The weight of the sign bit. -/
def signWeight : Nat := 1 <<< 63

/-- The pattern of infinity: every bit of the exponent field, no bit below it. -/
def infinityPattern : Nat := 0x7ff * fieldWeight

/-- The number of the given sign whose other 63 bits are `pattern`. -/
def ofPattern (negative : Bool) (pattern : Nat) : Binary64 :=
  ⟨(pattern + if negative then signWeight else 0).toUInt64⟩

/-- The number without its sign. -/
def pattern (x : Binary64) : Nat :=
  x.bits.toNat % signWeight

/-- Whether the sign bit is set. -/
def isNegative (x : Binary64) : Bool :=
  signWeight ≤ x.bits.toNat

/-- What the bits of a number say. -/
def shape (x : Binary64) : Shape :=
  let field := x.pattern / fieldWeight
  let fraction := x.pattern % fieldWeight
  if field = 0x7ff then
    if fraction = 0 then .infinite x.isNegative else .nan
  else if field = 0 then .finite x.isNegative fraction (-1074)
  else .finite x.isNegative (fieldWeight + fraction) (field - 1075)

/-- Infinity of the given sign. -/
def infinity (negative : Bool) : Binary64 :=
  ofPattern negative infinityPattern

/-- The value that stands for no number. -/
def nan : Binary64 :=
  ofPattern false (infinityPattern + fieldWeight / 2)

/-- Equality of the values: both zeros are equal, and no value equals the one that is no number. -/
def sameValue (x y : Binary64) : Bool :=
  if x.shape = .nan then false
  else x = y || (x.pattern = 0 && y.pattern = 0)

/-- The quotient rounded to the nearest natural number, a half to the even one. -/
def roundedQuotient (num den : Nat) : Nat :=
  let quotient := num / den
  let double := 2 * (num % den)
  if double < den || (double = den && quotient % 2 = 0) then quotient else quotient + 1

/-- The exponent of the last bit kept of `num / den`: fifty-three bits are kept, and none below the
last bit of the subnormal numbers. -/
def lastBitExponent (num den : Nat) : Int :=
  let width : Int := (num.log2 : Int) - den.log2
  let reached := den <<< width.toNat ≤ num <<< (-width).toNat
  max (-1074) (if reached then width - 52 else width - 53)

/-- The number nearest to `num / den` with the given sign, for `den` not zero. A carry out of the
significand moves the pattern to the next exponent, as it should, and a pattern from that of
infinity on is infinity. -/
def nearest (negative : Bool) (num den : Nat) : Binary64 :=
  let last := lastBitExponent num den
  let significand := roundedQuotient (num <<< (-last).toNat) (den <<< last.toNat)
  let pattern := (last + 1074).toNat * fieldWeight + significand
  ofPattern negative (min pattern infinityPattern)

/-- Powers of ten beyond this exponent are infinite and those below its negation are zero. -/
def decimalReach : Int := 400

/-- The number nearest to `m · 10^x`. Beyond the reach of the format the answer is known without
raising ten to the exponent: a number of `n + 1` bits lies between `10^(n/4)` and `10^(n/3+1)`. -/
def ofDecimal (negative : Bool) (m : Nat) (x : Int) : Binary64 :=
  if m = 0 ∨ x + (m.log2 / 3 + 1 : Nat) < -decimalReach then ofPattern negative 0
  else if decimalReach < x + (m.log2 / 4 : Nat) then infinity negative
  else nearest negative (m * Nat.pow 10 x.toNat) (Nat.pow 10 (-x).toNat)

end Binary64

end ScriptCheck
