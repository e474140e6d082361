import ScriptCheck.Decimal.Binary64
import ScriptCheck.Text.Quoted

/-!
# Reading numerals

A numeral may be surrounded by blanks and may have a sign, and its digits may be those of any
script, mixed at will. A single underscore may stand between two digits. An integer has at most
4300 digits, leading zeros included; a real number has no such bound, and one that is too large is
infinite.
-/

namespace ScriptCheck.Numeral

open ScriptCheck.Text

/-- Why a text is no numeral. -/
inductive Fault where
  | notInteger (text : String)
  | notReal (text : String)
  | tooManyDigits (count : Nat)
  deriving DecidableEq, Repr

/-- The greatest number of digits of an integer. -/
def digitLimit : Nat := 4300

/-- How much of a faulty integer's quoted text a message shows. -/
def shownLength : Nat := 200

/-- The message of a fault. -/
def Fault.message : Fault → String
  | .notInteger text =>
    "invalid literal for int() with base 10: "
      ++ String.ofList ((quoted text).toList.take shownLength)
  | .notReal text => "could not convert string to float: " ++ quoted text
  | .tooManyDigits count =>
    "Exceeds the limit (" ++ toString digitLimit ++ " digits) for integer string conversion: "
      ++ "value has " ++ toString count
      ++ " digits; use sys.set_int_max_str_digits() to increase the limit"

/-- The text without the blanks around it. -/
def trimmed (cs : List Char) : List Char :=
  ((cs.dropWhile isNumeralBlank).reverse.dropWhile isNumeralBlank).reverse

/-- Whether a sign in front of `cs` is a minus, and what follows the sign. -/
def signed : List Char → Bool × List Char
  | '-' :: cs => (true, cs)
  | '+' :: cs => (false, cs)
  | cs => (false, cs)

/-- The values of the decimal digits among `cs`, in order. -/
def digitValues (cs : List Char) : List Nat :=
  cs.filterMap decimalValue?

/-- The number that a sequence of digit values denotes in base ten. -/
def ofDigits (digits : List Nat) : Nat :=
  digits.foldl (fun n d => 10 * n + d) 0

/-- Whether every underscore of `cs` stands between two digits. `afterDigit` says whether a digit
stands in front of `cs`. -/
def separatorsFit (afterDigit : Bool) : List Char → Bool
  | [] => true
  | '_' :: c :: cs => afterDigit && isDecimal c && separatorsFit true cs
  | '_' :: [] => false
  | c :: cs => separatorsFit (isDecimal c) cs

/-- The integer that a text denotes. The digits are counted before what follows them is looked
at. -/
def readInteger (text : String) : Except Fault Int :=
  let (negative, cs) := signed (trimmed text.toList)
  let isRun := fun c => isDecimal c || c == '_'
  let run := cs.takeWhile isRun
  let digits := digitValues run
  if digits.isEmpty || !separatorsFit false run then .error (.notInteger text)
  else if digitLimit < digits.length then .error (.tooManyDigits digits.length)
  else if !(cs.dropWhile isRun).isEmpty then .error (.notInteger text)
  else .ok (if negative then -(ofDigits digits : Int) else ofDigits digits)

/-- The exponent that follows the digits of a real number: nothing at all stands for zero. -/
def readExponent : List Char → Option Int
  | [] => some 0
  | mark :: cs =>
    if mark = 'e' ∨ mark = 'E' then
      let (negative, cs) := signed cs
      if cs.isEmpty || !cs.all isDecimal then none
      else some (if negative then -(ofDigits (digitValues cs) : Int) else ofDigits (digitValues cs))
    else none

/-- The number that an unsigned text without underscores denotes in positional or scientific
notation, or by name. -/
def readMagnitude (negative : Bool) (cs : List Char) : Option Binary64 :=
  let whole := cs.takeWhile isDecimal
  let (fraction, rest) :=
    match cs.dropWhile isDecimal with
    | '.' :: cs => (cs.takeWhile isDecimal, cs.dropWhile isDecimal)
    | cs => ([], cs)
  if whole.isEmpty && fraction.isEmpty then
    match String.ofList (cs.map Char.toLower) with
    | "inf" | "infinity" => some (.infinity negative)
    | "nan" => some .nan
    | _ => none
  else
    (readExponent rest).map fun exponent =>
      .ofDecimal negative (ofDigits (digitValues (whole ++ fraction)))
        (exponent - (fraction.length : Int))

/-- The real number that a text denotes. -/
def readReal (text : String) : Except Fault Binary64 :=
  let cs := trimmed text.toList
  if !separatorsFit false cs then .error (.notReal text)
  else
    let (negative, magnitude) := signed (cs.filter (· != '_'))
    match readMagnitude negative magnitude with
    | some x => .ok x
    | none => .error (.notReal text)

end ScriptCheck.Numeral
