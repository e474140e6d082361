import ScriptCheck.Text.CharClass

/-!
# Quoted text

A text is quoted so that it takes one line and can be read back: it stands between two quotes of
one kind, and every character that is a backslash, the quote in use or not printable is written as
an escape. The quote is the single one, unless the text holds a single quote and no double one.
-/

namespace ScriptCheck.Text

/-- The single quote. -/
def singleQuote : Char := '\x27'

/-- The double quote. -/
def doubleQuote : Char := '\x22'

/-- The lower-case hexadecimal digit of value `n`, for `n < 16`. -/
def hexDigit (n : Nat) : Char :=
  if n < 10 then Char.ofNat (0x30 + n) else Char.ofNat (0x57 + n)

/-- The lowest `width` hexadecimal digits of `n`, most significant first. -/
def hexDigits : (width : Nat) → (n : Nat) → List Char
  | 0, _ => []
  | width + 1, n => hexDigits width (n / 16) ++ [hexDigit (n % 16)]

namespace Quoted

/-- The quote to stand around `cs`. -/
def mark (cs : List Char) : Char :=
  if cs.contains singleQuote && !cs.contains doubleQuote then doubleQuote else singleQuote

/-- A character that cannot be shown, as the shortest of the three hexadecimal escapes that holds
its code point. -/
def hexEscape (c : Char) : List Char :=
  if c.toNat < 0x100 then '\\' :: 'x' :: hexDigits 2 c.toNat
  else if c.toNat < 0x10000 then '\\' :: 'u' :: hexDigits 4 c.toNat
  else '\\' :: 'U' :: hexDigits 8 c.toNat

/-- How `c` is written between two `mark`s. -/
def escape (mark c : Char) : List Char :=
  if c = '\\' || c = mark then ['\\', c]
  else if c = '\n' then ['\\', 'n']
  else if c = '\r' then ['\\', 'r']
  else if c = '\t' then ['\\', 't']
  else if isPrintable c then [c]
  else hexEscape c

/-- The quoted form of `cs`. -/
def encode (cs : List Char) : List Char :=
  mark cs :: cs.flatMap (escape (mark cs)) ++ [mark cs]

end Quoted

/-- The quoted form of a text. -/
def quoted (s : String) : String :=
  String.ofList (Quoted.encode s.toList)

end ScriptCheck.Text
