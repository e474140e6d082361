import ScriptCheck.Text.Letters
import ScriptCheck.Text.Numerals
import ScriptCheck.Text.Unprintable

/-!
# Classes of characters

What a program text may hold is decided character by character: a word starts with a letter or an
underscore and goes on with letters, numeric characters and underscores; a number starts with a
digit of any script. All classes follow Unicode 14.0; below U+0080 they are the familiar ASCII
classes.
-/

namespace ScriptCheck.Text

/-- Whether `c` is a letter. -/
def isLetter (c : Char) : Bool :=
  if c.toNat < 0x80 then c.isAlpha else lettersBeyondAscii.contains c

/-- The value of a decimal digit of any script, and nothing for another character. -/
def decimalValue? (c : Char) : Option Nat :=
  (decimalZeros.find? fun first => first ≤ c.toNat && c.toNat < first + 10).map (c.toNat - ·)

/-- Whether `c` is a decimal digit of some script. -/
def isDecimal (c : Char) : Bool :=
  (decimalValue? c).isSome

/-- Whether `c` shows a digit, be it usable in positional notation or not. -/
def isDigit (c : Char) : Bool :=
  isDecimal c || nonDecimalDigits.contains c

/-- Whether a word may start with `c`. -/
def isWordStart (c : Char) : Bool :=
  isLetter c || c == '_'

/-- Whether a word may go on with `c`. -/
def isWordPart (c : Char) : Bool :=
  isLetter c || isDigit c || otherNumerics.contains c || c == '_'

/-- Whether `c` is shown as itself when a text is quoted: every printable character, of the
separators only the plain space. -/
def isPrintable (c : Char) : Bool :=
  if c.toNat < 0x80 then 0x20 ≤ c.toNat && c.toNat < 0x7f else !unprintableBeyondAscii.contains c

/-- The blanks outside ASCII that may surround a numeral. -/
def blanksBeyondAscii : Ranges :=
  [(0x85, 0x85), (0xa0, 0xa0), (0x1680, 0x1680), (0x2000, 0x200a), (0x2028, 0x2029),
   (0x202f, 0x202f), (0x205f, 0x205f), (0x3000, 0x3000)]

/-- Whether `c` may surround a numeral. In ASCII these are the space and the controls from the tab
to the carriage return. -/
def isNumeralBlank (c : Char) : Bool :=
  c == ' ' || (0x09 ≤ c.toNat && c.toNat ≤ 0x0d) || blanksBeyondAscii.contains c

/-- A word goes on with whatever may start one. -/
theorem isWordPart_of_isWordStart {c : Char} (h : isWordStart c = true) : isWordPart c = true := by
  simp only [isWordStart, Bool.or_eq_true] at h
  rcases h with h | h <;> simp [isWordPart, h]

end ScriptCheck.Text
