import ScriptCheck.Token

/-!
# The forms of tokens

Which characters a token takes depends on the characters from its start on and on nothing else. The
functions here say how far blanks, numbers and strings reach and what they denote.
-/

namespace ScriptCheck.Lexeme

open ScriptCheck.Text

/-! ## Blanks -/

/-- The characters that separate tokens without being one. -/
def isBlank (c : Char) : Bool :=
  c == ' ' || c == '\t' || c == '\r'

/-- Whether `c` belongs to the line it is on. -/
def isInLine (c : Char) : Bool :=
  c != '\n'

/-- How many characters to skip in front of a token: blanks, and a comment up to the end of its
line. -/
def blankLength (cs : List Char) : Nat :=
  let blanks := (cs.takeWhile isBlank).length
  match cs.dropWhile isBlank with
  | '#' :: rest => blanks + 1 + (rest.takeWhile isInLine).length
  | _ => blanks

/-! ## Numbers -/

/-- What stands at the start of a text where a number is expected: an integer without a point, a
real number with one, or a real number that a second point follows. Each keeps its characters. -/
inductive NumberForm where
  | integer (taken : List Char)
  | real (taken : List Char)
  | malformed (taken : List Char)
  deriving DecidableEq, Repr

/-- The characters of the form. A second point is not among them. -/
def NumberForm.taken : NumberForm → List Char
  | integer cs | real cs | malformed cs => cs

/-- The longest run of digits with at most one point among them. -/
def numberForm (cs : List Char) : NumberForm :=
  let whole := cs.takeWhile isDigit
  match cs.dropWhile isDigit with
  | '.' :: rest =>
    let taken := whole ++ '.' :: rest.takeWhile isDigit
    match rest.dropWhile isDigit with
    | '.' :: _ => .malformed taken
    | _ => .real taken
  | _ => .integer whole

/-! ## Strings -/

/-- The inside of a string after its opening quote: a backslash takes the next character with it,
so that an escaped quote does not end the string. -/
def stringBody (quote : Char) : List Char → List Char
  | [] => []
  | '\\' :: [] => ['\\']
  | '\\' :: c :: rest => '\\' :: c :: stringBody quote rest
  | c :: rest => if c = quote then [] else c :: stringBody quote rest

/-- The character that an escape stands for. -/
def escapeValue? (c : Char) : Option Char :=
  if c = 'n' then some '\n'
  else if c = 't' then some '\t'
  else if c = 'r' then some '\r'
  else if c = '\\' || c = doubleQuote || c = singleQuote then some c
  else none

/-- What the inside of a string denotes. An escape without a meaning stands for itself, backslash
and all. -/
def unescape : List Char → List Char
  | [] => []
  | '\\' :: [] => []
  | '\\' :: c :: rest =>
    match escapeValue? c with
    | some d => d :: unescape rest
    | none => '\\' :: c :: unescape rest
  | c :: rest => c :: unescape rest

end ScriptCheck.Lexeme
