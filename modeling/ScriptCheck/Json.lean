import ScriptCheck.Literal

/-!
# JSON documents

Values of the JSON format and their text: two blanks to the level, a field or an item to the line,
and no character outside printable ASCII, which `Json.chars` achieves by writing every other
character of a text as one or two escapes of four hexadecimal digits.
-/

namespace ScriptCheck

/-- A JSON value. Integers and floating-point numbers are kept apart, and the fields of an object
have an order. -/
inductive Json where
  | null
  | bool (value : Bool)
  | int (value : Int)
  | float (value : Binary64)
  | text (value : String)
  | list (items : List Json)
  | object (fields : List (String × Json))
  deriving Repr

namespace Json

open ScriptCheck.Text

/-! ## Texts -/

/-- The escape of a number below `2^16`. -/
def unitEscape (n : Nat) : List Char :=
  '\\' :: 'u' :: hexDigits 4 n

/-- How a character is written inside a text. One above U+FFFF takes two escapes, the first of its
upper ten bits and the second of its lower ten. -/
def escape (c : Char) : List Char :=
  if c = '\\' || c = doubleQuote then ['\\', c]
  else if c = '\n' then ['\\', 'n']
  else if c = '\r' then ['\\', 'r']
  else if c = '\t' then ['\\', 't']
  else if c = '\x0c' then ['\\', 'f']
  else if c = '\x08' then ['\\', 'b']
  else if 0x20 ≤ c.toNat && c.toNat ≤ 0x7e then [c]
  else if c.toNat < 0x10000 then unitEscape c.toNat
  else
    let offset := c.toNat - 0x10000
    unitEscape (0xd800 + offset / 0x400) ++ unitEscape (0xdc00 + offset % 0x400)

/-- A text between its quotes, and then `rest`. -/
def textChars (s : String) (rest : List Char) : List Char :=
  doubleQuote :: s.toList.foldr (fun c after => escape c ++ after) (doubleQuote :: rest)

/-! ## Values -/

/-- Numbers are written as they are elsewhere, except that infinity has its full name. -/
def floatLayout : Decimal.Layout :=
  { Literal.floatLayout with infinityName := "Infinity", nanName := "NaN" }

/-- The start of a line at the given level, and then `rest`. -/
def newline (level : Nat) (rest : List Char) : List Char :=
  '\n' :: (List.replicate (2 * level) ' ' ++ rest)

mutual

/-- The text of a value whose first line is at the given level, and then `rest`. Each part is
written in front of what follows it, so that no part is copied again as the text grows. -/
def chars (level : Nat) (rest : List Char) : Json → List Char
  | null => "null".toList ++ rest
  | bool true => "true".toList ++ rest
  | bool false => "false".toList ++ rest
  | int i => (toString i).toList ++ rest
  | float x => (floatLayout.text x).toList ++ rest
  | text s => textChars s rest
  | list [] => '[' :: ']' :: rest
  | list (item :: items) =>
    '[' :: newline (level + 1)
      (item.chars (level + 1) (itemsChars (level + 1) (newline level (']' :: rest)) items))
  | object [] => '\x7b' :: '\x7d' :: rest
  | object ((key, value) :: fields) =>
    '\x7b' :: newline (level + 1) (textChars key (':' :: ' ' ::
      value.chars (level + 1) (fieldsChars (level + 1) (newline level ('\x7d' :: rest)) fields)))

/-- The items after the first of a list, and then `rest`. -/
def itemsChars (level : Nat) (rest : List Char) : List Json → List Char
  | [] => rest
  | item :: items => ',' :: newline level (item.chars level (itemsChars level rest items))

/-- The fields after the first of an object, and then `rest`. -/
def fieldsChars (level : Nat) (rest : List Char) : List (String × Json) → List Char
  | [] => rest
  | (key, value) :: fields =>
    ',' :: newline level (textChars key (':' :: ' ' ::
      value.chars level (fieldsChars level rest fields)))

end

/-- The text of a document. -/
def render (document : Json) : String :=
  String.ofList (document.chars 0 [])

end Json

end ScriptCheck
