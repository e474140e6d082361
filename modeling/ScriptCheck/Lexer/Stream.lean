/-!
# Streams of characters

A stream is a program text with a place in it. Peeking looks at the text wherever it likes, reading
takes the characters ahead one by one, and the line and the column are those of the next of them.
Every movement is a number of single steps (`Stream.skip`), and what a movement does to the
characters is said by `Stream.ahead_skip`.
-/

namespace ScriptCheck

/-- A place in a text. -/
structure Stream where
  text : List Char
  /-- The characters that are still to be read. -/
  ahead : List Char
  /-- The number of characters in front of the place. -/
  position : Int
  line : Int
  column : Int
  deriving DecidableEq, Repr

namespace Stream

/-- The characters that are read from a place on. In front of its beginning a text stands once more,
so a place before the beginning is as far from the end; there is nothing to read farther out. -/
def readFrom (text : List Char) : (position : Int) → List Char
  | .ofNat n => text.drop n
  | .negSucc n => if n < text.length then text.drop (text.length - (n + 1)) ++ text else []

/-- The stream of a text that starts at the given place, line and column. -/
def startingAt (text : String) (position line column : Int) : Stream where
  text := text.toList
  ahead := readFrom text.toList position
  position := position
  line := line
  column := column

/-- The stream of a whole text. -/
def ofText (text : String) : Stream :=
  startingAt text 0 1 1

/-- Whether the place is the end of the text or beyond it. -/
def atEnd (s : Stream) : Bool :=
  0 ≤ s.position && s.ahead.isEmpty

/-- The character of the text `offset` places from the next one; negative offsets look back. -/
def peek (s : Stream) (offset : Int) : Option Char :=
  match s.position + offset with
  | .ofNat n => s.text[n]?
  | .negSucc _ => none

/-- The place after the character `c`, of which `rest` follows. -/
def after (s : Stream) (c : Char) (rest : List Char) : Stream where
  text := s.text
  ahead := rest
  position := s.position + 1
  line := if c = '\n' then s.line + 1 else s.line
  column := if c = '\n' then 1 else s.column + 1

/-- The next character and the place after it. -/
def next? (s : Stream) : Option (Char × Stream) :=
  match s.ahead with
  | [] => none
  | c :: rest => some (c, s.after c rest)

/-- The place `n` characters on, or the last one if there are fewer. -/
def skip : (n : Nat) → (s : Stream) → Stream
  | 0, s => s
  | n + 1, s =>
    match s.ahead with
    | [] => s
    | c :: rest => skip n (s.after c rest)

/-- A movement drops the characters it passes. -/
theorem ahead_skip (n : Nat) (s : Stream) : (s.skip n).ahead = s.ahead.drop n := by
  induction n generalizing s with
  | zero => rfl
  | succ n ih =>
    unfold skip
    split
    · next h => simp [h]
    · next c rest h => rw [ih, h]; rfl

/-- A movement never leaves more ahead than there was. -/
theorem length_ahead_skip (n : Nat) (s : Stream) :
    (s.skip n).ahead.length = s.ahead.length - n := by
  rw [ahead_skip, List.length_drop]

end Stream

end ScriptCheck
