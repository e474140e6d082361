import ScriptCheck.Lexer.Lexeme
import ScriptCheck.Lexer.Stream

/-!
# From characters to tokens

`Stream.nextToken` reads one token, `Stream.tokens` all of them, the end of the input included. A
reading that fails leaves the stream behind the characters it has taken, so that one can go on from
there. `Stream.nextToken_shorter` is the reason why reading comes to an end: every token but the end
of the input takes at least one character.
-/

namespace ScriptCheck

namespace Lexer

/-- Why no token could be read. -/
inductive Fault where
  /-- The end of the text was reached inside the string that starts at the given place. -/
  | unterminatedString (line column : Int)
  /-- The number that starts at the given place has two points. -/
  | malformedNumber (line column : Int)
  /-- The characters of a number denote none. -/
  | numeral (fault : Numeral.Fault)
  /-- A character was asked for at the end of the text. -/
  | pastEnd (position line : Int)
  /-- A character was asked for too far in front of the text. -/
  | beforeText
  deriving DecidableEq, Repr

/-- The message of a fault. -/
def Fault.message : Fault → String
  | unterminatedString _ _ => "unterminated string"
  | malformedNumber _ _ => "invalid number literal"
  | numeral fault => fault.message
  | pastEnd position line =>
    "Attempted to read past end of source at position=<" ++ toString position ++ ">, line=<"
      ++ toString line ++ ">"
  | beforeText => "string index out of range"

end Lexer

namespace Stream

open ScriptCheck.Text ScriptCheck.Lexeme

/-- The fault that there is nothing to read. -/
def exhausted (s : Stream) : Lexer.Fault :=
  if s.atEnd then .pastEnd s.position s.line else .beforeText

/-- The next character and the place after it, or the fault that there is none. -/
def next (s : Stream) : Except Lexer.Fault Char × Stream :=
  match s.next? with
  | none => (.error s.exhausted, s)
  | some (c, s') => (.ok c, s')

/-- The place in front of the next end of a line. -/
def skipComment (s : Stream) : Stream :=
  s.skip (s.ahead.takeWhile isInLine).length

/-- The place after blanks and a comment. -/
def skipBlanks (s : Stream) : Stream :=
  s.skip (blankLength s.ahead)

/-- Read an operator, if one is next. -/
def readOperator (s : Stream) : Option Token × Stream :=
  match Operator.longest? s.ahead with
  | none => (none, s)
  | some op =>
    (some { kind := .operator op, text := op.symbol, line := s.line, column := s.column },
      s.skip op.symbol.length)

/-- Read a number that is taken to start at the given place. -/
def readNumber (line column : Int) (s : Stream) : Except Lexer.Fault Token × Stream :=
  let form := numberForm s.ahead
  let text := String.ofList form.taken
  let token := fun (value : Literal) =>
    ({ kind := .number, text, line, column, literal := some value } : Token)
  let outcome : Except Lexer.Fault Token :=
    match form with
    | .malformed _ => .error (.malformedNumber line column)
    | .integer _ => ((Numeral.readInteger text).mapError .numeral).map fun i => token (.int i)
    | .real _ => ((Numeral.readReal text).mapError .numeral).map fun x => token (.float x)
  (outcome, s.skip form.taken.length)

/-- Read a string that is taken to start at the given place. Its first character is its quote. -/
def readString (line column : Int) (s : Stream) : Except Lexer.Fault Token × Stream :=
  match s.next? with
  | none => (.error s.exhausted, s)
  | some (quote, inside) =>
    let body := stringBody quote inside.ahead
    match (inside.skip body.length).next? with
    | none => (.error (.unterminatedString line column), inside.skip body.length)
    | some (_, outside) =>
      (.ok { kind := .string, text := String.ofList body, line, column,
             literal := some (.text (String.ofList (unescape body))) }, outside)

/-- Read a word, which is a name unless it is reserved. -/
def readWord (s : Stream) : Token × Stream :=
  let cs := s.ahead.takeWhile isWordPart
  let text := String.ofList cs
  let kind := ((Keyword.ofWord? text).map Kind.keyword).getD .ident
  ({ kind, text, line := s.line, column := s.column }, s.skip cs.length)

/-- Read the single character `c` as a token of the given kind. -/
def readSingle (kind : Kind) (c : Char) (s : Stream) : Token × Stream :=
  ({ kind, text := c.toString, line := s.line, column := s.column }, s.skip 1)

/-- Read the token that starts with the character `c`, which is next and no blank. -/
def readToken (c : Char) (s : Stream) : Except Lexer.Fault Token × Stream :=
  if c = '\n' then
    let (token, s') := s.readSingle .eol c
    (.ok token, s')
  else if isWordStart c then
    let (token, s') := s.readWord
    (.ok token, s')
  else if isDigit c then s.readNumber s.line s.column
  else if c = doubleQuote || c = singleQuote then s.readString s.line s.column
  else
    match s.readOperator with
    | (some token, s') => (.ok token, s')
    | (none, _) =>
      let (token, s') := s.readSingle .error c
      (.ok token, s')

/-- The token that marks the end of the text. -/
def endToken (s : Stream) : Token where
  kind := .eof
  text := ""
  line := s.line
  column := s.column

/-- Read the next token. At the end of the text this is the end of the input, again and again. -/
def nextToken (s : Stream) : Except Lexer.Fault Token × Stream :=
  let s := s.skipBlanks
  match s.ahead with
  | [] => (.ok s.endToken, s)
  | c :: _ => s.readToken c

/-! ## Progress -/

theorem length_after_next? {s s' : Stream} {c : Char} (h : s.next? = some (c, s')) :
    s'.ahead.length + 1 = s.ahead.length := by
  unfold next? at h
  split at h
  · simp at h
  · next d rest hs =>
    obtain ⟨-, rfl⟩ : d = c ∧ s.after d rest = s' := by simpa using h
    simp [hs, after]

/-- An operator that is found has one or two characters. -/
theorem length_symbol_pos (op : Operator) : 0 < op.symbol.length := by
  cases op <;> decide

theorem length_takeWhile_pos {p : Char → Bool} {c : Char} {rest : List Char} (h : p c = true) :
    0 < ((c :: rest).takeWhile p).length := by
  simp [h]

theorem length_numberForm_pos {c : Char} {rest : List Char} (h : isDigit c = true) :
    0 < (numberForm (c :: rest)).taken.length := by
  have hpos : 0 < ((c :: rest).takeWhile isDigit).length := length_takeWhile_pos h
  unfold numberForm
  dsimp only
  split
  · split <;> simp only [NumberForm.taken, List.length_append] <;> omega
  · simpa [NumberForm.taken] using hpos

/-- A token that starts with a character takes at least that character. -/
theorem readToken_shorter {s : Stream} {c : Char} {rest : List Char} (h : s.ahead = c :: rest) :
    (s.readToken c).2.ahead.length < s.ahead.length := by
  have hlen : 0 < s.ahead.length := by simp [h]
  have hskip : ∀ n, 0 < n → (s.skip n).ahead.length < s.ahead.length := by
    intro n hn
    rw [length_ahead_skip]
    omega
  unfold readToken
  split
  · exact hskip 1 (by decide)
  · split
    · next hword =>
      refine hskip _ ?_
      rw [h]
      exact length_takeWhile_pos (isWordPart_of_isWordStart hword)
    · split
      · next hdigit =>
        refine hskip _ ?_
        rw [h]
        exact length_numberForm_pos hdigit
      · split
        · unfold readString
          split
          · next hnone => simp [next?, h] at hnone
          · next quote inside hsome =>
            have hinside := length_after_next? hsome
            dsimp only
            split
            · simp only [length_ahead_skip]
              omega
            · next d outside houtside =>
              have hout := length_after_next? houtside
              rw [length_ahead_skip] at hout
              simp only
              omega
        · unfold readOperator
          split
          · next token s' heq =>
            split at heq
            · simp at heq
            · next op _ =>
              obtain ⟨-, rfl⟩ := by simpa using heq
              exact hskip _ (length_symbol_pos op)
          · exact hskip 1 (by decide)

/-- Every token but the end of the input takes at least one character. -/
theorem nextToken_shorter {s s' : Stream} {t : Token} (h : s.nextToken = (.ok t, s'))
    (hkind : t.kind ≠ .eof) : s'.ahead.length < s.ahead.length := by
  have hblank : s.skipBlanks.ahead.length ≤ s.ahead.length := by
    rw [skipBlanks, length_ahead_skip]
    omega
  unfold nextToken at h
  dsimp only at h
  split at h
  · obtain ⟨rfl, -⟩ := by simpa using h
    exact absurd rfl hkind
  · next c rest hc =>
    have hshorter := readToken_shorter hc
    rw [h] at hshorter
    exact Nat.lt_of_lt_of_le hshorter hblank

/-! ## Whole texts -/

/-- Read tokens up to the end of the input, after those in `read`. -/
def tokensAfter (read : Array Token) (s : Stream) : Except Lexer.Fault (List Token) × Stream :=
  match _read : s.nextToken with
  | (.error fault, s') => (.error fault, s')
  | (.ok t, s') =>
    if t.kind = .eof then (.ok (read.push t).toList, s')
    else tokensAfter (read.push t) s'
termination_by s.ahead.length
decreasing_by exact nextToken_shorter _read (by assumption)

/-- Read tokens up to and including the end of the input. -/
def tokens (s : Stream) : Except Lexer.Fault (List Token) × Stream :=
  s.tokensAfter #[]

end Stream

/-- The tokens of a program text. -/
def tokenize (source : String) : Except Lexer.Fault (List Token) :=
  (Stream.ofText source).tokens.1

end ScriptCheck
