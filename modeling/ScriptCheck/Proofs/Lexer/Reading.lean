import ScriptCheck.Lexer
import ScriptCheck.Proofs.Lexer.Extent
import ScriptCheck.Proofs.Lexer.Place

/-!
# What a token is read from

`Lexes span rest t` says that the characters `span`, with `rest` behind them, are what the token `t`
is made of, its place aside. There is one way for each kind of token, and what it says of `rest` is
that the token does not go on. Behind a gap, a token is read from such characters
(`Stream.nextToken_cases`), and from all such characters (`Stream.nextToken_of_lexes`).
-/

namespace ScriptCheck

open ScriptCheck.Text ScriptCheck.Lexeme

/-- The kind of a word. -/
def Kind.ofWord (text : String) : Kind :=
  ((Keyword.ofWord? text).map Kind.keyword).getD .ident

/-- Whether a character starts none of an end of line, a gap, a word, a number and a string. -/
def isMark (c : Char) : Bool :=
  c != '\n' && !startsGap c && !isWordStart c && !isDigit c && c != doubleQuote && c != singleQuote

/-- The characters `span`, in front of `rest`, make the token `t`. -/
inductive Lexes : (span rest : List Char) → (t : Token) → Prop where
  | eol {rest : List Char} {line column : Int} :
      Lexes ['\n'] rest { kind := .eol, text := "\n", line, column }
  | word {c : Char} {cs rest : List Char} {line column : Int} :
      isWordStart c = true → (∀ d ∈ cs, isWordPart d = true) → NotNext isWordPart rest →
      Lexes (c :: cs) rest
        { kind := .ofWord (String.ofList (c :: cs)), text := String.ofList (c :: cs), line, column }
  | integer {c : Char} {cs rest : List Char} {line column value : Int} :
      isWordStart c = false → (∀ d ∈ c :: cs, isDigit d = true) → NotNext continuesNumber rest →
      Numeral.readInteger (String.ofList (c :: cs)) = .ok value →
      Lexes (c :: cs) rest
        { kind := .number, text := String.ofList (c :: cs), line, column,
          literal := some (.int value) }
  | real {c : Char} {cs fraction rest : List Char} {line column : Int} {value : Binary64} :
      isWordStart c = false → (∀ d ∈ c :: cs, isDigit d = true) →
      (∀ d ∈ fraction, isDigit d = true) → NotNext continuesNumber rest →
      Numeral.readReal (String.ofList (c :: (cs ++ '.' :: fraction))) = .ok value →
      Lexes (c :: (cs ++ '.' :: fraction)) rest
        { kind := .number, text := String.ofList (c :: (cs ++ '.' :: fraction)), line, column,
          literal := some (.float value) }
  | string {quote : Char} {body rest : List Char} {line column : Int} :
      quote = doubleQuote ∨ quote = singleQuote → IsBody quote body →
      Lexes (quote :: (body ++ [quote])) rest
        { kind := .string, text := String.ofList body, line, column,
          literal := some (.text (String.ofList (unescape body))) }
  | operator {op : Operator} {rest : List Char} {line column : Int} :
      (∀ op' : Operator, op'.Starts (op.symbol.toList ++ rest) →
        op'.symbol.length ≤ op.symbol.length) →
      Lexes op.symbol.toList rest { kind := .operator op, text := op.symbol, line, column }
  | error {c : Char} {rest : List Char} {line column : Int} :
      isMark c = true → (∀ op : Operator, ¬ op.Starts (c :: rest)) →
      Lexes [c] rest { kind := .error, text := c.toString, line, column }

/-- Whether a token has the line and the column of what comes behind `before`. -/
def Token.StandsBehind (t : Token) (before : List Char) : Prop :=
  t.line = lineAfter before ∧ t.column = columnAfter before

/-- The end of the input behind a whole text. -/
def Token.endBehind (text : List Char) : Token where
  kind := .eof
  text := ""
  line := lineAfter text
  column := columnAfter text

theorem Kind.ofWord_cases (text : String) :
    Kind.ofWord text = .ident ∨ ∃ w, Kind.ofWord text = .keyword w := by
  unfold Kind.ofWord
  cases Keyword.ofWord? text with
  | none => exact Or.inl rfl
  | some w => exact Or.inr ⟨w, rfl⟩

theorem Kind.ofWord_ne {k : Kind} (hident : k ≠ .ident) (hkeyword : ∀ w, k ≠ .keyword w)
    (text : String) : Kind.ofWord text ≠ k := by
  rcases Kind.ofWord_cases text with h | ⟨w, h⟩
  · rw [h]
    exact hident.symm
  · rw [h]
    exact (hkeyword w).symm

/-- No characters make an end of the input. -/
theorem Lexes.kind_ne_eof {span rest : List Char} {t : Token} (h : Lexes span rest t) :
    t.kind ≠ .eof := by
  cases h with
  | word _ _ _ => exact Kind.ofWord_ne (by simp) (by simp) _
  | _ => simp

/-- Those that make a number give it a value. -/
theorem Lexes.literal_ne_none {span rest : List Char} {t : Token} (h : Lexes span rest t)
    (hkind : t.kind = .number) : t.literal ≠ none := by
  cases h with
  | integer _ _ _ _ => simp
  | real _ _ _ _ _ => simp
  | word _ _ _ => exact absurd hkind (Kind.ofWord_ne (by simp) (by simp) _)
  | _ => simp at hkind

/-! ## What starts a token -/

theorem isMark_iff {c : Char} :
    isMark c = true ↔ c ≠ '\n' ∧ startsGap c = false ∧ isWordStart c = false ∧ isDigit c = false ∧
      c ≠ doubleQuote ∧ c ≠ singleQuote := by
  simp [isMark, and_assoc]

theorem startsGap_iff {c : Char} :
    startsGap c = true ↔ c = ' ' ∨ c = '\t' ∨ c = '\r' ∨ c = '#' := by
  simp [startsGap, isBlank, or_assoc]

/-- What starts a word starts neither a gap nor an end of line. -/
theorem startsGap_of_isWordStart {c : Char} (h : isWordStart c = true) :
    startsGap c = false ∧ c ≠ '\n' := by
  constructor
  · rw [← Bool.not_eq_true, startsGap_iff]
    rintro (rfl | rfl | rfl | rfl) <;> exact absurd h (by decide)
  · rintro rfl
    exact absurd h (by decide)

/-- Nor does a digit. -/
theorem startsGap_of_isDigit {c : Char} (h : isDigit c = true) :
    startsGap c = false ∧ c ≠ '\n' := by
  constructor
  · rw [← Bool.not_eq_true, startsGap_iff]
    rintro (rfl | rfl | rfl | rfl) <;> exact absurd h (by decide)
  · rintro rfl
    exact absurd h (by decide)

theorem Operator.exists_mark (op : Operator) :
    ∃ c cs, op.symbol.toList = c :: cs ∧ isMark c = true := by
  cases op <;> exact ⟨_, _, rfl, by decide⟩

namespace Stream

variable {s s' : Stream} {c : Char} {r span rest : List Char} {t : Token} {line column : Int}

/-! ## One branch after another -/

theorem readToken_of_isWordStart (h : isWordStart c = true) :
    s.readToken c = (.ok s.readWord.1, s.readWord.2) := by
  unfold readToken
  rw [if_neg (startsGap_of_isWordStart h).2, if_pos h]

theorem readToken_of_isDigit (hword : isWordStart c = false) (h : isDigit c = true) :
    s.readToken c = s.readNumber s.line s.column := by
  unfold readToken
  rw [if_neg (startsGap_of_isDigit h).2, if_neg (by simp [hword]), if_pos h]

theorem readToken_of_quote (h : c = doubleQuote ∨ c = singleQuote) :
    s.readToken c = s.readString s.line s.column := by
  have hfront : c ≠ '\n' ∧ isWordStart c = false ∧ isDigit c = false := by
    rcases h with rfl | rfl <;> decide
  unfold readToken
  rw [if_neg hfront.1, if_neg (by simp [hfront.2.1]), if_neg (by simp [hfront.2.2]),
    if_pos (by simpa using h)]

theorem readToken_of_isMark (h : isMark c = true) :
    s.readToken c =
      match Operator.longest? s.ahead with
      | some op =>
        (.ok { kind := .operator op, text := op.symbol, line := s.line, column := s.column },
          s.skip op.symbol.length)
      | none =>
        (.ok { kind := .error, text := c.toString, line := s.line, column := s.column },
          s.skip 1) := by
  rcases isMark_iff.mp h with ⟨hline, -, hword, hdigit, hdouble, hsingle⟩
  unfold readToken readOperator
  rw [if_neg hline, if_neg (by simp [hword]), if_neg (by simp [hdigit]),
    if_neg (by simp [hdouble, hsingle])]
  cases Operator.longest? s.ahead <;> rfl

/-! ## Words, numbers and strings -/

theorem readWord_lexes (hs : s.ahead = c :: r) (h : isWordStart c = true) :
    ∃ span rest, s.ahead = span ++ rest ∧ Lexes span rest s.readWord.1 ∧
      s.readWord.2 = s.skip span.length := by
  have hpart := isWordPart_of_isWordStart h
  refine ⟨s.ahead.takeWhile isWordPart, s.ahead.dropWhile isWordPart,
    List.takeWhile_append_dropWhile.symm, ?_, rfl⟩
  have hstop := NotNext.dropWhile isWordPart s.ahead
  unfold readWord
  rw [hs, List.takeWhile_cons_of_pos hpart] at *
  exact .word h (fun d hd => mem_takeWhile_imp hd) hstop

theorem readWord_of_lexes {cs : List Char} (hs : s.ahead = c :: cs ++ rest)
    (h : isWordStart c = true) (hcs : ∀ d ∈ cs, isWordPart d = true)
    (hrest : NotNext isWordPart rest) :
    s.readWord =
      ({ kind := .ofWord (String.ofList (c :: cs)), text := String.ofList (c :: cs),
         line := s.line, column := s.column }, s.skip (c :: cs).length) := by
  have hall : ∀ d ∈ c :: cs, isWordPart d = true := by
    intro d hd
    rcases List.mem_cons.mp hd with rfl | hd
    · exact isWordPart_of_isWordStart h
    · exact hcs d hd
  unfold readWord
  rw [hs, hrest.takeWhile_append hall]
  rfl

theorem readNumber_integer {w : List Char} (hform : numberForm s.ahead = .integer w) :
    s.readNumber line column =
      (((Numeral.readInteger (String.ofList w)).mapError .numeral).map fun value =>
        { kind := .number, text := String.ofList w, line, column, literal := some (.int value) },
        s.skip w.length) := by
  unfold readNumber
  rw [hform]
  rfl

theorem readNumber_real {w : List Char} (hform : numberForm s.ahead = .real w) :
    s.readNumber line column =
      (((Numeral.readReal (String.ofList w)).mapError .numeral).map fun value =>
        { kind := .number, text := String.ofList w, line, column, literal := some (.float value) },
        s.skip w.length) := by
  unfold readNumber
  rw [hform]
  rfl

theorem readNumber_malformed {w : List Char} (hform : numberForm s.ahead = .malformed w) :
    s.readNumber line column = (.error (.malformedNumber line column), s.skip w.length) := by
  unfold readNumber
  rw [hform]
  rfl

/-- A digit at the front is one of those in front of what is no digit. -/
theorem exists_cons_of_isDigit {w : List Char} (hsplit : c :: r = w ++ rest)
    (hdigit : isDigit c = true) (hrest : NotNext isDigit rest) : ∃ cs, w = c :: cs := by
  cases w with
  | nil =>
    rw [List.nil_append] at hsplit
    rw [← hsplit, NotNext.cons_iff, hdigit] at hrest
    cases hrest
  | cons d cs =>
    obtain rfl := (List.cons.inj hsplit).1
    exact ⟨cs, rfl⟩

/-- A number is read from digits, with at most one point among them. -/
theorem readNumber_lexes (hs : s.ahead = c :: r) (hword : isWordStart c = false)
    (hdigit : isDigit c = true) (h : s.readNumber line column = (.ok t, s')) :
    ∃ span rest, s.ahead = span ++ rest ∧ Lexes span rest t ∧ s' = s.skip span.length ∧
      t.line = line ∧ t.column = column := by
  cases hform : numberForm s.ahead with
  | malformed w =>
    rw [readNumber_malformed hform] at h
    cases h
  | integer w =>
    rcases numberForm_eq_integer_iff.mp hform with ⟨rest, hsplit, hw, hrest⟩
    rw [readNumber_integer hform] at h
    cases hvalue : Numeral.readInteger (String.ofList w) with
    | error fault =>
      rw [hvalue] at h
      cases h
    | ok value =>
      rw [hvalue] at h
      cases h
      rcases exists_cons_of_isDigit (hs.symm.trans hsplit) hdigit hrest.digit with ⟨cs, rfl⟩
      exact ⟨_, rest, hsplit, .integer hword hw hrest hvalue, rfl, rfl, rfl⟩
  | real w =>
    rcases numberForm_eq_real_iff.mp hform
      with ⟨whole, fraction, rest, rfl, hsplit, hwhole, hfraction, hrest⟩
    rw [readNumber_real hform] at h
    cases hvalue : Numeral.readReal (String.ofList (whole ++ '.' :: fraction)) with
    | error fault =>
      rw [hvalue] at h
      cases h
    | ok value =>
      rw [hvalue] at h
      cases h
      -- The digits in front of the point are not none.
      have hpoint : NotNext isDigit ('.' :: fraction ++ rest) := NotNext.cons_iff.mpr isDigit_point
      have hfront := hs.symm.trans hsplit
      rw [List.append_assoc] at hfront
      rcases exists_cons_of_isDigit hfront hdigit hpoint with ⟨cs, rfl⟩
      exact ⟨_, rest, hsplit, .real hword hwhole hfraction hrest hvalue, rfl, rfl, rfl⟩

/-- A string is read from what stands between two quotes. -/
theorem readString_lexes (hs : s.ahead = c :: r) (hquote : c = doubleQuote ∨ c = singleQuote)
    (h : s.readString line column = (.ok t, s')) :
    ∃ span rest, s.ahead = span ++ rest ∧ Lexes span rest t ∧ s' = s.skip span.length ∧
      t.line = line ∧ t.column = column := by
  have hinside : (s.skip 1).ahead = r := by rw [ahead_skip, hs]; rfl
  unfold readString at h
  rw [next?_of_ahead hs] at h
  dsimp only at h
  rw [hinside] at h
  cases hclose : r.drop (stringBody c r).length with
  | nil =>
    rw [next?_of_ahead_nil (by rw [ahead_skip, hinside, hclose])] at h
    simp at h
  | cons d rest =>
    rcases exists_of_stringBody hclose with ⟨hbody, rfl, hr⟩
    rw [next?_of_ahead (by rw [ahead_skip, hinside, hclose])] at h
    simp only [Prod.mk.injEq, Except.ok.injEq] at h
    rcases h with ⟨rfl, rfl⟩
    refine ⟨d :: (stringBody d r ++ [d]), rest, ?_, .string hquote hbody, ?_, rfl, rfl⟩
    · rw [hs, List.cons_append, List.append_assoc]
      conv => lhs; rw [hr]
      rfl
    · rw [← skip_add, ← skip_add]
      congr 1
      simp only [List.length_cons, List.length_append, List.length_nil]
      omega

/-! ## The next token -/

/-- A token that is read is read from characters at the front. -/
theorem readToken_lexes (hs : s.ahead = c :: r) (hgap : startsGap c = false)
    (h : s.readToken c = (.ok t, s')) :
    ∃ span rest, s.ahead = span ++ rest ∧ Lexes span rest t ∧ s' = s.skip span.length ∧
      t.line = s.line ∧ t.column = s.column := by
  by_cases hline : c = '\n'
  · subst hline
    unfold readToken at h
    rw [if_pos rfl] at h
    cases h
    exact ⟨['\n'], r, hs, .eol, rfl, rfl, rfl⟩
  · by_cases hword : isWordStart c = true
    · rw [readToken_of_isWordStart hword] at h
      rcases readWord_lexes hs hword with ⟨span, rest, hsplit, hlexes, hskip⟩
      cases h
      exact ⟨span, rest, hsplit, hlexes, hskip, rfl, rfl⟩
    · have hword := Bool.eq_false_iff.mpr hword
      by_cases hdigit : isDigit c = true
      · rw [readToken_of_isDigit hword hdigit] at h
        exact readNumber_lexes hs hword hdigit h
      · by_cases hquote : c = doubleQuote ∨ c = singleQuote
        · rw [readToken_of_quote hquote] at h
          exact readString_lexes hs hquote h
        · have hmark : isMark c = true := by
            rw [not_or] at hquote
            exact isMark_iff.mpr
              ⟨hline, hgap, hword, Bool.eq_false_iff.mpr hdigit, hquote.1, hquote.2⟩
          rw [readToken_of_isMark hmark] at h
          cases hfound : Operator.longest? s.ahead with
          | some op =>
            rw [hfound] at h
            cases h
            rcases Operator.starts_of_longest? hfound with ⟨⟨rest, hrest⟩, hlongest⟩
            rw [← hrest] at hlongest
            refine ⟨op.symbol.toList, rest, hrest.symm, .operator hlongest, ?_, rfl, rfl⟩
            rw [String.length_toList]
          | none =>
            rw [hfound] at h
            cases h
            have hno := Operator.not_starts_of_longest? hfound
            rw [hs] at hno
            exact ⟨[c], r, hs, .error hmark hno, rfl, rfl, rfl⟩

/-- Characters that make a token are read as it, from the place where it stands. -/
theorem readToken_of_lexes (h : Lexes span rest t) (hs : s.ahead = span ++ rest)
    (hline : t.line = s.line) (hcolumn : t.column = s.column) :
    ∃ c r, s.ahead = c :: r ∧ startsGap c = false ∧
      s.readToken c = (.ok t, s.skip span.length) := by
  cases h with
  | eol =>
    obtain rfl := hline
    obtain rfl := hcolumn
    refine ⟨'\n', rest, hs, by decide, ?_⟩
    unfold readToken
    rw [if_pos rfl]
    rfl
  | @word c cs _ _ _ hc hcs hrest =>
    obtain rfl := hline
    obtain rfl := hcolumn
    refine ⟨c, cs ++ rest, hs, (startsGap_of_isWordStart hc).1, ?_⟩
    rw [readToken_of_isWordStart hc, readWord_of_lexes hs hc hcs hrest]
  | @integer c cs _ _ _ value hword hdigits hrest hvalue =>
    obtain rfl := hline
    obtain rfl := hcolumn
    have hdigit := hdigits c (by simp)
    refine ⟨c, cs ++ rest, hs, (startsGap_of_isDigit hdigit).1, ?_⟩
    have hform := numberForm_eq_integer_iff.mpr ⟨rest, hs, hdigits, hrest⟩
    rw [readToken_of_isDigit hword hdigit, readNumber_integer hform, hvalue]
    rfl
  | @real c cs fraction _ _ _ value hword hwhole hfraction hrest hvalue =>
    obtain rfl := hline
    obtain rfl := hcolumn
    have hdigit := hwhole c (by simp)
    refine ⟨c, cs ++ '.' :: fraction ++ rest, hs, (startsGap_of_isDigit hdigit).1, ?_⟩
    have hform := numberForm_eq_real_iff.mpr
      ⟨c :: cs, fraction, rest, rfl, hs, hwhole, hfraction, hrest⟩
    have htext : c :: cs ++ '.' :: fraction = c :: (cs ++ '.' :: fraction) := rfl
    rw [readToken_of_isDigit hword hdigit, readNumber_real hform, htext, hvalue]
    rfl
  | @string quote body _ _ _ hquote hbody =>
    obtain rfl := hline
    obtain rfl := hcolumn
    have hfront : quote ≠ '\\' ∧ startsGap quote = false := by
      rcases hquote with rfl | rfl <;> decide
    have hahead : s.ahead = quote :: (body ++ quote :: rest) := by
      rw [hs, List.cons_append, List.append_assoc]
      rfl
    have hinside : (s.skip 1).ahead = body ++ quote :: rest := by rw [ahead_skip, hahead]; rfl
    refine ⟨quote, _, hahead, hfront.2, ?_⟩
    rw [readToken_of_quote hquote, readString, next?_of_ahead hahead]
    dsimp only
    rw [hinside, hbody.stringBody_eq hfront.1,
      next?_of_ahead (by rw [ahead_skip, hinside, List.drop_left])]
    simp only [← skip_add, List.length_cons, List.length_append, List.length_nil]
    congr 2
    omega
  | @operator op _ _ _ hlongest =>
    obtain rfl := hline
    obtain rfl := hcolumn
    rcases op.exists_mark with ⟨c, cs, hsymbol, hmark⟩
    have hfound : Operator.longest? s.ahead = some op := by
      rw [hs]
      exact Operator.longest?_eq_some_iff.mpr ⟨List.prefix_append _ _, hlongest⟩
    refine ⟨c, cs ++ rest, by rw [hs, hsymbol]; rfl, (isMark_iff.mp hmark).2.1, ?_⟩
    rw [readToken_of_isMark hmark, hfound, String.length_toList]
  | @error c _ _ _ hmark hno =>
    obtain rfl := hline
    obtain rfl := hcolumn
    have hfound : Operator.longest? s.ahead = none := by
      rw [hs]
      exact Operator.longest?_eq_none_iff.mpr hno
    refine ⟨c, rest, hs, (isMark_iff.mp hmark).2.1, ?_⟩
    rw [readToken_of_isMark hmark, hfound]
    rfl

variable {before gap : List Char}

/-- What is read next is the end of the input behind a last gap, or a token behind a gap. -/
theorem nextToken_cases (hs : s.Behind before) (h : s.nextToken = (.ok t, s')) :
    (Gap s.ahead [] ∧ t = .endBehind (before ++ s.ahead)) ∨
      ∃ gap span rest, s.ahead = gap ++ (span ++ rest) ∧ Gap gap (span ++ rest) ∧
        Lexes span rest t ∧ t.StandsBehind (before ++ gap) ∧ s'.ahead = rest ∧
        s'.Behind (before ++ gap ++ span) := by
  rcases exists_gap s.ahead with ⟨gap, behindGap, hsplit, hlength, hgap, hstop⟩
  have hahead := ahead_skip_of_append hsplit
  have hbehind := hs.skip hsplit
  unfold nextToken skipBlanks at h
  rw [← hlength] at h
  dsimp only at h
  split at h
  · next hnil =>
    rw [hahead] at hnil
    subst hnil
    rw [List.append_nil] at hsplit
    cases h
    left
    rw [hsplit]
    refine ⟨hgap, ?_⟩
    simp only [endToken, Token.endBehind, hbehind.line_eq, hbehind.column_eq]
  · next c r hc =>
    rw [hahead] at hc
    subst hc
    rcases readToken_lexes hahead (NotNext.cons_iff.mp hstop) h
      with ⟨span, rest, hspan, hlexes, rfl, hline, hcolumn⟩
    right
    refine ⟨gap, span, rest, ?_, ?_, hlexes, ?_, ?_, ?_⟩
    · rw [hsplit, ← hahead, hspan]
    · rwa [← hspan, hahead]
    · exact ⟨hline.trans hbehind.line_eq, hcolumn.trans hbehind.column_eq⟩
    · exact ahead_skip_of_append hspan
    · exact hbehind.skip hspan

/-- Where only a gap is left, the end of the input is read. -/
theorem nextToken_of_end (hs : s.Behind before) (hgap : Gap s.ahead []) :
    s.nextToken = (.ok (.endBehind (before ++ s.ahead)), s.skip s.ahead.length) := by
  have hlength := hgap.blankLength_append (.nil _)
  rw [List.append_nil] at hlength
  have hsplit : s.ahead = s.ahead ++ [] := by rw [List.append_nil]
  have hahead := ahead_skip_of_append hsplit
  have hbehind := hs.skip hsplit
  unfold nextToken skipBlanks
  rw [hlength]
  dsimp only
  rw [hahead]
  simp only [endToken, Token.endBehind, hbehind.line_eq, hbehind.column_eq]

/-- Characters that make a token are read as it behind any gap. -/
theorem nextToken_of_lexes (hs : s.Behind before) (hsplit : s.ahead = gap ++ (span ++ rest))
    (hgap : Gap gap (span ++ rest)) (h : Lexes span rest t) (ht : t.StandsBehind (before ++ gap)) :
    ∃ s', s.nextToken = (.ok t, s') ∧ s'.ahead = rest ∧ s'.Behind (before ++ gap ++ span) := by
  have hahead := ahead_skip_of_append hsplit
  have hbehind := hs.skip hsplit
  rcases readToken_of_lexes h hahead (ht.1.trans hbehind.line_eq.symm)
    (ht.2.trans hbehind.column_eq.symm) with ⟨c, r, hc, hstart, hread⟩
  have hstop : NotNext startsGap (span ++ rest) := by
    rw [← hahead, hc, NotNext.cons_iff]
    exact hstart
  have hlength := hgap.blankLength_append hstop
  rw [← hsplit] at hlength
  refine ⟨(s.skip gap.length).skip span.length, ?_, ?_, ?_⟩
  · unfold nextToken skipBlanks
    rw [hlength]
    dsimp only
    rw [hc]
    exact hread
  · exact ahead_skip_of_append hahead
  · exact hbehind.skip hahead

end Stream

end ScriptCheck
