import ScriptCheck.Check
import ScriptCheck.Proofs.Lexer.Lowering

/-!
# Malformed lexemes

A string that is not closed and a number with two points are reported at the place where they start.
`IsMalformed` says what such a lexeme is by the text from its start on alone, and `Stream.Reads` how
one comes to it: token by token. The text in front of a report is divided into tokens, those that
have been read, and whoever comes to a malformed lexeme has the report next
(`tokenize_malformed`).
-/

namespace ScriptCheck

open ScriptCheck.Text ScriptCheck.Lexeme

/-- A text starts with a lexeme that is malformed, and this is the message about it: a quote of
which none occurs by itself behind it, or a digit from which on digits and points go on over two
points at least. -/
inductive IsMalformed : (ahead : List Char) → (message : String) → Prop where
  | openQuote {quote : Char} {inside : List Char} :
      quote = doubleQuote ∨ quote = singleQuote → quote ∉ unescaped inside →
      IsMalformed (quote :: inside) "unterminated string"
  | points {c : Char} {rest : List Char} :
      isDigit c = true → 2 ≤ ((c :: rest).takeWhile continuesNumber).count '.' →
      IsMalformed (c :: rest) "invalid number literal"

/-! ## Points -/

theorem count_point_of_isDigit {w : List Char} (h : ∀ c ∈ w, isDigit c = true) :
    w.count '.' = 0 := by
  rw [List.count_eq_zero]
  intro hmem
  exact absurd (h _ hmem) (by decide)

theorem continuesNumber_of_isDigit {c : Char} (h : isDigit c = true) :
    continuesNumber c = true := by
  simp [continuesNumber, h]

theorem continuesNumber_point : continuesNumber '.' = true := by
  decide

/-- Digits and points go on over a point. -/
theorem takeWhile_continuesNumber_point {whole : List Char} (h : ∀ c ∈ whole, isDigit c = true)
    (rest : List Char) :
    (whole ++ '.' :: rest).takeWhile continuesNumber =
      whole ++ '.' :: rest.takeWhile continuesNumber := by
  rw [List.takeWhile_append_of_pos fun c hc => continuesNumber_of_isDigit (h c hc),
    List.takeWhile_cons_of_pos continuesNumber_point]

/-- The digits and points that go on from a place make an integer without a point and a real number
with one. With more, what is in front of the second one is malformed. -/
theorem numberForm_cases (cs : List Char) :
    (∃ w, numberForm cs = .integer w ∧ cs.takeWhile continuesNumber = w ∧
      ∀ c ∈ w, isDigit c = true) ∨
    (∃ whole fraction, numberForm cs = .real (whole ++ '.' :: fraction) ∧
      cs.takeWhile continuesNumber = whole ++ '.' :: fraction ∧
      (∀ c ∈ whole, isDigit c = true) ∧ ∀ c ∈ fraction, isDigit c = true) ∨
    ∃ whole fraction behind, numberForm cs = .malformed (whole ++ '.' :: fraction) ∧
      cs.takeWhile continuesNumber = whole ++ '.' :: fraction ++ '.' :: behind ∧
      (∀ c ∈ whole, isDigit c = true) ∧ ∀ c ∈ fraction, isDigit c = true := by
  cases hform : numberForm cs with
  | integer w =>
    rcases numberForm_eq_integer_iff.mp hform with ⟨rest, rfl, hw, hrest⟩
    refine Or.inl ⟨w, rfl, ?_, hw⟩
    exact hrest.takeWhile_append fun c hc => continuesNumber_of_isDigit (hw c hc)
  | real w =>
    rcases numberForm_eq_real_iff.mp hform
      with ⟨whole, fraction, rest, rfl, rfl, hwhole, hfraction, hrest⟩
    refine Or.inr (Or.inl ⟨whole, fraction, rfl, ?_, hwhole, hfraction⟩)
    rw [List.append_assoc, List.cons_append, takeWhile_continuesNumber_point hwhole,
      hrest.takeWhile_append fun c hc => continuesNumber_of_isDigit (hfraction c hc)]
  | malformed w =>
    rcases numberForm_eq_malformed_iff.mp hform
      with ⟨whole, fraction, rest, rfl, rfl, hwhole, hfraction⟩
    refine Or.inr (Or.inr
      ⟨whole, fraction, rest.takeWhile continuesNumber, rfl, ?_, hwhole, hfraction⟩)
    rw [List.append_assoc, List.cons_append, takeWhile_continuesNumber_point hwhole,
      takeWhile_continuesNumber_point hfraction, List.append_assoc, List.cons_append]

theorem count_point_of_real {whole fraction : List Char} (hwhole : ∀ c ∈ whole, isDigit c = true)
    (hfraction : ∀ c ∈ fraction, isDigit c = true) : (whole ++ '.' :: fraction).count '.' = 1 := by
  rw [List.count_append, List.count_cons_self, count_point_of_isDigit hwhole,
    count_point_of_isDigit hfraction]

/-- A number is malformed if there are two points among the digits and points that go on from its
start. -/
theorem exists_malformed_iff {cs : List Char} :
    (∃ w, numberForm cs = .malformed w) ↔ 2 ≤ (cs.takeWhile continuesNumber).count '.' := by
  rcases numberForm_cases cs with ⟨w, hform, hrun, hw⟩ |
    ⟨whole, fraction, hform, hrun, hwhole, hfraction⟩ |
    ⟨whole, fraction, behind, hform, hrun, hwhole, hfraction⟩
  · rw [hform, hrun, count_point_of_isDigit hw]
    simp
  · rw [hform, hrun, count_point_of_real hwhole hfraction]
    simp
  · rw [hform, hrun, List.count_append, List.count_cons_self, count_point_of_real hwhole hfraction]
    constructor
    · intro _
      omega
    · intro _
      exact ⟨_, rfl⟩

/-! ## Faults -/

section

variable {line column : Int} {ahead : List Char} {fault : Lexer.Fault} {message : String}

/-- Where no token can be read and the fault has a place, the place is this one, and what starts
there is malformed. -/
theorem Jams.isMalformed {line' column' : Int} (h : Jams line column ahead fault)
    (hplace : Check.malformedPlace? fault = some (line', column')) :
    line' = line ∧ column' = column ∧ IsMalformed ahead fault.message := by
  cases h with
  | @twoPoints c cs fraction rest hword hwhole hfraction =>
    cases hplace
    refine ⟨rfl, rfl, .points (hwhole c (by simp)) (exists_malformed_iff.mp ?_)⟩
    exact ⟨_, numberForm_eq_malformed_iff.mpr
      ⟨c :: cs, fraction, rest, rfl, by simp, hwhole, hfraction⟩⟩
  | unclosed hquote hinside =>
    cases hplace
    exact ⟨rfl, rfl, .openQuote hquote hinside⟩
  | integer _ _ _ _ => cases hplace
  | real _ _ _ _ _ => cases hplace

/-- No token can be read from what is malformed, and the fault has the place where it starts. -/
theorem IsMalformed.exists_jams (h : IsMalformed ahead message) (line column : Int) :
    ∃ fault, Jams line column ahead fault ∧
      Check.malformedPlace? fault = some (line, column) ∧ fault.message = message := by
  cases h with
  | openQuote hquote hinside =>
    exact ⟨.unterminatedString line column, .unclosed hquote hinside, rfl, rfl⟩
  | @points c rest hdigit htwo =>
    refine ⟨.malformedNumber line column, ?_, rfl, rfl⟩
    rcases exists_malformed_iff.mpr htwo with ⟨w, hform⟩
    rcases numberForm_eq_malformed_iff.mp hform
      with ⟨whole, fraction, behind, rfl, hsplit, hwhole, hfraction⟩
    rw [List.append_assoc, List.cons_append] at hsplit
    have hpoint : NotNext isDigit ('.' :: (fraction ++ '.' :: behind)) :=
      NotNext.cons_iff.mpr isDigit_point
    rcases Stream.exists_cons_of_isDigit hsplit hdigit hpoint with ⟨cs, rfl⟩
    rw [hsplit]
    exact .twoPoints (isWordStart_of_isDigit hdigit) hwhole hfraction

end

/-! ## Reading up to a place -/

namespace Stream

/-- Whether there is only a gap up to the place that has `n` characters in front of it. -/
def ComesTo (s : Stream) (n : Nat) : Prop :=
  ∃ gap ahead, s.ahead = gap ++ ahead ∧ Gap gap ahead ∧ s.position + gap.length = n

variable {s s' : Stream} {before : List Char} {t : Token} {ts : List Token}

/-- A token that is read is one of the text: the stream moves over some of the characters ahead. -/
theorem nextToken_moves (hs : s.Behind before) (h : s.nextToken = (.ok t, s')) :
    ∃ w, s.ahead = w ++ s'.ahead ∧ s'.Behind (before ++ w) := by
  rcases nextToken_cases hs h
    with ⟨hgap, -⟩ | ⟨gap, span, rest, hsplit, -, -, -, rfl, hbehind⟩
  · rw [nextToken_of_end hs hgap] at h
    cases h
    have hall : s.ahead = s.ahead ++ [] := by rw [List.append_nil]
    refine ⟨s.ahead, ?_, hs.skip hall⟩
    rw [ahead_skip_of_append hall]
    exact hall
  · refine ⟨gap ++ span, ?_, ?_⟩
    · rw [hsplit, List.append_assoc]
    · rwa [← List.append_assoc]

theorem Reads.moves (h : s.Reads ts s') (hs : s.Behind before) :
    ∃ w, s.ahead = w ++ s'.ahead ∧ s'.Behind (before ++ w) := by
  induction h generalizing before with
  | nil s => exact ⟨[], rfl, by rwa [List.append_nil]⟩
  | cons hread _ ih =>
    rcases nextToken_moves hs hread with ⟨v, hv, hbehind⟩
    rcases ih hbehind with ⟨w, hw, hbehind⟩
    refine ⟨v ++ w, ?_, ?_⟩
    · rw [hv, hw, List.append_assoc]
    · rwa [← List.append_assoc]

/-- The place that one comes to has the text in front of it and the text behind it. -/
theorem Behind.take_of_comesTo {n : Nat} (hs : s.Behind before) (h : s.ComesTo n) :
    ∃ gap, Gap gap (s.text.drop n) ∧ s.ahead = gap ++ s.text.drop n ∧
      s.text.take n = before ++ gap := by
  rcases h with ⟨gap, ahead, hsplit, hgap, hn⟩
  have hlength : n = (before ++ gap).length := by
    rw [hs.position_eq] at hn
    rw [List.length_append]
    omega
  have htext : s.text = before ++ gap ++ ahead := by
    rw [hs.text_eq, hsplit, List.append_assoc]
  have hdrop : s.text.drop n = ahead := by rw [htext, hlength, List.drop_left]
  refine ⟨gap, ?_, ?_, ?_⟩
  · rwa [hdrop]
  · rwa [hdrop]
  · rw [htext, hlength, List.take_left]

end Stream

/-- Reports of malformed lexemes are where they start. If a text is not divided into tokens and the
fault has a place, there is an index `n` such that the text up to it is divided into the tokens that
have been read, and what starts there is malformed, as the message says. The other way round,
whenever tokens have been read up to what is malformed, its report is next. -/
theorem tokenize_malformed (source : String) :
    (∀ fault line column, tokenize source = .error fault →
      Check.malformedPlace? fault = some (line, column) →
      ∃ (n : Nat) (ts : List Token) (s : Stream),
        (Stream.ofText source).Reads ts s ∧ s.ComesTo n ∧
        tokenize (String.ofList (source.toList.take n)) =
          .ok (ts ++ [.endBehind (source.toList.take n)]) ∧
        line = lineAfter (source.toList.take n) ∧ column = columnAfter (source.toList.take n) ∧
        IsMalformed (source.toList.drop n) fault.message) ∧
    (∀ ts s n message, (Stream.ofText source).Reads ts s → s.ComesTo n →
      IsMalformed (source.toList.drop n) message →
      ∃ fault s', s.nextToken = (.error fault, s') ∧
        Check.malformedPlace? fault =
          some (lineAfter (source.toList.take n), columnAfter (source.toList.take n)) ∧
        fault.message = message) := by
  have hstart := Stream.behind_ofText source
  constructor
  · intro fault line column h hplace
    rcases tokenize_eq_error_iff.mp h
      with ⟨front, _, ts, hsplit, hcovers, gap, jam, rfl, hgap, hjams⟩
    rcases Stream.reads_of_covers hcovers hstart hsplit with ⟨s, hreads, hbehind, hahead⟩
    rcases hjams.isMalformed hplace with ⟨rfl, rfl, hmalformed⟩
    have hall : source.toList = front ++ gap ++ jam := by rw [hsplit, List.append_assoc]
    have htake : source.toList.take (front ++ gap).length = front ++ gap := by
      rw [hall, List.take_left]
    have hdrop : source.toList.drop (front ++ gap).length = jam := by
      rw [hall, List.drop_left]
    refine ⟨(front ++ gap).length, ts, s, hreads, ?_, ?_, ?_, ?_, ?_⟩
    · refine ⟨gap, jam, hahead, hgap, ?_⟩
      rw [hbehind.position_eq, List.nil_append, List.length_append]
      omega
    · -- Without the malformed lexeme, nothing comes behind the gap.
      have hnil : FollowsAs jam [] := by simp [FollowsAs]
      have hgap' : Gap gap [] := hnil.gap hgap
      have hfront : Covers Lexes [] front gap ts := by
        have hnext := hnil.append gap
        rw [List.append_nil] at hnext
        exact hcovers.followsAs hnext
      rw [htake, tokenize_eq_ok_iff, String.toList_ofList]
      exact hfront.tiles (.finish hgap')
    · rw [htake]
    · rw [htake]
    · rwa [hdrop]
  · intro ts s n message hreads hn hmalformed
    -- What has been read and the gap behind it are the text up to the index.
    rcases hreads.moves hstart with ⟨before, hfront, hbehind⟩
    rw [List.nil_append] at hbehind
    have htext : s.text = source.toList := by
      rw [hbehind.text_eq, ← hfront]
      rfl
    rcases hbehind.take_of_comesTo hn with ⟨gap, hgap, hahead, htake⟩
    rw [htext] at hgap hahead htake
    rcases hmalformed.exists_jams (lineAfter (before ++ gap)) (columnAfter (before ++ gap))
      with ⟨fault, hjams, hplace, hmessage⟩
    rcases (Stream.nextToken_eq_error_iff hbehind).mpr ⟨gap, _, hahead, hgap, hjams⟩
      with ⟨s', hread⟩
    rw [htake]
    exact ⟨fault, s', hread, hplace, hmessage⟩

/-- A number and a comment, and a string that ends in a backslash and an escaped quote. -/
def openText : String :=
  "a = 1.5 # one\nb = 'c\\\\\\'"

/-- The string is reported where it starts, once all in front of it has been read. -/
theorem tokenize_malformed_openText :
    ∃ fault n ts s, tokenize openText = .error fault ∧
      Check.malformedPlace? fault = some (2, 5) ∧ (Stream.ofText openText).Reads ts s ∧
      s.ComesTo n ∧ tokenize (String.ofList (openText.toList.take n)) =
        .ok (ts ++ [.endBehind (openText.toList.take n)]) ∧
      IsMalformed (openText.toList.drop n) fault.message ∧
      ∃ fault' s', s.nextToken = (.error fault', s') ∧
        Check.malformedPlace? fault' = some (2, 5) ∧ fault'.message = fault.message := by
  have hfault : tokenize openText = .error (.unterminatedString 2 5) := by decide +kernel
  rcases tokenize_malformed openText with ⟨hreported, hnext⟩
  rcases hreported _ 2 5 hfault rfl
    with ⟨n, ts, s, hreads, hn, hfront, hline, hcolumn, hmalformed⟩
  rcases hnext ts s n _ hreads hn hmalformed with ⟨fault', s', hread, hplace, hmessage⟩
  rw [← hline, ← hcolumn] at hplace
  exact ⟨_, n, ts, s, hfault, rfl, hreads, hn, hfront, hmalformed, fault', s', hread, hplace,
    hmessage⟩

end ScriptCheck
