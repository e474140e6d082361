import ScriptCheck.Proofs.Lexer.Digits
import ScriptCheck.Proofs.Lexer.Tiling

/-!
# Where reading a text fails

A text that is not divided into tokens is covered by them up to a place, and there no token can be
read: a number has two points or denotes none, or a string is not closed. `Covers` is a cover of the
front of a text, `Jams` says what stands at such a place and which fault it is. The tokens of a
cover are read one by one (`Stream.Reads`), and reading fails exactly behind it
(`tokenize_eq_error_iff`).
-/

namespace ScriptCheck

open ScriptCheck.Text ScriptCheck.Lexeme

/-- The tokens cover the characters `front`, which stand behind `before` and in front of `rest`: the
characters of each token behind a gap, and those of the last one up to `rest`. -/
inductive Covers (P : (span rest : List Char) → Token → Prop) :
    (before front rest : List Char) → List Token → Prop where
  | nil (before rest : List Char) : Covers P before [] rest []
  | cons {before gap span front rest : List Char} {t : Token} {ts : List Token} :
      Gap gap (span ++ (front ++ rest)) → P span (front ++ rest) t →
      t.StandsBehind (before ++ gap) → Covers P (before ++ gap ++ span) front rest ts →
      Covers P before (gap ++ (span ++ front)) rest (t :: ts)

theorem Covers.kind_ne_eof {before front rest : List Char} {ts : List Token}
    (h : Covers Lexes before front rest ts) : ∀ t ∈ ts, t.kind ≠ .eof := by
  induction h with
  | nil _ _ => simp
  | cons _ hlexes _ _ ih => exact List.forall_mem_cons.mpr ⟨hlexes.kind_ne_eof, ih⟩

/-- No token can be read from the characters `ahead`, which stand at the given line and column. -/
inductive Jams (line column : Int) : (ahead : List Char) → Lexer.Fault → Prop where
  | twoPoints {c : Char} {cs fraction rest : List Char} :
      isWordStart c = false → (∀ d ∈ c :: cs, isDigit d = true) →
      (∀ d ∈ fraction, isDigit d = true) →
      Jams line column (c :: cs ++ '.' :: (fraction ++ '.' :: rest)) (.malformedNumber line column)
  | integer {c : Char} {cs rest : List Char} {fault : Numeral.Fault} :
      isWordStart c = false → (∀ d ∈ c :: cs, isDigit d = true) → NotNext continuesNumber rest →
      Numeral.readInteger (String.ofList (c :: cs)) = .error fault →
      Jams line column (c :: cs ++ rest) (.numeral fault)
  | real {c : Char} {cs fraction rest : List Char} {fault : Numeral.Fault} :
      isWordStart c = false → (∀ d ∈ c :: cs, isDigit d = true) →
      (∀ d ∈ fraction, isDigit d = true) → NotNext continuesNumber rest →
      Numeral.readReal (String.ofList (c :: cs ++ '.' :: fraction)) = .error fault →
      Jams line column (c :: cs ++ '.' :: fraction ++ rest) (.numeral fault)
  | unclosed {quote : Char} {inside : List Char} :
      quote = doubleQuote ∨ quote = singleQuote → quote ∉ unescaped inside →
      Jams line column (quote :: inside) (.unterminatedString line column)

/-- Where no token can be read behind the characters `before`: behind a gap. -/
def FailsBehind (before ahead : List Char) (fault : Lexer.Fault) : Prop :=
  ∃ gap jam, ahead = gap ++ jam ∧ Gap gap jam ∧
    Jams (lineAfter (before ++ gap)) (columnAfter (before ++ gap)) jam fault

namespace Stream

variable {s s' : Stream} {c : Char} {r before : List Char} {read : Array Token} {line column : Int}
  {fault : Lexer.Fault}

/-! ## One token -/

theorem readNumber_jams (hs : s.ahead = c :: r) (hword : isWordStart c = false)
    (hdigit : isDigit c = true) (h : s.readNumber line column = (.error fault, s')) :
    Jams line column s.ahead fault := by
  cases hform : numberForm s.ahead with
  | malformed w =>
    rcases numberForm_eq_malformed_iff.mp hform
      with ⟨whole, fraction, rest, rfl, hsplit, hwhole, hfraction⟩
    rw [readNumber_malformed hform] at h
    cases h
    rw [List.append_assoc, List.cons_append] at hsplit
    rcases exists_cons_of_isDigit (hs.symm.trans hsplit) hdigit (NotNext.cons_iff.mpr isDigit_point)
      with ⟨cs, rfl⟩
    rw [hsplit]
    exact .twoPoints hword hwhole hfraction
  | integer w =>
    rcases numberForm_eq_integer_iff.mp hform with ⟨rest, hsplit, hw, hrest⟩
    rw [readNumber_integer hform] at h
    cases hvalue : Numeral.readInteger (String.ofList w) with
    | ok value =>
      rw [hvalue] at h
      cases h
    | error fault =>
      rw [hvalue] at h
      cases h
      rcases exists_cons_of_isDigit (hs.symm.trans hsplit) hdigit hrest.digit with ⟨cs, rfl⟩
      rw [hsplit]
      exact .integer hword hw hrest hvalue
  | real w =>
    rcases numberForm_eq_real_iff.mp hform
      with ⟨whole, fraction, rest, rfl, hsplit, hwhole, hfraction, hrest⟩
    rw [readNumber_real hform] at h
    cases hvalue : Numeral.readReal (String.ofList (whole ++ '.' :: fraction)) with
    | ok value =>
      rw [hvalue] at h
      cases h
    | error fault =>
      rw [hvalue] at h
      cases h
      have hfront := hs.symm.trans hsplit
      rw [List.append_assoc] at hfront
      rcases exists_cons_of_isDigit hfront hdigit (NotNext.cons_iff.mpr isDigit_point)
        with ⟨cs, rfl⟩
      rw [hsplit]
      exact .real hword hwhole hfraction hrest hvalue

theorem readString_jams (hs : s.ahead = c :: r) (hquote : c = doubleQuote ∨ c = singleQuote)
    (h : s.readString line column = (.error fault, s')) : Jams line column s.ahead fault := by
  have hinside : (s.skip 1).ahead = r := by rw [ahead_skip, hs]; rfl
  unfold readString at h
  rw [next?_of_ahead hs] at h
  dsimp only at h
  rw [hinside] at h
  cases hclose : r.drop (stringBody c r).length with
  | nil =>
    rw [next?_of_ahead_nil (by rw [ahead_skip, hinside, hclose])] at h
    cases h
    rw [hs]
    exact .unclosed hquote ((drop_stringBody_eq_nil_iff r).mp hclose)
  | cons d rest =>
    rw [next?_of_ahead (by rw [ahead_skip, hinside, hclose])] at h
    cases h

/-- Where a token is expected and none is read, none can be. -/
theorem readToken_jams (hs : s.ahead = c :: r) (h : s.readToken c = (.error fault, s')) :
    Jams s.line s.column s.ahead fault := by
  by_cases hline : c = '\n'
  · unfold readToken at h
    rw [if_pos hline] at h
    cases h
  · by_cases hword : isWordStart c = true
    · rw [readToken_of_isWordStart hword] at h
      cases h
    · have hword := Bool.eq_false_iff.mpr hword
      by_cases hdigit : isDigit c = true
      · rw [readToken_of_isDigit hword hdigit] at h
        exact readNumber_jams hs hword hdigit h
      · by_cases hquote : c = doubleQuote ∨ c = singleQuote
        · rw [readToken_of_quote hquote] at h
          exact readString_jams hs hquote h
        · unfold readToken at h
          rw [if_neg hline, if_neg (by simp [hword]), if_neg hdigit,
            if_neg (by simpa using hquote)] at h
          split at h <;> cases h

/-- No token is read where none can be. -/
theorem readToken_of_jams {ahead : List Char} (h : Jams s.line s.column ahead fault)
    (hs : s.ahead = ahead) :
    ∃ c r, ahead = c :: r ∧ startsGap c = false ∧ ∃ s', s.readToken c = (.error fault, s') := by
  cases h with
  | @twoPoints c cs fraction rest hword hwhole hfraction =>
    have hdigit := hwhole c (by simp)
    have hsplit : c :: cs ++ '.' :: (fraction ++ '.' :: rest) =
        c :: cs ++ '.' :: fraction ++ '.' :: rest := by
      simp
    have hform := numberForm_eq_malformed_iff.mpr
      ⟨c :: cs, fraction, rest, rfl, hs.trans hsplit, hwhole, hfraction⟩
    refine ⟨c, _, rfl, (startsGap_of_isDigit hdigit).1,
      s.skip (c :: cs ++ '.' :: fraction).length, ?_⟩
    rw [readToken_of_isDigit hword hdigit, readNumber_malformed hform]
  | @integer c cs rest fault hword hdigits hrest hvalue =>
    have hdigit := hdigits c (by simp)
    have hform := numberForm_eq_integer_iff.mpr ⟨rest, hs, hdigits, hrest⟩
    refine ⟨c, _, rfl, (startsGap_of_isDigit hdigit).1, s.skip (c :: cs).length, ?_⟩
    rw [readToken_of_isDigit hword hdigit, readNumber_integer hform, hvalue]
    rfl
  | @real c cs fraction rest fault hword hwhole hfraction hrest hvalue =>
    have hdigit := hwhole c (by simp)
    have hform := numberForm_eq_real_iff.mpr
      ⟨c :: cs, fraction, rest, rfl, hs, hwhole, hfraction, hrest⟩
    refine ⟨c, _, rfl, (startsGap_of_isDigit hdigit).1,
      s.skip (c :: cs ++ '.' :: fraction).length, ?_⟩
    rw [readToken_of_isDigit hword hdigit, readNumber_real hform, hvalue]
    rfl
  | @unclosed quote inside hquote hinside =>
    have hfront : startsGap quote = false := by
      rcases hquote with rfl | rfl <;> decide
    have hahead : (s.skip 1).ahead = inside := by rw [ahead_skip, hs]; rfl
    refine ⟨quote, inside, rfl, hfront, (s.skip 1).skip (stringBody quote inside).length, ?_⟩
    rw [readToken_of_quote hquote, readString, next?_of_ahead hs]
    dsimp only
    rw [hahead, next?_of_ahead_nil
      (by rw [ahead_skip, hahead, (drop_stringBody_eq_nil_iff inside).mpr hinside])]

theorem nextToken_eq_error_iff (hs : s.Behind before) :
    (∃ s', s.nextToken = (.error fault, s')) ↔ FailsBehind before s.ahead fault := by
  constructor
  · rintro ⟨s', h⟩
    rcases exists_gap s.ahead with ⟨gap, jam, hsplit, hlength, hgap, -⟩
    have hahead := ahead_skip_of_append hsplit
    have hbehind := hs.skip hsplit
    unfold nextToken skipBlanks at h
    rw [← hlength] at h
    dsimp only at h
    split at h
    · cases h
    · next c r hc =>
      have hjams := readToken_jams hc h
      rw [hahead, hbehind.line_eq, hbehind.column_eq] at hjams
      exact ⟨gap, jam, hsplit, hgap, hjams⟩
  · rintro ⟨gap, jam, hsplit, hgap, hjams⟩
    have hahead := ahead_skip_of_append hsplit
    have hbehind := hs.skip hsplit
    rw [← hbehind.line_eq, ← hbehind.column_eq] at hjams
    rcases readToken_of_jams hjams hahead with ⟨c, r, rfl, hstart, s', hread⟩
    have hlength := hgap.blankLength_append (NotNext.cons_iff.mpr hstart)
    rw [← hsplit] at hlength
    refine ⟨s', ?_⟩
    unfold nextToken skipBlanks
    rw [hlength]
    dsimp only
    rw [hahead]
    exact hread

/-! ## All tokens -/

theorem tokensAfter_of_error (hread : s.nextToken = (.error fault, s')) (read : Array Token) :
    s.tokensAfter read = (.error fault, s') := by
  rw [tokensAfter]
  split
  · next hread' =>
    rw [hread] at hread'
    cases hread'
    rfl
  · next hread' =>
    rw [hread] at hread'
    cases hread'

/-- Reading that fails has covered the front of what is ahead, and fails behind that. -/
theorem tokensAfter_fails (hs : s.Behind before) (h : s.tokensAfter read = (.error fault, s')) :
    ∃ front rest ts, s.ahead = front ++ rest ∧ Covers Lexes before front rest ts ∧
      FailsBehind (before ++ front) rest fault := by
  fun_induction tokensAfter read s generalizing before with
  | case1 read s fault' s'' hread =>
    cases h
    refine ⟨[], s.ahead, [], rfl, .nil _ _, ?_⟩
    rw [List.append_nil]
    exact (nextToken_eq_error_iff hs).mp ⟨_, hread⟩
  | case2 read s t s'' hread hkind => cases h
  | case3 read s t s'' hread hkind ih =>
    rcases nextToken_cases hs hread
      with ⟨-, rfl⟩ | ⟨gap, span, behind, hsplit, hgap, hlexes, hplace, hrest, hbehind⟩
    · exact absurd rfl hkind
    · rcases ih hbehind h with ⟨front, rest, ts, hfront, hcovers, hfails⟩
      rw [hrest] at hfront
      subst hfront
      refine ⟨gap ++ (span ++ front), rest, t :: ts, ?_, .cons hgap hlexes hplace hcovers, ?_⟩
      · rw [hsplit]
        simp only [List.append_assoc]
      · simpa only [List.append_assoc] using hfails

/-- Reading token by token leads from one place to another, over the tokens `ts`. -/
inductive Reads : Stream → (ts : List Token) → Stream → Prop where
  | nil (s : Stream) : Reads s [] s
  | cons {s s' s'' : Stream} {t : Token} {ts : List Token} :
      s.nextToken = (.ok t, s') → Reads s' ts s'' → Reads s (t :: ts) s''

/-- Tokens that cover the front of what is ahead are those that are read. -/
theorem reads_of_covers {front rest : List Char} {ts : List Token}
    (h : Covers Lexes before front rest ts) (hs : s.Behind before)
    (hahead : s.ahead = front ++ rest) :
    ∃ s' : Stream, s.Reads ts s' ∧ s'.Behind (before ++ front) ∧ s'.ahead = rest := by
  induction h generalizing s with
  | nil before rest => exact ⟨s, .nil s, by rwa [List.append_nil], hahead⟩
  | @cons before gap span front rest t ts hgap hlexes hplace _ ih =>
    have hsplit : s.ahead = gap ++ (span ++ (front ++ rest)) := by
      rw [hahead]
      simp only [List.append_assoc]
    rcases nextToken_of_lexes hs hsplit hgap hlexes hplace with ⟨s', hread, hrest, hbehind⟩
    rcases ih hbehind hrest with ⟨s'', hreads, hend, hleft⟩
    refine ⟨s'', .cons hread hreads, ?_, hleft⟩
    simpa only [List.append_assoc] using hend

/-- Behind tokens that are read, none of them the end of the input, reading goes on. -/
theorem Reads.tokensAfter_eq {ts : List Token} (h : s.Reads ts s')
    (hkinds : ∀ t ∈ ts, t.kind ≠ .eof) (read : Array Token) :
    s.tokensAfter read = s'.tokensAfter (read ++ ts.toArray) := by
  induction h generalizing read with
  | nil s => simp
  | @cons s s' s'' t ts hread _ ih =>
    rcases List.forall_mem_cons.mp hkinds with ⟨hkind, hkinds⟩
    rw [tokensAfter_of_token hread hkind, ih hkinds]
    congr 1
    apply Array.toList_inj.mp
    simp

/-- Where the front of what is ahead is covered, its tokens are read, and then what is behind it. -/
theorem tokensAfter_covers {front rest : List Char} {ts : List Token}
    (h : Covers Lexes before front rest ts) (hs : s.Behind before)
    (hahead : s.ahead = front ++ rest) (read : Array Token) :
    ∃ s' : Stream, s'.Behind (before ++ front) ∧ s'.ahead = rest ∧
      s.tokensAfter read = s'.tokensAfter (read ++ ts.toArray) := by
  rcases reads_of_covers h hs hahead with ⟨s', hreads, hbehind, hrest⟩
  exact ⟨s', hbehind, hrest, hreads.tokensAfter_eq h.kind_ne_eof read⟩

/-- Where the front of what is ahead is covered and reading fails behind that, it fails. -/
theorem tokensAfter_of_covers {front rest : List Char} {ts : List Token}
    (h : Covers Lexes before front rest ts) (hs : s.Behind before)
    (hahead : s.ahead = front ++ rest) (hfails : FailsBehind (before ++ front) rest fault)
    (read : Array Token) : ∃ s', s.tokensAfter read = (.error fault, s') := by
  rcases tokensAfter_covers h hs hahead read with ⟨s', hplace, hrest, hall⟩
  rw [← hrest] at hfails
  rcases (nextToken_eq_error_iff hplace).mpr hfails with ⟨s'', hread⟩
  exact ⟨s'', hall.trans (tokensAfter_of_error hread _)⟩

end Stream

/-- A text is not divided into tokens if they cover it up to a place behind which none can be
read. -/
theorem tokenize_eq_error_iff {source : String} {fault : Lexer.Fault} :
    tokenize source = .error fault ↔
      ∃ front rest ts, source.toList = front ++ rest ∧ Covers Lexes [] front rest ts ∧
        FailsBehind front rest fault := by
  have hbehind := Stream.behind_ofText source
  constructor
  · intro h
    unfold tokenize Stream.tokens at h
    cases hall : (Stream.ofText source).tokensAfter #[] with
    | mk result s' =>
      rw [hall] at h
      dsimp only at h
      subst h
      exact Stream.tokensAfter_fails hbehind hall
  · rintro ⟨front, rest, ts, hsplit, hcovers, hfails⟩
    rcases Stream.tokensAfter_of_covers hcovers hbehind hsplit hfails #[] with ⟨s', hall⟩
    unfold tokenize Stream.tokens
    rw [hall]

/-! ## Numbers that denote none -/

/-- The characters of a number that denotes none: one of its digits is no decimal digit, or it is an
integer of too many digits. -/
inductive IsUnreadable : (word : List Char) → Prop where
  | integer {c d : Char} {cs : List Char} :
      isWordStart c = false → (∀ e ∈ c :: cs, isDigit e = true) → d ∈ c :: cs →
      isDecimal d = false → IsUnreadable (c :: cs)
  | long {c : Char} {cs : List Char} :
      isWordStart c = false → (∀ e ∈ c :: cs, isDigit e = true) →
      Numeral.digitLimit < (c :: cs).length → IsUnreadable (c :: cs)
  | real {c d : Char} {cs fraction : List Char} :
      isWordStart c = false → (∀ e ∈ c :: cs, isDigit e = true) →
      (∀ e ∈ fraction, isDigit e = true) → d ∈ c :: cs ++ fraction → isDecimal d = false →
      IsUnreadable (c :: cs ++ '.' :: fraction)

/-- Whether a text has a number that denotes none where a token is expected: behind tokens that
cover what is in front of it, and a gap. -/
def MeetsUnreadable (source : String) : Prop :=
  ∃ front gap word rest ts, source.toList = front ++ (gap ++ (word ++ rest)) ∧
    Covers Lexes [] front (gap ++ (word ++ rest)) ts ∧ Gap gap (word ++ rest) ∧
    IsUnreadable word ∧ NotNext continuesNumber rest

theorem Numeral.exists_fault_iff {α : Type} (outcome : Except Numeral.Fault α) :
    (∃ fault, outcome = .error fault) ↔ ¬ ∃ value, outcome = .ok value := by
  cases outcome <;> simp

/-- Either a digit is no decimal digit, or there is no point and the characters are too many. -/
theorem IsUnreadable.cases {word : List Char} (h : IsUnreadable word) :
    (∃ d ∈ word, isDigit d = true ∧ isDecimal d = false) ∨
      '.' ∉ word ∧ Numeral.digitLimit < word.length := by
  cases h with
  | @integer c d cs _ hdigits hd hdecimal => exact Or.inl ⟨d, hd, hdigits d hd, hdecimal⟩
  | long _ hdigits hlong =>
    refine Or.inr ⟨fun hpoint => ?_, hlong⟩
    have hdigit := hdigits '.' hpoint
    rw [isDigit_point] at hdigit
    cases hdigit
  | @real c d cs fraction _ hwhole hfraction hd hdecimal =>
    rcases List.mem_append.mp hd with hmem | hmem
    · exact Or.inl ⟨d, List.mem_append_left _ hmem, hwhole d hmem, hdecimal⟩
    · exact Or.inl ⟨d, by simp [hmem], hfraction d hmem, hdecimal⟩

theorem Numeral.readInteger_fault_iff {c : Char} {cs : List Char}
    (hword : isWordStart c = false) (hdigits : ∀ d ∈ c :: cs, isDigit d = true) :
    (∃ fault, readInteger (String.ofList (c :: cs)) = .error fault) ↔ IsUnreadable (c :: cs) := by
  rw [exists_fault_iff, readInteger_ok_iff (List.cons_ne_nil c cs) hdigits]
  constructor
  · intro hno
    by_cases hall : ∀ d ∈ c :: cs, isDecimal d = true
    · exact .long hword hdigits (Nat.lt_of_not_le fun hle => hno ⟨hall, hle⟩)
    · rcases Classical.not_forall.mp hall with ⟨d, hd⟩
      rcases Classical.not_imp.mp hd with ⟨hmem, hdecimal⟩
      exact .integer hword hdigits hmem (Bool.eq_false_iff.mpr hdecimal)
  · rintro h ⟨hall, hle⟩
    rcases h.cases with ⟨d, hd, -, hdecimal⟩ | ⟨-, hlong⟩
    · rw [hall d hd] at hdecimal
      cases hdecimal
    · omega

theorem Numeral.readReal_fault_iff {c : Char} {cs fraction : List Char}
    (hword : isWordStart c = false) (hwhole : ∀ d ∈ c :: cs, isDigit d = true)
    (hfraction : ∀ d ∈ fraction, isDigit d = true) :
    (∃ fault, readReal (String.ofList (c :: cs ++ '.' :: fraction)) = .error fault) ↔
      IsUnreadable (c :: cs ++ '.' :: fraction) := by
  rw [exists_fault_iff, readReal_ok_iff (List.cons_ne_nil c cs) hwhole hfraction]
  constructor
  · intro hno
    rcases Classical.not_forall.mp hno with ⟨d, hd⟩
    rcases Classical.not_imp.mp hd with ⟨hmem, hdecimal⟩
    exact .real hword hwhole hfraction hmem (Bool.eq_false_iff.mpr hdecimal)
  · intro h hall
    rcases h.cases with ⟨d, hd, hdigit, hdecimal⟩ | ⟨hpoint, -⟩
    · have hmem : d ∈ c :: cs ++ fraction := by
        rcases List.mem_append.mp hd with hmem | hmem
        · exact List.mem_append_left _ hmem
        · rcases List.mem_cons.mp hmem with rfl | hmem
          · rw [isDigit_point] at hdigit
            cases hdigit
          · exact List.mem_append_right _ hmem
      rw [hall d hmem] at hdecimal
      cases hdecimal
    · exact hpoint (by simp)

/-- A number that denotes none is what keeps a token from being read for a fault of its own. -/
theorem jams_numeral_iff {line column : Int} {ahead : List Char} :
    (∃ fault, Jams line column ahead (.numeral fault)) ↔
      ∃ word rest, ahead = word ++ rest ∧ IsUnreadable word ∧ NotNext continuesNumber rest := by
  constructor
  · rintro ⟨fault, h⟩
    cases h with
    | @integer c cs rest _ hword hdigits hrest hvalue =>
      exact ⟨c :: cs, rest, rfl, (Numeral.readInteger_fault_iff hword hdigits).mp ⟨_, hvalue⟩,
        hrest⟩
    | @real c cs fraction rest _ hword hwhole hfraction hrest hvalue =>
      exact ⟨c :: cs ++ '.' :: fraction, rest, rfl,
        (Numeral.readReal_fault_iff hword hwhole hfraction).mp ⟨_, hvalue⟩, hrest⟩
  · rintro ⟨word, rest, rfl, hunreadable, hrest⟩
    cases hunreadable with
    | integer hword hdigits hd hdecimal =>
      rcases (Numeral.readInteger_fault_iff hword hdigits).mpr (.integer hword hdigits hd hdecimal)
        with ⟨fault, hvalue⟩
      exact ⟨fault, .integer hword hdigits hrest hvalue⟩
    | long hword hdigits hlong =>
      rcases (Numeral.readInteger_fault_iff hword hdigits).mpr (.long hword hdigits hlong)
        with ⟨fault, hvalue⟩
      exact ⟨fault, .integer hword hdigits hrest hvalue⟩
    | real hword hwhole hfraction hd hdecimal =>
      rcases (Numeral.readReal_fault_iff hword hwhole hfraction).mpr
        (.real hword hwhole hfraction hd hdecimal) with ⟨fault, hvalue⟩
      exact ⟨fault, .real hword hwhole hfraction hrest hvalue⟩

/-- The digits of a number are what the lexer has no report for, and nothing else is. -/
theorem tokenize_numeral_iff {source : String} :
    (∃ fault, tokenize source = .error (.numeral fault)) ↔ MeetsUnreadable source := by
  constructor
  · rintro ⟨fault, h⟩
    rcases tokenize_eq_error_iff.mp h
      with ⟨front, rest, ts, hsplit, hcovers, gap, jam, rfl, hgap, hjams⟩
    rcases jams_numeral_iff.mp ⟨_, hjams⟩ with ⟨word, behind, rfl, hunreadable, hbehind⟩
    exact ⟨front, gap, word, behind, ts, hsplit, hcovers, hgap, hunreadable, hbehind⟩
  · rintro ⟨front, gap, word, behind, ts, hsplit, hcovers, hgap, hunreadable, hbehind⟩
    rcases jams_numeral_iff.mpr ⟨word, behind, rfl, hunreadable, hbehind⟩ with ⟨fault, hjams⟩
    exact ⟨fault, tokenize_eq_error_iff.mpr
      ⟨front, _, ts, hsplit, hcovers, gap, word ++ behind, rfl, hgap, hjams⟩⟩

/-- Any other fault is located: at the place where no token can be read. -/
theorem tokenize_located {source : String} {fault : Lexer.Fault}
    (h : tokenize source = .error fault) (hno : ¬ MeetsUnreadable source) :
    ∃ front ahead, source.toList = front ++ ahead ∧
      (fault = .unterminatedString (lineAfter front) (columnAfter front) ∨
        fault = .malformedNumber (lineAfter front) (columnAfter front)) := by
  rcases tokenize_eq_error_iff.mp h
    with ⟨front, rest, ts, hsplit, hcovers, gap, jam, rfl, hgap, hjams⟩
  refine ⟨front ++ gap, jam, by rw [hsplit, List.append_assoc], ?_⟩
  cases hjams with
  | twoPoints _ _ _ => exact Or.inr rfl
  | unclosed _ _ => exact Or.inl rfl
  | integer _ _ _ _ => exact absurd (tokenize_numeral_iff.mp ⟨_, h⟩) hno
  | real _ _ _ _ _ => exact absurd (tokenize_numeral_iff.mp ⟨_, h⟩) hno

end ScriptCheck
