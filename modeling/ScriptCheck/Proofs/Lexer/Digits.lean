import Mathlib.Data.List.TakeWhile
import ScriptCheck.Proofs.Lexer.Extent

/-!
# Which digits denote a number

The digits that a number is made of are those of any script, and some of them take no part in
positional notation. So a number that is well formed may still denote none: an integer denotes one
if its digits are decimal digits and there are not too many (`Numeral.readInteger_ok_iff`), and a
real number if its digits are decimal digits, however many there are (`Numeral.readReal_ok_iff`).
Too large a real number is infinite, but none is the value that differs from itself
(`Numeral.shape_readReal_ne_nan`).
-/

namespace ScriptCheck

open ScriptCheck.Text

namespace Text

variable {c : Char}

/-- The characters that show a digit, as ranges. -/
def digitRanges : Ranges :=
  decimalZeros.map (fun z => (z, z + 9)) ++ nonDecimalDigits

/-- The blanks that may surround a numeral, as ranges. -/
def numeralBlankRanges : Ranges :=
  (0x20, 0x20) :: (0x09, 0x0d) :: blanksBeyondAscii

theorem isDigit_iff : isDigit c = true ↔ digitRanges.contains c = true := by
  rw [isDigit, isDecimal, decimalValue?, Bool.or_eq_true, Option.isSome_map, List.find?_isSome,
    Ranges.contains_iff, Ranges.contains_iff]
  simp only [digitRanges, List.mem_append, List.mem_map, Bool.and_eq_true, decide_eq_true_eq]
  constructor
  · rintro (⟨z, hz, hlo, hhi⟩ | ⟨r, hr, hin⟩)
    · exact ⟨_, Or.inl ⟨z, hz, rfl⟩, hlo, by omega⟩
    · exact ⟨r, Or.inr hr, hin⟩
  · rintro ⟨r, ⟨z, hz, rfl⟩ | hr, hlo, hhi⟩
    · exact Or.inl ⟨z, hz, hlo, by dsimp only at hhi; omega⟩
    · exact Or.inr ⟨r, hr, hlo, hhi⟩

theorem isNumeralBlank_iff : isNumeralBlank c = true ↔ numeralBlankRanges.contains c = true := by
  have hspace : c = ' ' ↔ 0x20 ≤ c.toNat ∧ c.toNat ≤ 0x20 := by
    rw [← Char.toNat_inj]
    exact ⟨fun h => by rw [h]; decide, fun h => Nat.le_antisymm h.2 h.1⟩
  rw [isNumeralBlank, Ranges.contains_iff, Bool.or_eq_true, Bool.or_eq_true, beq_iff_eq, hspace,
    Bool.and_eq_true, decide_eq_true_eq, decide_eq_true_eq, Ranges.contains_iff, or_assoc]
  simp only [numeralBlankRanges, List.mem_cons, exists_eq_or_imp]

/-- Whether no code point is in a range of both lists. -/
def Ranges.areApart (as bs : Ranges) : Bool :=
  as.all fun a => bs.all fun b => Nat.blt a.2 b.1 || Nat.blt b.2 a.1

theorem Ranges.contains_of_areApart {as bs : Ranges} (h : as.areApart bs = true)
    (hc : as.contains c = true) : bs.contains c = false := by
  simp only [Ranges.areApart, List.all_eq_true, Bool.or_eq_true, Nat.blt_eq] at h
  rcases Ranges.contains_iff.mp hc with ⟨a, ha, hlo, hhi⟩
  rw [← Bool.not_eq_true, Ranges.contains_iff]
  rintro ⟨b, hb, hlo', hhi'⟩
  rcases h a ha b hb with hlt | hlt <;> omega

/-- No digit is a blank. -/
theorem isNumeralBlank_of_isDigit (h : isDigit c = true) : isNumeralBlank c = false := by
  have hapart : digitRanges.areApart numeralBlankRanges = true := by decide +kernel
  rw [← Bool.not_eq_true, isNumeralBlank_iff,
    Ranges.contains_of_areApart hapart (isDigit_iff.mp h)]
  exact Bool.false_ne_true

/-- Digits have no upper and lower case. -/
theorem toLower_of_isDigit (h : isDigit c = true) : c.toLower = c := by
  have hapart : digitRanges.areApart [(65, 90)] = true := by decide +kernel
  have hno := Ranges.contains_of_areApart hapart (isDigit_iff.mp h)
  unfold Char.toLower
  rw [dif_neg]
  simpa [Ranges.contains, UInt32.le_iff_toNat_le] using hno

/-- In ASCII, the letters are from 65 to 122. -/
theorem toNat_of_isAlpha (h : c.isAlpha = true) : 65 ≤ c.toNat ∧ c.toNat ≤ 122 := by
  have hcases : (decide (65 ≤ c.val ∧ c.val ≤ 90) ||
      (decide (97 ≤ c.val) && decide (c.val ≤ 122))) = true := h
  have hranges : (65 ≤ c.toNat ∧ c.toNat ≤ 90) ∨ (97 ≤ c.toNat ∧ c.toNat ≤ 122) := by
    simpa [UInt32.le_iff_toNat_le] using hcases
  omega

/-- No word starts with a digit. -/
theorem isWordStart_of_isDigit (h : isDigit c = true) : isWordStart c = false := by
  have hascii : digitRanges.areApart [(65, 122)] = true := by decide +kernel
  have hletters : digitRanges.areApart lettersBeyondAscii = true := by decide +kernel
  have hdigit := isDigit_iff.mp h
  have hoff : ¬ (65 ≤ c.toNat ∧ c.toNat ≤ 122) := by
    simpa [Ranges.contains] using Ranges.contains_of_areApart hascii hdigit
  have hletter : isLetter c = false := by
    unfold isLetter
    split
    · rw [← Bool.not_eq_true]
      intro halpha
      exact hoff (toNat_of_isAlpha halpha)
    · exact Ranges.contains_of_areApart hletters hdigit
  -- The underscore is between the letters of ASCII.
  have hunderscore : c ≠ '_' := by
    rintro rfl
    exact hoff ⟨by decide, by decide⟩
  simp [isWordStart, hletter, hunderscore]

theorem ne_of_isDigit (h : isDigit c = true) {d : Char} (hd : isDigit d = false) : c ≠ d := by
  rintro rfl
  rw [h] at hd
  cases hd

end Text

namespace Numeral

variable {w whole fraction : List Char}

/-- Nothing is cut off characters of which neither the first nor the last is a blank. -/
theorem trimmed_eq_self (hhead : ∀ c ∈ w.head?, isNumeralBlank c = false)
    (hlast : ∀ c ∈ w.getLast?, isNumeralBlank c = false) : trimmed w = w := by
  have hdrop : ∀ {v : List Char}, (∀ c ∈ v.head?, isNumeralBlank c = false) →
      v.dropWhile isNumeralBlank = v := by
    intro v hv
    cases v with
    | nil => rfl
    | cons c v => simp [hv c rfl]
  rw [trimmed, hdrop hhead, hdrop (by simpa using hlast), List.reverse_reverse]

theorem separatorsFit_of_not_mem (h : '_' ∉ w) (afterDigit : Bool) :
    separatorsFit afterDigit w = true := by
  induction w generalizing afterDigit with
  | nil => rfl
  | cons c w ih =>
    have hc : c ≠ '_' := fun heq => h (by simp [heq])
    rw [separatorsFit.eq_4 _ _ _ (fun _ _ heq _ => hc heq) (fun heq _ => hc heq)]
    exact ih (fun hmem => h (by simp [hmem])) _

theorem signed_of_ne (h : ∀ c ∈ w.head?, c ≠ '-' ∧ c ≠ '+') : signed w = (false, w) := by
  cases w with
  | nil => rfl
  | cons c w =>
    have hc := h c rfl
    exact signed.eq_3 _ (fun _ heq => hc.1 (List.cons.inj heq).1)
      (fun _ heq => hc.2 (List.cons.inj heq).1)

theorem length_digitValues (h : ∀ c ∈ w, isDecimal c = true) :
    (digitValues w).length = w.length := by
  induction w with
  | nil => rfl
  | cons c w ih =>
    rcases Option.isSome_iff_exists.mp (h c (by simp)) with ⟨value, hvalue⟩
    have hrest := ih fun d hd => h d (by simp [hd])
    rw [digitValues] at hrest ⊢
    rw [List.filterMap_cons_some hvalue, List.length_cons, hrest, List.length_cons]

theorem trimmed_of_isDigit (hw : ∀ c ∈ w, isDigit c = true) : trimmed w = w :=
  trimmed_eq_self (fun c hc => isNumeralBlank_of_isDigit (hw c (List.mem_of_mem_head? hc)))
    (fun c hc => isNumeralBlank_of_isDigit (hw c (List.mem_of_mem_getLast? hc)))

theorem signed_of_isDigit (hw : ∀ c ∈ w.head?, isDigit c = true) : signed w = (false, w) :=
  signed_of_ne fun c hc =>
    ⟨ne_of_isDigit (hw c hc) (by decide), ne_of_isDigit (hw c hc) (by decide)⟩

/-- Decimal digits denote the number that they show in base ten, unless there are too many. -/
theorem readInteger_of_isDecimal (hne : w ≠ []) (hw : ∀ c ∈ w, isDecimal c = true) :
    readInteger (String.ofList w) =
      if digitLimit < w.length then .error (.tooManyDigits w.length)
      else .ok (ofDigits (digitValues w)) := by
  have hdigit : ∀ c ∈ w, isDigit c = true := fun c hc => by simp [isDigit, hw c hc]
  have hrun : ∀ c ∈ w, (isDecimal c || c == '_') = true := fun c hc => by rw [hw c hc]; rfl
  have hlength := length_digitValues hw
  have hsome : (digitValues w).isEmpty = false := by
    rw [List.isEmpty_eq_false_iff, ← List.length_pos_iff, hlength]
    exact List.length_pos_iff.mpr hne
  have hfit : separatorsFit false w = true :=
    separatorsFit_of_not_mem (fun hmem => ne_of_isDigit (hdigit _ hmem) (by decide) rfl) false
  unfold readInteger
  rw [String.toList_ofList, trimmed_of_isDigit hdigit,
    signed_of_isDigit fun c hc => hdigit c (List.mem_of_mem_head? hc)]
  dsimp only
  rw [List.takeWhile_eq_self_iff.mpr hrun, List.dropWhile_eq_nil_iff.mpr hrun, hsome, hfit,
    hlength]
  rfl

/-- An integer that is made of digits denotes a number if all of them are decimal digits and there
are not too many. -/
theorem readInteger_ok_iff (hne : w ≠ []) (hw : ∀ c ∈ w, isDigit c = true) :
    (∃ value, readInteger (String.ofList w) = .ok value) ↔
      (∀ c ∈ w, isDecimal c = true) ∧ w.length ≤ digitLimit := by
  by_cases hall : ∀ c ∈ w, isDecimal c = true
  · rw [readInteger_of_isDecimal hne hall, and_iff_right hall, ← Nat.not_lt]
    by_cases hmany : digitLimit < w.length <;> simp [hmany]
  · have hseparator : ∀ c ∈ w, c ≠ '_' := fun c hc => ne_of_isDigit (hw c hc) (by decide)
    -- The digits stop in front of one that is no decimal digit.
    have hrest : (w.dropWhile fun c => isDecimal c || c == '_').isEmpty = false := by
      rw [List.isEmpty_eq_false_iff, Ne, List.dropWhile_eq_nil_iff]
      intro hrun
      refine hall fun c hc => ?_
      simpa [hseparator c hc] using hrun c hc
    unfold readInteger
    rw [String.toList_ofList, trimmed_of_isDigit hw,
      signed_of_isDigit fun c hc => hw c (List.mem_of_mem_head? hc)]
    dsimp only
    rw [hrest]
    simp only [hall, false_and, iff_false]
    split
    · simp
    · split <;> simp

theorem readExponent_of_isDigit (hw : ∀ c ∈ w.head?, isDigit c = true) :
    (readExponent w).isSome = true ↔ w = [] := by
  cases w with
  | nil => simp [readExponent]
  | cons c w =>
    have hc := hw c rfl
    have hno : ¬ (c = 'e' ∨ c = 'E') :=
      not_or.mpr ⟨ne_of_isDigit hc (by decide), ne_of_isDigit hc (by decide)⟩
    simp [readExponent, hno]

/-- No name of a number starts with a digit. -/
theorem ofList_map_toLower_ne {c d : Char} (hc : isDigit c = true) (hd : isDigit d = false)
    (cs : List Char) {name : String} (hname : name.toList.head? = some d) :
    String.ofList ((c :: cs).map Char.toLower) ≠ name := by
  rintro rfl
  rw [String.toList_ofList, List.map_cons, toLower_of_isDigit hc, List.head?_cons] at hname
  exact ne_of_isDigit hc hd (Option.some.inj hname)

/-- A digit that is no decimal digit ends the number that is read, and nothing may follow that. -/
theorem readMagnitude_of_not_isDecimal {c : Char} {front behind : List Char}
    (hfront : ∀ d ∈ front, isDecimal d = true) (hc : isDigit c = true)
    (hno : isDecimal c = false) (negative : Bool) :
    readMagnitude negative (front ++ c :: behind) = none := by
  have hstop : NotNext isDecimal (c :: behind) := NotNext.cons_iff.mpr hno
  have hpoint : c ≠ '.' := ne_of_isDigit hc (by decide)
  have hexponent : readExponent (c :: behind) = none := by
    rw [← Option.not_isSome_iff_eq_none, readExponent_of_isDigit (by simpa using hc)]
    exact List.cons_ne_nil c behind
  unfold readMagnitude
  rw [hstop.takeWhile_append hfront, hstop.dropWhile_append hfront]
  dsimp only
  split
  · next hdrop => exact absurd (List.cons.inj hdrop).1 hpoint
  · split
    · next hnil =>
      obtain rfl : front = [] := by simpa using hnil
      rw [List.nil_append]
      split
      · next hname => exact absurd hname (ofList_map_toLower_ne hc (d := 'i') (by decide) _ rfl)
      · next hname => exact absurd hname (ofList_map_toLower_ne hc (d := 'i') (by decide) _ rfl)
      · next hname => exact absurd hname (ofList_map_toLower_ne hc (d := 'n') (by decide) _ rfl)
      · rfl
    · rw [hexponent]
      rfl

theorem readMagnitude_isSome_iff (hne : whole ≠ []) (hwhole : ∀ c ∈ whole, isDigit c = true)
    (hfraction : ∀ c ∈ fraction, isDigit c = true) (negative : Bool) :
    (readMagnitude negative (whole ++ '.' :: fraction)).isSome = true ↔
      ∀ c ∈ whole ++ fraction, isDecimal c = true := by
  by_cases hall : ∀ c ∈ whole, isDecimal c = true
  · have hstop : NotNext isDecimal ('.' :: fraction) := NotNext.cons_iff.mpr (by decide)
    have hrest : ∀ c ∈ (fraction.dropWhile isDecimal).head?, isDigit c = true :=
      fun c hc => hfraction c ((List.dropWhile_sublist _).mem (List.mem_of_mem_head? hc))
    unfold readMagnitude
    rw [hstop.takeWhile_append hall, hstop.dropWhile_append hall]
    dsimp only
    rw [if_neg (by simp [hne]), Option.isSome_map, List.forall_mem_append, and_iff_right hall,
      ← List.dropWhile_eq_nil_iff]
    exact readExponent_of_isDigit hrest
  · -- What is in front of the first digit that is no decimal digit is read, and that one is not.
    have hsplit : whole.takeWhile isDecimal ++ whole.dropWhile isDecimal = whole :=
      List.takeWhile_append_dropWhile
    have hstop := NotNext.dropWhile isDecimal whole
    cases hrest : whole.dropWhile isDecimal with
    | nil => exact absurd (List.dropWhile_eq_nil_iff.mp hrest) hall
    | cons c behind =>
      rw [hrest] at hsplit hstop
      have hc : c ∈ whole := by
        rw [← hsplit]
        simp
      have hnone : readMagnitude negative (whole.takeWhile isDecimal ++ c :: (behind ++
          '.' :: fraction)) = none :=
        readMagnitude_of_not_isDecimal (fun d hd => mem_takeWhile_imp hd) (hwhole c hc)
          (NotNext.cons_iff.mp hstop) negative
      have hwhole' : whole.takeWhile isDecimal ++ c :: (behind ++ '.' :: fraction) =
          whole ++ '.' :: fraction := by
        conv => rhs; rw [← hsplit]
        simp
      rw [hwhole'] at hnone
      rw [hnone, List.forall_mem_append]
      simp [hall]

/-- Decimal digits around a point denote the number that they show, so many places behind the
point. -/
theorem readMagnitude_of_isDecimal (hne : whole ≠ []) (hwhole : ∀ c ∈ whole, isDecimal c = true)
    (hfraction : ∀ c ∈ fraction, isDecimal c = true) (negative : Bool) :
    readMagnitude negative (whole ++ '.' :: fraction) =
      some (.ofDecimal negative (ofDigits (digitValues (whole ++ fraction)))
        (-(fraction.length : Int))) := by
  have hstop : NotNext isDecimal ('.' :: fraction) := NotNext.cons_iff.mpr (by decide)
  unfold readMagnitude
  rw [hstop.takeWhile_append hwhole, hstop.dropWhile_append hwhole]
  dsimp only
  rw [if_neg (by simp [hne])]
  simp [List.takeWhile_eq_self_iff.mpr hfraction, List.dropWhile_eq_nil_iff.mpr hfraction,
    readExponent]

/-- What is made of digits and a point is read as it stands: it has no blanks, no sign and no
separators. -/
theorem readReal_of_isDigit (hne : whole ≠ []) (hwhole : ∀ c ∈ whole, isDigit c = true)
    (hfraction : ∀ c ∈ fraction, isDigit c = true) (value : Binary64) :
    readReal (String.ofList (whole ++ '.' :: fraction)) = .ok value ↔
      readMagnitude false (whole ++ '.' :: fraction) = some value := by
  have hmember : ∀ c ∈ whole ++ '.' :: fraction, isDigit c = true ∨ c = '.' := by
    intro c hc
    rcases List.mem_append.mp hc with hc | hc
    · exact Or.inl (hwhole c hc)
    · rcases List.mem_cons.mp hc with rfl | hc
      · exact Or.inr rfl
      · exact Or.inl (hfraction c hc)
  have hblank : ∀ c ∈ whole ++ '.' :: fraction, isNumeralBlank c = false := by
    intro c hc
    rcases hmember c hc with hdigit | rfl
    · exact isNumeralBlank_of_isDigit hdigit
    · decide
  have hseparator : ∀ c ∈ whole ++ '.' :: fraction, c ≠ '_' := by
    intro c hc
    rcases hmember c hc with hdigit | rfl
    · exact ne_of_isDigit hdigit (by decide)
    · decide
  have htrimmed : trimmed (whole ++ '.' :: fraction) = whole ++ '.' :: fraction :=
    trimmed_eq_self (fun c hc => hblank c (List.mem_of_mem_head? hc))
      (fun c hc => hblank c (List.mem_of_mem_getLast? hc))
  have hfit : separatorsFit false (whole ++ '.' :: fraction) = true :=
    separatorsFit_of_not_mem (fun hmem => hseparator _ hmem rfl) false
  have hfilter : (whole ++ '.' :: fraction).filter (· != '_') = whole ++ '.' :: fraction :=
    List.filter_eq_self.mpr fun c hc => by simpa using hseparator c hc
  have hsigned : signed (whole ++ '.' :: fraction) = (false, whole ++ '.' :: fraction) := by
    refine signed_of_isDigit fun c hc => hwhole c ?_
    rw [List.head?_append, Option.or_of_isSome (by simpa using hne)] at hc
    exact List.mem_of_mem_head? hc
  unfold readReal
  rw [String.toList_ofList, htrimmed]
  dsimp only
  rw [hfit, hfilter, hsigned]
  dsimp only
  cases readMagnitude false (whole ++ '.' :: fraction) <;> simp

/-- A real number that is made of digits and a point denotes a number if all the digits are decimal
digits. -/
theorem readReal_ok_iff (hne : whole ≠ []) (hwhole : ∀ c ∈ whole, isDigit c = true)
    (hfraction : ∀ c ∈ fraction, isDigit c = true) :
    (∃ value, readReal (String.ofList (whole ++ '.' :: fraction)) = .ok value) ↔
      ∀ c ∈ whole ++ fraction, isDecimal c = true := by
  simp only [readReal_of_isDigit hne hwhole hfraction, ← Option.isSome_iff_exists]
  exact readMagnitude_isSome_iff hne hwhole hfraction false

/-! ## The number that is read -/

theorem shape_ofPattern_ne_nan {pattern : Nat} (h : pattern ≤ Binary64.infinityPattern)
    (negative : Bool) : (Binary64.ofPattern negative pattern).shape ≠ .nan := by
  have hpattern : (Binary64.ofPattern negative pattern).pattern = pattern := by
    cases negative <;>
      simp [Binary64.pattern, Binary64.ofPattern, Binary64.infinityPattern, Binary64.fieldWeight,
        Binary64.signWeight] at h ⊢ <;> omega
  have hweight : Binary64.fieldWeight = 4503599627370496 := rfl
  unfold Binary64.shape
  rw [hpattern]
  unfold Binary64.infinityPattern at h
  rw [hweight] at h ⊢
  dsimp only
  by_cases hfield : pattern / 4503599627370496 = 0x7ff
  · rw [if_pos hfield, if_pos (by omega)]
    simp
  · rw [if_neg hfield]
    split <;> simp

theorem shape_ofDecimal_ne_nan (negative : Bool) (m : Nat) (x : Int) :
    (Binary64.ofDecimal negative m x).shape ≠ .nan := by
  unfold Binary64.ofDecimal
  split
  · exact shape_ofPattern_ne_nan (Nat.zero_le _) negative
  · split
    · exact shape_ofPattern_ne_nan (Nat.le_refl _) negative
    · exact shape_ofPattern_ne_nan (Nat.min_le_right _ _) negative

/-- What starts with a digit is read as a number, not as the name of what is none. -/
theorem shape_readMagnitude_ne_nan {c : Char} {cs : List Char} (hc : isDigit c = true)
    {negative : Bool} {value : Binary64} (h : readMagnitude negative (c :: cs) = some value) :
    value.shape ≠ .nan := by
  unfold readMagnitude at h
  dsimp only at h
  -- With a point and without one.
  split at h
  all_goals
    split at h
    · split at h
      · next hname => exact absurd hname (ofList_map_toLower_ne hc (d := 'i') (by decide) _ rfl)
      · next hname => exact absurd hname (ofList_map_toLower_ne hc (d := 'i') (by decide) _ rfl)
      · next hname => exact absurd hname (ofList_map_toLower_ne hc (d := 'n') (by decide) _ rfl)
      · cases h
    · rcases Option.map_eq_some_iff.mp h with ⟨exponent, -, rfl⟩
      exact shape_ofDecimal_ne_nan _ _ _

/-- No digits denote what is no number. -/
theorem shape_readReal_ne_nan {c : Char} {cs : List Char}
    (hwhole : ∀ d ∈ c :: cs, isDigit d = true) (hfraction : ∀ d ∈ fraction, isDigit d = true)
    {value : Binary64} (h : readReal (String.ofList (c :: cs ++ '.' :: fraction)) = .ok value) :
    value.shape ≠ .nan :=
  shape_readMagnitude_ne_nan (hwhole c (by simp))
    ((readReal_of_isDigit (List.cons_ne_nil c cs) hwhole hfraction value).mp h)

end Numeral

end ScriptCheck
