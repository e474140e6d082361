import Mathlib.Algebra.BigOperators.Fin
import Mathlib.Tactic.Ring
import ScriptCheck.Proofs.Lexer.Malformed

/-!
# What a number comes to

Where a digit stands, the digits and points that go on from it decide what comes of the number. With
two points it is malformed, and reading stops in front of the second one. Otherwise all of them are
taken, and either they denote none (`DenotesNone`) or they make a token, whose value is the sum of
its digits in base ten (`decimalSum`). The text of that token is all that its value depends on
(`Stream.readNumber_outcome`).
-/

namespace ScriptCheck

open ScriptCheck.Text ScriptCheck.Lexeme

/-! ## Base ten -/

/-- What a character is worth as a decimal digit, of whatever script. -/
def digitValue (c : Char) : Nat :=
  (decimalValue? c).getD 0

/-- What a row of digits denotes: each is worth its value times the power of ten of its place. -/
def decimalSum (w : List Char) : Nat :=
  ∑ i : Fin w.length, digitValue w[i] * 10 ^ (w.length - 1 - i)

/-- The first digit counts for as many tens as there are digits behind it. -/
theorem decimalSum_cons (c : Char) (w : List Char) :
    decimalSum (c :: w) = digitValue c * 10 ^ w.length + decimalSum w := by
  refine (Fin.sum_univ_succ (n := w.length) _).trans ?_
  congr 1
  apply Finset.sum_congr rfl
  intro i _
  have hplace : (c :: w).length - 1 - i.succ = w.length - 1 - i := by
    simp only [List.length_cons, Fin.val_succ]
    omega
  rw [hplace]
  rfl

namespace Numeral

variable {w whole fraction : List Char}

theorem foldl_digitValues (hw : ∀ c ∈ w, isDecimal c = true) (n : Nat) :
    (digitValues w).foldl (fun n d => 10 * n + d) n = n * 10 ^ w.length + decimalSum w := by
  induction w generalizing n with
  | nil => simp [digitValues, decimalSum]
  | cons c w ih =>
    rcases List.forall_mem_cons.mp hw with ⟨hc, hw⟩
    rcases Option.isSome_iff_exists.mp hc with ⟨value, hvalue⟩
    have hfirst : digitValue c = value := by rw [digitValue, hvalue, Option.getD_some]
    have hrest := ih hw (10 * n + value)
    rw [digitValues] at hrest ⊢
    rw [List.filterMap_cons_some hvalue, List.foldl_cons, hrest, decimalSum_cons, hfirst,
      List.length_cons, Nat.pow_succ]
    ring

/-- Reading digits one after the other adds them up. -/
theorem ofDigits_digitValues (hw : ∀ c ∈ w, isDecimal c = true) :
    ofDigits (digitValues w) = decimalSum w := by
  rw [ofDigits, foldl_digitValues hw, Nat.zero_mul, Nat.zero_add]

end Numeral

/-- Whether digits and points denote no number: a digit is no decimal digit, or they are an integer
of too many digits. -/
def DenotesNone (run : List Char) : Prop :=
  (∃ c ∈ run, c ≠ '.' ∧ isDecimal c = false) ∨ '.' ∉ run ∧ 4300 < run.length

theorem denotesNone_iff_any {run : List Char} :
    DenotesNone run ↔ (run.any (fun c => c != '.' && !isDecimal c) ||
      !run.contains '.' && decide (4300 < run.length)) = true := by
  simp [DenotesNone]

instance : DecidablePred DenotesNone :=
  fun _ => decidable_of_iff _ denotesNone_iff_any.symm

/-- Digits and points denote this value: an integer without a point, and with one the floating-point
number nearest to the digits with so many of them behind the point. -/
inductive Denotes : (run : List Char) → Literal → Prop where
  | integer {w : List Char} : '.' ∉ w → Denotes w (.int (decimalSum w))
  | real {whole fraction : List Char} : '.' ∉ whole → '.' ∉ fraction →
      Denotes (whole ++ '.' :: fraction)
        (.float (.ofDecimal false (decimalSum (whole ++ fraction)) (-(fraction.length : Int))))

/-- Without a point, digits denote their sum and nothing else. -/
theorem Denotes.eq_int {run : List Char} {value : Literal} (h : Denotes run value)
    (hpoint : '.' ∉ run) : value = .int (decimalSum run) := by
  cases h with
  | integer _ => rfl
  | real _ _ => exact absurd (by simp) hpoint

theorem point_not_mem {w : List Char} (hw : ∀ c ∈ w, isDigit c = true) : '.' ∉ w :=
  fun hmem => ne_of_isDigit (hw _ hmem) isDigit_point rfl

namespace Numeral

variable {w whole fraction : List Char}

theorem denotesNone_integer_iff (hw : ∀ c ∈ w, isDigit c = true) :
    DenotesNone w ↔ ¬ ((∀ c ∈ w, isDecimal c = true) ∧ w.length ≤ digitLimit) := by
  have hdecimal : (∃ c ∈ w, c ≠ '.' ∧ isDecimal c = false) ↔ ¬ ∀ c ∈ w, isDecimal c = true := by
    simp only [not_forall, Bool.not_eq_true, exists_prop]
    constructor
    · rintro ⟨c, hc, -, hno⟩
      exact ⟨c, hc, hno⟩
    · rintro ⟨c, hc, hno⟩
      exact ⟨c, hc, ne_of_isDigit (hw c hc) isDigit_point, hno⟩
  rw [DenotesNone, hdecimal, and_iff_right (point_not_mem hw), digitLimit, not_and_or, Nat.not_le]

theorem denotesNone_real_iff (hwhole : ∀ c ∈ whole, isDigit c = true)
    (hfraction : ∀ c ∈ fraction, isDigit c = true) :
    DenotesNone (whole ++ '.' :: fraction) ↔ ¬ ∀ c ∈ whole ++ fraction, isDecimal c = true := by
  have hdigit : ∀ c ∈ whole ++ fraction, isDigit c = true :=
    List.forall_mem_append.mpr ⟨hwhole, hfraction⟩
  rw [DenotesNone, or_iff_left fun h => h.1 (by simp)]
  simp only [not_forall, Bool.not_eq_true, exists_prop]
  constructor
  · rintro ⟨c, hc, hpoint, hno⟩
    refine ⟨c, ?_, hno⟩
    simpa [hpoint] using hc
  · rintro ⟨c, hc, hno⟩
    refine ⟨c, ?_, ne_of_isDigit (hdigit c hc) isDigit_point, hno⟩
    rcases List.mem_append.mp hc with hc | hc
    · exact List.mem_append_left _ hc
    · exact List.mem_append_right _ (List.mem_cons_of_mem _ hc)

end Numeral

/-! ## The value of a text -/

namespace Token

variable {line column : Int} {w whole fraction : List Char}

/-- A number token of the given text that carries no value. -/
def bareNumber (line column : Int) (text : List Char) : Token where
  kind := .number
  text := String.ofList text
  line := line
  column := column

theorem numberValue_integer (hw : ∀ c ∈ w, isDigit c = true) :
    (bareNumber line column w).numberValue =
      Literal.int <$> Numeral.readInteger (String.ofList w) := by
  simp [numberValue, bareNumber, point_not_mem hw]

theorem numberValue_real :
    (bareNumber line column (whole ++ '.' :: fraction)).numberValue =
      Literal.float <$> Numeral.readReal (String.ofList (whole ++ '.' :: fraction)) := by
  simp [numberValue, bareNumber]

/-- Digits without a point denote an integer, the sum of the digits, or none. -/
theorem numberValue_integer_cases (hne : w ≠ []) (hw : ∀ c ∈ w, isDigit c = true) :
    (DenotesNone w ∧ ∃ fault, (bareNumber line column w).numberValue = .error fault) ∨
      ¬ DenotesNone w ∧ (bareNumber line column w).numberValue = .ok (.int (decimalSum w)) := by
  rw [Numeral.denotesNone_integer_iff hw, not_not, numberValue_integer hw]
  by_cases hok : (∀ c ∈ w, isDecimal c = true) ∧ w.length ≤ Numeral.digitLimit
  · refine Or.inr ⟨hok, ?_⟩
    rw [Numeral.readInteger_of_isDecimal hne hok.1, if_neg (Nat.not_lt.mpr hok.2),
      Numeral.ofDigits_digitValues hok.1]
    rfl
  · have hfault : ∃ fault, Numeral.readInteger (String.ofList w) = .error fault := by
      rwa [Numeral.exists_fault_iff, Numeral.readInteger_ok_iff hne hw]
    rcases hfault with ⟨fault, hfault⟩
    exact Or.inl ⟨hok, fault, by rw [hfault]; rfl⟩

/-- Digits around a point denote a real number, the one nearest to their sum shifted by so many
places, or none. -/
theorem numberValue_real_cases (hne : whole ≠ []) (hwhole : ∀ c ∈ whole, isDigit c = true)
    (hfraction : ∀ c ∈ fraction, isDigit c = true) :
    (DenotesNone (whole ++ '.' :: fraction) ∧
      ∃ fault, (bareNumber line column (whole ++ '.' :: fraction)).numberValue = .error fault) ∨
    ¬ DenotesNone (whole ++ '.' :: fraction) ∧
      (bareNumber line column (whole ++ '.' :: fraction)).numberValue =
        .ok (.float (.ofDecimal false (decimalSum (whole ++ fraction)) (-(fraction.length : Int))))
        := by
  rw [Numeral.denotesNone_real_iff hwhole hfraction, not_not, numberValue_real]
  by_cases hall : ∀ c ∈ whole ++ fraction, isDecimal c = true
  · refine Or.inr ⟨hall, ?_⟩
    have hparts := List.forall_mem_append.mp hall
    have hvalue := Numeral.readMagnitude_of_isDecimal hne hparts.1 hparts.2 false
    rw [Numeral.ofDigits_digitValues hall, ← Numeral.readReal_of_isDigit hne hwhole hfraction]
      at hvalue
    rw [hvalue]
    rfl
  · have hfault : ∃ fault,
        Numeral.readReal (String.ofList (whole ++ '.' :: fraction)) = .error fault := by
      rwa [Numeral.exists_fault_iff, Numeral.readReal_ok_iff hne hwhole hfraction]
    rcases hfault with ⟨fault, hfault⟩
    exact Or.inl ⟨hall, fault, by rw [hfault]; rfl⟩

end Token

/-! ## Reading a number -/

namespace Stream

variable {s : Stream} {c : Char} {rest : List Char} {line column : Int}

/-- The digits and points that go on from a place. -/
def numberRun (s : Stream) : List Char :=
  s.ahead.takeWhile continuesNumber

/-- A digit is the first of them. -/
theorem numberRun_ne_nil (hs : s.ahead = c :: rest) (hdigit : isDigit c = true) :
    s.numberRun ≠ [] := by
  rw [numberRun, hs, List.takeWhile_cons_of_pos (continuesNumber_of_isDigit hdigit)]
  exact List.cons_ne_nil _ _

/-- The lexer gives a number the value that the parser would give it. -/
theorem readNumber_eq (hpoints : s.numberRun.count '.' < 2) :
    s.readNumber line column =
      (((Token.bareNumber line column s.numberRun).numberValue.mapError .numeral).map fun value =>
        { Token.bareNumber line column s.numberRun with literal := some value },
        s.skip s.numberRun.length) := by
  rcases numberForm_cases s.ahead with ⟨w, hform, hrun, hw⟩ |
    ⟨whole, fraction, hform, hrun, hwhole, hfraction⟩ |
    ⟨whole, fraction, behind, hform, hrun, hwhole, hfraction⟩
  · rw [numberRun, hrun, readNumber_integer hform, Token.numberValue_integer hw]
    cases Numeral.readInteger (String.ofList w) <;> rfl
  · rw [numberRun, hrun, readNumber_real hform, Token.numberValue_real]
    cases Numeral.readReal (String.ofList (whole ++ '.' :: fraction)) <;> rfl
  · rw [numberRun, hrun, List.count_append, count_point_of_real hwhole hfraction,
      List.count_cons_self] at hpoints
    omega

/-- Without a second point it takes all of them, and they denote a value or none. -/
theorem numberValue_cases (hs : s.ahead = c :: rest) (hdigit : isDigit c = true)
    (hpoints : s.numberRun.count '.' < 2) :
    (DenotesNone s.numberRun ∧
      ∃ fault, (Token.bareNumber line column s.numberRun).numberValue = .error fault) ∨
    ¬ DenotesNone s.numberRun ∧ ∃ value, Denotes s.numberRun value ∧
      (Token.bareNumber line column s.numberRun).numberValue = .ok value := by
  have hne := numberRun_ne_nil hs hdigit
  rcases numberForm_cases s.ahead with ⟨w, -, hrun, hw⟩ |
    ⟨whole, fraction, -, hrun, hwhole, hfraction⟩ |
    ⟨whole, fraction, behind, -, hrun, hwhole, hfraction⟩
  · rw [numberRun, hrun] at hne ⊢
    rcases Token.numberValue_integer_cases hne hw with hnone | ⟨hsome, hvalue⟩
    · exact Or.inl hnone
    · exact Or.inr ⟨hsome, _, .integer (point_not_mem hw), hvalue⟩
  · -- The digit is in front of the point.
    have hfront : whole ≠ [] := by
      rintro rfl
      rw [hs, List.takeWhile_cons_of_pos (continuesNumber_of_isDigit hdigit)] at hrun
      exact ne_of_isDigit hdigit isDigit_point (List.cons.inj hrun).1
    rw [numberRun, hrun]
    rcases Token.numberValue_real_cases hfront hwhole hfraction with hnone | ⟨hsome, hvalue⟩
    · exact Or.inl hnone
    · exact Or.inr
        ⟨hsome, _, .real (point_not_mem hwhole) (point_not_mem hfraction), hvalue⟩
  · rw [numberRun, hrun, List.count_append, count_point_of_real hwhole hfraction,
      List.count_cons_self] at hpoints
    omega

/-- With two points it takes what is in front of the second one. -/
theorem readNumber_of_points (hpoints : 2 ≤ s.numberRun.count '.') :
    ∃ front behind, s.numberRun = front ++ '.' :: behind ∧ front.count '.' = 1 ∧
      s.readNumber line column = (.error (.malformedNumber line column), s.skip front.length) := by
  rcases numberForm_cases s.ahead with ⟨w, hform, hrun, hw⟩ |
    ⟨whole, fraction, hform, hrun, hwhole, hfraction⟩ |
    ⟨whole, fraction, behind, hform, hrun, hwhole, hfraction⟩
  · rw [numberRun, hrun, count_point_of_isDigit hw] at hpoints
    omega
  · rw [numberRun, hrun, count_point_of_real hwhole hfraction] at hpoints
    omega
  · exact ⟨_, behind, hrun, count_point_of_real hwhole hfraction, readNumber_malformed hform⟩

/-- A number is the next token where its first digit stands. -/
theorem nextToken_of_isDigit (hs : s.ahead = c :: rest) (hdigit : isDigit c = true) :
    s.nextToken = s.readNumber s.line s.column := by
  have hlength : blankLength s.ahead = 0 := by
    rw [hs]
    exact blankLength_of_notNext (NotNext.cons_iff.mpr (startsGap_of_isDigit hdigit).1)
  have hblanks : s.skipBlanks = s := by
    rw [skipBlanks, hlength]
    rfl
  simp only [nextToken, hblanks, hs]
  exact readToken_of_isDigit (isWordStart_of_isDigit hdigit) hdigit

/-- A number comes to one of three ends. Where a digit stands, the digits and points that go on from
it are malformed if there are two points among them, whatever else is, and reading stops in front of
the second one. Otherwise all of them are taken. There is no number if they denote none, and else
the token has them as its text and their value as its value, which is the value that the parser
finds in a token of this text. -/
theorem readNumber_outcome (hs : s.ahead = c :: rest) (hdigit : isDigit c = true)
    (line column : Int) :
    s.nextToken = s.readNumber s.line s.column ∧
    (2 ≤ s.numberRun.count '.' →
      ∃ front behind, s.numberRun = front ++ '.' :: behind ∧ front.count '.' = 1 ∧
        s.readNumber line column =
          (.error (.malformedNumber line column), s.skip front.length)) ∧
    (s.numberRun.count '.' < 2 →
      (s.readNumber line column).2 = s.skip s.numberRun.length ∧
      ((∃ fault, (s.readNumber line column).1 = .error (.numeral fault)) ↔
        DenotesNone s.numberRun) ∧
      (¬ DenotesNone s.numberRun → ∃ value, Denotes s.numberRun value ∧
        (s.readNumber line column).1 =
          .ok { kind := .number, text := String.ofList s.numberRun, line, column,
                literal := some value } ∧
        Token.numberValue
          { kind := .number, text := String.ofList s.numberRun, line, column, literal := none } =
          .ok value)) := by
  refine ⟨nextToken_of_isDigit hs hdigit, readNumber_of_points, fun hpoints => ?_⟩
  rw [readNumber_eq hpoints]
  refine ⟨rfl, ?_, ?_⟩
  · rcases numberValue_cases hs hdigit hpoints
      with ⟨hnone, fault, hvalue⟩ | ⟨hsome, value, -, hvalue⟩
    · rw [hvalue]
      exact iff_of_true ⟨fault, rfl⟩ hnone
    · rw [hvalue]
      refine iff_of_false ?_ hsome
      rintro ⟨fault, hfault⟩
      cases hfault
  · intro hsome
    rcases numberValue_cases hs hdigit hpoints
      with ⟨hnone, -⟩ | ⟨-, value, hdenotes, hvalue⟩
    · exact absurd hnone hsome
    · refine ⟨value, hdenotes, ?_, hvalue⟩
      rw [hvalue]
      rfl

/-- Digits of three scripts make one number. A digit that is no decimal digit keeps digits from
denoting any, unless there are two points among them. -/
theorem readNumber_outcome_mixedDigits :
    (ofText "\u09672\u0663 + 1").nextToken.1 =
        .ok { kind := .number, text := "\u09672\u0663", line := 1, column := 1,
              literal := some (.int 123) } ∧
      (∃ fault, ((ofText "1.\u00b2").readNumber 1 1).1 = .error (.numeral fault)) ∧
      ((ofText "1.\u00b2.3").readNumber 1 1).1 = .error (.malformedNumber 1 1) := by
  refine ⟨?_, ?_, ?_⟩
  · rcases readNumber_outcome (s := ofText "\u09672\u0663 + 1") rfl (by decide +kernel) 1 1
      with ⟨hnext, -, hone⟩
    rcases hone (by decide +kernel) with ⟨-, -, hvalue⟩
    have hsome : ¬ DenotesNone (ofText "\u09672\u0663 + 1").numberRun := by decide +kernel
    rcases hvalue hsome with ⟨value, hdenotes, htoken, -⟩
    have hsum : decimalSum (ofText "\u09672\u0663 + 1").numberRun = 123 := by decide +kernel
    have htext : String.ofList (ofText "\u09672\u0663 + 1").numberRun = "\u09672\u0663" := by
      decide +kernel
    rw [hdenotes.eq_int (by decide +kernel), hsum, htext] at htoken
    rw [hnext]
    exact htoken
  · rcases readNumber_outcome (s := ofText "1.\u00b2") rfl (by decide +kernel) 1 1
      with ⟨-, -, hone⟩
    rcases hone (by decide +kernel) with ⟨-, hnone, -⟩
    exact hnone.mpr (by decide +kernel)
  · rcases readNumber_outcome (s := ofText "1.\u00b2.3") rfl (by decide +kernel) 1 1
      with ⟨-, htwo, -⟩
    rcases htwo (by decide +kernel) with ⟨front, behind, -, -, hread⟩
    rw [hread]

end Stream

end ScriptCheck
