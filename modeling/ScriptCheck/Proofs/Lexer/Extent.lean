import ScriptCheck.Lexer.Lexeme

/-!
# How far lexemes reach

The functions that say how far blanks, numbers, strings and operators reach take as much as they
can. Here each of them is met by a description of what may be taken and of what may not come behind
it: `Gap` for blanks and comments, `numberForm_eq_integer_iff` and `numberForm_eq_real_iff` for
numbers, `IsBody` for the inside of a string, `longest?_eq_some_iff` and `longest?_eq_none_iff` for
operators.
-/

namespace ScriptCheck

open ScriptCheck.Text ScriptCheck.Lexeme

/-- Whether the next character, if there is one, is not of the class `p`. -/
def NotNext (p : Char → Bool) (r : List Char) : Prop :=
  ∀ c ∈ r.head?, p c = false

namespace NotNext

variable {p q : Char → Bool} {c : Char} {r : List Char}

theorem nil (p : Char → Bool) : NotNext p [] := by
  simp [NotNext]

theorem cons_iff : NotNext p (c :: r) ↔ p c = false := by
  simp [NotNext]

theorem mono (himp : ∀ c, q c = true → p c = true) (h : NotNext p r) : NotNext q r := by
  intro c hc
  rw [← Bool.not_eq_true]
  intro hq
  have hp := h c hc
  rw [himp c hq] at hp
  exact absurd hp (by decide)

theorem takeWhile_eq (h : NotNext p r) : r.takeWhile p = [] := by
  cases r with
  | nil => rfl
  | cons c r => simp [cons_iff.mp h]

theorem dropWhile_eq (h : NotNext p r) : r.dropWhile p = r := by
  cases r with
  | nil => rfl
  | cons c r => simp [cons_iff.mp h]

theorem dropWhile (p : Char → Bool) (cs : List Char) : NotNext p (cs.dropWhile p) := by
  intro c hc
  have hhead := List.head?_dropWhile_not p cs
  rw [Option.mem_def.mp hc] at hhead
  exact hhead

/-- A run that nothing continues is all that is taken. -/
theorem takeWhile_append {w : List Char} (hw : ∀ c ∈ w, p c = true) (h : NotNext p r) :
    (w ++ r).takeWhile p = w := by
  rw [List.takeWhile_append_of_pos hw, h.takeWhile_eq, List.append_nil]

theorem dropWhile_append {w : List Char} (hw : ∀ c ∈ w, p c = true) (h : NotNext p r) :
    (w ++ r).dropWhile p = r := by
  rw [List.dropWhile_append_of_pos hw, h.dropWhile_eq]

end NotNext

theorem mem_takeWhile_imp {p : Char → Bool} {c : Char} {cs : List Char} (h : c ∈ cs.takeWhile p) :
    p c = true :=
  List.all_eq_true.mp (List.all_takeWhile (p := p) (l := cs)) c h

/-! ## Blanks and comments -/

/-- What may stand between tokens, in front of `rest`: blanks, and comments that go on up to an end
of line, which is not part of them, or to the end of the text. -/
inductive Gap : (gap rest : List Char) → Prop where
  | nil (rest : List Char) : Gap [] rest
  | blank {c : Char} {gap rest : List Char} :
      c = ' ' ∨ c = '\t' ∨ c = '\r' → Gap gap rest → Gap (c :: gap) rest
  | comment {body gap rest : List Char} :
      (∀ c ∈ body, c ≠ '\n') → (∀ c ∈ (gap ++ rest).head?, c = '\n') → Gap gap rest →
      Gap ('#' :: body ++ gap) rest

/-- Whether a gap may start with a character. -/
def startsGap (c : Char) : Bool :=
  isBlank c || c == '#'

theorem isBlank_iff {c : Char} : isBlank c = true ↔ c = ' ' ∨ c = '\t' ∨ c = '\r' := by
  simp [isBlank, or_assoc]

theorem blankLength_cons {c : Char} (h : isBlank c = true) (cs : List Char) :
    blankLength (c :: cs) = blankLength cs + 1 := by
  unfold blankLength
  simp only [List.takeWhile_cons_of_pos h, List.dropWhile_cons_of_pos h, List.length_cons]
  split <;> omega

theorem blankLength_comment (cs : List Char) :
    blankLength ('#' :: cs) = (cs.takeWhile isInLine).length + 1 := by
  have hno : isBlank '#' = false := by decide
  unfold blankLength
  simp [hno, Nat.add_comm]

theorem blankLength_of_notNext {cs : List Char} (h : NotNext startsGap cs) :
    blankLength cs = 0 := by
  have hblank : NotNext isBlank cs := h.mono fun c hc => by simp [startsGap, hc]
  unfold blankLength
  rw [hblank.takeWhile_eq, hblank.dropWhile_eq]
  split
  · next rest =>
    have hno := NotNext.cons_iff.mp h
    exact absurd hno (by decide)
  · rfl

/-- What is skipped in front of a token is a gap, and no other gap follows. -/
theorem exists_gap (cs : List Char) :
    ∃ gap rest, cs = gap ++ rest ∧ gap.length = blankLength cs ∧ Gap gap rest ∧
      NotNext startsGap rest := by
  induction cs with
  | nil => exact ⟨[], [], rfl, rfl, .nil [], .nil _⟩
  | cons c cs ih =>
    by_cases hblank : isBlank c = true
    · rcases ih with ⟨gap, rest, rfl, hlength, hgap, hrest⟩
      refine ⟨c :: gap, rest, rfl, ?_, .blank (isBlank_iff.mp hblank) hgap, hrest⟩
      rw [blankLength_cons hblank, List.length_cons, hlength]
    · by_cases hcomment : c = '#'
      · subst hcomment
        have hstop := NotNext.dropWhile isInLine cs
        -- Behind the comment comes an end of line, which no gap starts with.
        have hend : ∀ c ∈ (cs.dropWhile isInLine).head?, c = '\n' := by
          intro c hc
          simpa [isInLine] using hstop c hc
        refine ⟨'#' :: cs.takeWhile isInLine ++ [], cs.dropWhile isInLine, ?_, ?_, ?_, ?_⟩
        · simp
        · rw [blankLength_comment]
          simp
        · refine .comment ?_ hend (.nil _)
          intro c hc
          simpa [isInLine] using mem_takeWhile_imp hc
        · intro c hc
          rw [hend c hc]
          decide
      · have hno : NotNext startsGap (c :: cs) := by
          rw [NotNext.cons_iff]
          simp [startsGap, hblank, hcomment]
        exact ⟨[], c :: cs, rfl, (blankLength_of_notNext hno).symm, .nil _, hno⟩

/-- A gap is skipped as a whole. -/
theorem Gap.blankLength_append {gap rest : List Char} (h : Gap gap rest)
    (hrest : NotNext startsGap rest) : blankLength (gap ++ rest) = gap.length := by
  induction h with
  | nil rest => exact blankLength_of_notNext hrest
  | blank hc _ ih =>
    rw [List.cons_append, blankLength_cons (isBlank_iff.mpr hc), ih hrest, List.length_cons]
  | @comment body gap rest hbody hend hgap ih =>
    -- What follows the comment is no gap any more.
    have hnil : gap = [] := by
      cases hgap with
      | nil _ => rfl
      | @blank c gap _ hc _ =>
        have hline : c = '\n' := hend c (by simp)
        rw [hline] at hc
        exact absurd hc (by decide)
      | comment _ _ _ => exact absurd (hend '#' (by simp)) (by decide)
    subst hnil
    have hinside : ∀ c ∈ body, isInLine c = true := by
      intro c hc
      simpa [isInLine] using hbody c hc
    have hstop : NotNext isInLine rest := by
      intro c hc
      simpa [isInLine] using hend c hc
    rw [List.append_nil, List.cons_append, blankLength_comment, hstop.takeWhile_append hinside,
      List.length_cons]

/-! ## Numbers -/

/-- Whether a number could go on with a character. -/
def continuesNumber (c : Char) : Bool :=
  isDigit c || c == '.'

theorem NotNext.digit {r : List Char} (h : NotNext continuesNumber r) : NotNext isDigit r :=
  h.mono fun c hc => by simp [continuesNumber, hc]

theorem isDigit_point : isDigit '.' = false := by
  decide

/-- Behind digits that no point follows, a number does not go on. -/
theorem NotNext.dropWhile_digit {cs : List Char}
    (h : ∀ r, cs.dropWhile isDigit = '.' :: r → False) :
    NotNext continuesNumber (cs.dropWhile isDigit) := by
  intro c hc
  have hdigit := NotNext.dropWhile isDigit cs c hc
  have hpoint : c ≠ '.' := by
    rintro rfl
    cases hrest : cs.dropWhile isDigit with
    | nil => simp [hrest] at hc
    | cons d r =>
      obtain rfl : d = '.' := by simpa [hrest] using hc
      exact h r hrest
  simp [continuesNumber, hdigit, hpoint]

/-- Digits that neither a digit nor a point follows make an integer. -/
theorem numberForm_eq_integer_iff {cs w : List Char} :
    numberForm cs = .integer w ↔
      ∃ r, cs = w ++ r ∧ (∀ c ∈ w, isDigit c = true) ∧ NotNext continuesNumber r := by
  constructor
  · intro h
    unfold numberForm at h
    dsimp only at h
    split at h
    · split at h <;> cases h
    · next hno =>
      cases h
      exact ⟨cs.dropWhile isDigit, List.takeWhile_append_dropWhile.symm,
        fun c hc => mem_takeWhile_imp hc, .dropWhile_digit hno⟩
  · rintro ⟨r, rfl, hw, hr⟩
    unfold numberForm
    rw [hr.digit.takeWhile_append hw, hr.digit.dropWhile_append hw]
    dsimp only
    split
    · next rest =>
      have hno := NotNext.cons_iff.mp hr
      exact absurd hno (by decide)
    · rfl

/-- Digits around one point that neither a digit nor another point follows make a real number. -/
theorem numberForm_eq_real_iff {cs w : List Char} :
    numberForm cs = .real w ↔
      ∃ whole fraction r, w = whole ++ '.' :: fraction ∧ cs = w ++ r ∧
        (∀ c ∈ whole, isDigit c = true) ∧ (∀ c ∈ fraction, isDigit c = true) ∧
        NotNext continuesNumber r := by
  constructor
  · intro h
    unfold numberForm at h
    dsimp only at h
    split at h
    · next rest hrest =>
      split at h
      · cases h
      · next hno =>
        cases h
        refine ⟨cs.takeWhile isDigit, rest.takeWhile isDigit, rest.dropWhile isDigit, rfl, ?_,
          fun c hc => mem_takeWhile_imp hc, fun c hc => mem_takeWhile_imp hc,
          .dropWhile_digit hno⟩
        rw [List.append_assoc, List.cons_append, List.takeWhile_append_dropWhile, ← hrest,
          List.takeWhile_append_dropWhile]
    · cases h
  · rintro ⟨whole, fraction, r, rfl, rfl, hwhole, hfraction, hr⟩
    have hpoint : NotNext isDigit ('.' :: (fraction ++ r)) :=
      NotNext.cons_iff.mpr isDigit_point
    have hsplit : whole ++ '.' :: fraction ++ r = whole ++ '.' :: (fraction ++ r) := by simp
    unfold numberForm
    rw [hsplit, hpoint.takeWhile_append hwhole, hpoint.dropWhile_append hwhole]
    simp only [hr.digit.takeWhile_append hfraction, hr.digit.dropWhile_append hfraction]
    split
    · next rest =>
      have hno := NotNext.cons_iff.mp hr
      exact absurd hno (by decide)
    · rfl

/-- Digits around one point in front of another one make a malformed number. -/
theorem numberForm_eq_malformed_iff {cs w : List Char} :
    numberForm cs = .malformed w ↔
      ∃ whole fraction r, w = whole ++ '.' :: fraction ∧ cs = w ++ '.' :: r ∧
        (∀ c ∈ whole, isDigit c = true) ∧ ∀ c ∈ fraction, isDigit c = true := by
  constructor
  · intro h
    unfold numberForm at h
    dsimp only at h
    split at h
    · next rest hrest =>
      split at h
      · next r hr =>
        cases h
        refine ⟨cs.takeWhile isDigit, rest.takeWhile isDigit, r, rfl, ?_,
          fun c hc => mem_takeWhile_imp hc, fun c hc => mem_takeWhile_imp hc⟩
        rw [List.append_assoc, List.cons_append, ← hr, List.takeWhile_append_dropWhile, ← hrest,
          List.takeWhile_append_dropWhile]
      · cases h
    · cases h
  · rintro ⟨whole, fraction, r, rfl, rfl, hwhole, hfraction⟩
    have hpoint : ∀ cs, NotNext isDigit ('.' :: cs) := fun _ => NotNext.cons_iff.mpr isDigit_point
    unfold numberForm
    rw [List.append_assoc, List.cons_append, (hpoint _).takeWhile_append hwhole,
      (hpoint _).dropWhile_append hwhole]
    simp only [(hpoint r).takeWhile_append hfraction,
      (hpoint r).dropWhile_append hfraction]

/-! ## Strings -/

/-- The characters of a text that stand for themselves or close it, and are not taken along by a
backslash. -/
def unescaped : List Char → List Char
  | [] => []
  | '\\' :: [] => []
  | '\\' :: _ :: rest => unescaped rest
  | c :: rest => c :: unescaped rest

/-- What may stand inside a string: a backslash comes together with another character, and the
quote comes only behind a backslash. -/
inductive IsBody (quote : Char) : List Char → Prop where
  | nil : IsBody quote []
  | escape (c : Char) {cs : List Char} : IsBody quote cs → IsBody quote ('\\' :: c :: cs)
  | plain {c : Char} {cs : List Char} : c ≠ '\\' → c ≠ quote → IsBody quote cs →
      IsBody quote (c :: cs)

theorem unescaped_cons_of_ne {c : Char} (h : c ≠ '\\') (cs : List Char) :
    unescaped (c :: cs) = c :: unescaped cs := by
  rw [unescaped]
  · rintro rfl _
    exact h rfl
  · rintro d rest rfl _
    exact h rfl

theorem stringBody_cons_of_ne {quote c : Char} (h : c ≠ '\\') (cs : List Char) :
    stringBody quote (c :: cs) = if c = quote then [] else c :: stringBody quote cs := by
  rw [stringBody]
  · rintro rfl _
    exact h rfl
  · rintro d rest rfl _
    exact h rfl

namespace IsBody

variable {quote : Char} {body : List Char}

/-- The quote does not occur by itself. -/
theorem not_mem_unescaped (h : IsBody quote body) : quote ∉ unescaped body := by
  induction h with
  | nil => simp [unescaped]
  | escape c _ ih => rwa [unescaped]
  | plain hc hne _ ih =>
    rw [unescaped_cons_of_ne hc, List.mem_cons, not_or]
    exact ⟨hne.symm, ih⟩

/-- Inside of one pair of quotes, a text may stand inside of another that does not occur in it by
itself. -/
theorem requote {quote' : Char} (h : IsBody quote body) (hno : quote' ∉ unescaped body) :
    IsBody quote' body := by
  induction h with
  | nil => exact .nil
  | escape c _ ih =>
    rw [unescaped] at hno
    exact .escape c (ih hno)
  | plain hc _ _ ih =>
    rw [unescaped_cons_of_ne hc, List.mem_cons, not_or] at hno
    exact .plain hc (Ne.symm hno.1) (ih hno.2)

/-- The quote ends what may stand inside a string. -/
theorem stringBody_eq (h : IsBody quote body) (hquote : quote ≠ '\\') (r : List Char) :
    stringBody quote (body ++ quote :: r) = body := by
  induction h with
  | nil =>
    rw [List.nil_append, stringBody_cons_of_ne hquote, if_pos rfl]
  | escape c _ ih => rw [List.cons_append, List.cons_append, stringBody, ih]
  | plain hc hne _ ih => rw [List.cons_append, stringBody_cons_of_ne hc, if_neg hne, ih]

end IsBody

/-- Where something comes behind the inside of a string, it is the quote. -/
theorem exists_of_stringBody {quote c : Char} {cs r : List Char}
    (h : cs.drop (stringBody quote cs).length = c :: r) :
    IsBody quote (stringBody quote cs) ∧ c = quote ∧ cs = stringBody quote cs ++ quote :: r := by
  fun_induction stringBody quote cs with
  | case1 => simp at h
  | case2 => simp at h
  | case3 d rest ih =>
    rcases ih (by simpa using h) with ⟨hbody, hc, hrest⟩
    exact ⟨.escape d hbody, hc, by rw [List.cons_append, List.cons_append, ← hrest]⟩
  | case4 rest _ =>
    obtain ⟨rfl, rfl⟩ : quote = c ∧ rest = r := by simpa using h
    exact ⟨.nil, rfl, rfl⟩
  | case5 d rest hescape hlast hne ih =>
    rcases ih (by simpa using h) with ⟨hbody, hc, hrest⟩
    refine ⟨.plain ?_ hne hbody, hc, by rw [List.cons_append, ← hrest]⟩
    rintro rfl
    cases rest with
    | nil => exact hescape rfl rfl
    | cons e rest => exact hlast e rest rfl rfl

/-- Nothing comes behind the inside of a string if the quote does not occur by itself. -/
theorem drop_stringBody_eq_nil_iff {quote : Char} (cs : List Char) :
    cs.drop (stringBody quote cs).length = [] ↔ quote ∉ unescaped cs := by
  fun_induction unescaped cs with
  | case1 => simp [stringBody]
  | case2 => simp [stringBody]
  | case3 d rest ih => simpa [stringBody] using ih
  | case4 c rest hlast hescape ih =>
    have hc : c ≠ '\\' := by
      rintro rfl
      cases rest with
      | nil => exact hlast rfl rfl
      | cons d rest => exact hescape d rest rfl rfl
    rw [stringBody_cons_of_ne hc, List.mem_cons, not_or, ← ih]
    by_cases heq : c = quote
    · simp [heq]
    · simp [heq, Ne.symm heq]

/-! ## Operators -/

namespace Operator

theorem ofSymbol?_symbol (op : Operator) : ofSymbol? op.symbol = some op := by
  cases op <;> decide

theorem ofSymbol?_eq_some_iff {s : String} {op : Operator} :
    ofSymbol? s = some op ↔ op.symbol = s := by
  constructor
  · intro h
    simpa [ofSymbol?] using List.find?_some h
  · rintro rfl
    exact ofSymbol?_symbol op

theorem symbol_injective {op op' : Operator} (h : op.symbol = op'.symbol) : op = op' := by
  have hsame := ofSymbol?_symbol op
  rw [h, ofSymbol?_symbol] at hsame
  exact (Option.some.inj hsame).symm

/-- Whether a text starts with an operator. -/
def Starts (op : Operator) (cs : List Char) : Prop :=
  op.symbol.toList <+: cs

theorem starts_iff {op : Operator} {cs : List Char} :
    op.Starts cs ↔ ofSymbol? (String.ofList (cs.take op.symbol.length)) = some op := by
  rw [ofSymbol?_eq_some_iff, Starts, List.prefix_iff_eq_take, String.length_toList,
    ← String.toList_inj, String.toList_ofList]

/-- Whether an operator of two characters may end in a character. -/
def isSecond (c : Char) : Bool :=
  c == '=' || c == '*' || c == '?'

theorem exists_symbol (op : Operator) :
    ∃ a bs, op.symbol.toList = a :: bs ∧ bs.length ≤ 1 ∧ ∀ b ∈ bs, isSecond b = true := by
  cases op <;> exact ⟨_, _, rfl, by decide, List.all_eq_true.mp (by decide)⟩

theorem length_symbol (op : Operator) : op.symbol.length = 1 ∨ op.symbol.length = 2 := by
  rcases op.exists_symbol with ⟨a, bs, hsymbol, hlength, -⟩
  rw [← String.length_toList, hsymbol, List.length_cons]
  omega

variable {op op' : Operator} {cs : List Char}

theorem Starts.length_le (h : op.Starts cs) : op.symbol.length ≤ cs.length := by
  rw [← String.length_toList]
  exact List.IsPrefix.length_le h

/-- The operator that is found is at the front, and none that is there is longer. -/
theorem starts_of_longest? (h : longest? cs = some op) :
    op.Starts cs ∧ ∀ op', Starts op' cs → op'.symbol.length ≤ op.symbol.length := by
  unfold longest? at h
  cases htwo : ofSymbol? (String.ofList (cs.take 2)) with
  | some op₂ =>
    obtain rfl : op₂ = op := by simpa [htwo] using h
    have hsymbol := ofSymbol?_eq_some_iff.mp htwo
    have hlist : op₂.symbol.toList = cs.take 2 := by rw [hsymbol, String.toList_ofList]
    refine ⟨?_, fun op' h' => ?_⟩
    · rw [Starts, hlist]
      exact List.take_prefix 2 cs
    · have hbound := h'.length_le
      have hlength := op'.length_symbol
      rw [← String.length_toList (s := op₂.symbol), hlist, List.length_take]
      omega
  | none =>
    have hone : ofSymbol? (String.ofList (cs.take 1)) = some op := by simpa [htwo] using h
    have hsymbol := ofSymbol?_eq_some_iff.mp hone
    have hlist : op.symbol.toList = cs.take 1 := by rw [hsymbol, String.toList_ofList]
    refine ⟨?_, fun op' h' => ?_⟩
    · rw [Starts, hlist]
      exact List.take_prefix 1 cs
    · rcases op'.length_symbol with hlength | hlength
      · have hpos := op.length_symbol
        omega
      · -- An operator of two characters would have been found first.
        have htaken := starts_iff.mp h'
        rw [hlength, htwo] at htaken
        cases htaken

theorem not_starts_of_longest? (h : longest? cs = none) (op : Operator) : ¬ op.Starts cs := by
  intro hstarts
  unfold longest? at h
  have htaken := starts_iff.mp hstarts
  rcases op.length_symbol with hlength | hlength
  · rw [hlength] at htaken
    cases htwo : ofSymbol? (String.ofList (cs.take 2)) <;> simp [htwo, htaken] at h
  · rw [hlength] at htaken
    simp [htaken] at h

/-- The operator that is found is the longest at the front. -/
theorem longest?_eq_some_iff :
    longest? cs = some op ↔
      op.Starts cs ∧ ∀ op', Starts op' cs → op'.symbol.length ≤ op.symbol.length := by
  constructor
  · exact starts_of_longest?
  · rintro ⟨hstarts, hlongest⟩
    cases hfound : longest? cs with
    | none => exact absurd hstarts (not_starts_of_longest? hfound op)
    | some found =>
      rcases starts_of_longest? hfound with ⟨hstarts', hlongest'⟩
      -- Both are at the front, and neither is longer.
      have hlength : found.symbol.toList.length = op.symbol.toList.length := by
        rw [String.length_toList, String.length_toList]
        exact Nat.le_antisymm (hlongest found hstarts') (hlongest' op hstarts)
      have hstart := List.prefix_of_prefix_length_le hstarts' hstarts (Nat.le_of_eq hlength)
      rw [symbol_injective (String.toList_inj.mp (hstart.eq_of_length hlength))]

theorem longest?_eq_none_iff : longest? cs = none ↔ ∀ op : Operator, ¬ op.Starts cs := by
  constructor
  · exact not_starts_of_longest?
  · intro hno
    cases hfound : longest? cs with
    | none => rfl
    | some op => exact absurd (starts_of_longest? hfound).1 (hno op)

/-- In front of a character that is the second of no operator, an operator does not reach beyond
what is there already. -/
theorem Starts.of_append {w r : List Char} (h : op.Starts (w ++ r)) (hw : w ≠ [])
    (hr : NotNext isSecond r) : op.Starts w := by
  rcases op.exists_symbol with ⟨a, bs, hsymbol, hlength, hsecond⟩
  unfold Starts at h ⊢
  rw [hsymbol] at h ⊢
  cases w with
  | nil => exact absurd rfl hw
  | cons c w =>
    rcases List.cons_prefix_cons.mp h with ⟨rfl, hrest⟩
    refine List.cons_prefix_cons.mpr ⟨rfl, ?_⟩
    cases bs with
    | nil => exact List.nil_prefix
    | cons b bs =>
      obtain rfl : bs = [] := List.eq_nil_of_length_eq_zero (by simpa using hlength)
      cases w with
      | nil =>
        cases r with
        | nil => simp at hrest
        | cons d r =>
          obtain ⟨rfl, -⟩ := List.cons_prefix_cons.mp hrest
          have hno := NotNext.cons_iff.mp hr
          rw [hsecond b (by simp)] at hno
          cases hno
      | cons d w =>
        obtain ⟨rfl, -⟩ := List.cons_prefix_cons.mp hrest
        exact List.cons_prefix_cons.mpr ⟨rfl, List.nil_prefix⟩

end Operator

end ScriptCheck
