import Mathlib.Data.List.Forall2
import Mathlib.Data.List.Induction
import ScriptCheck.Proofs.Lexer.Lowering
import ScriptCheck.Source

/-!
# Carriage returns

A carriage return in front of a newline is a blank, or part of a comment, or inside a string. Where
every one is in front of a newline and none is inside a string that is closed, they may be left out:
the tokens are the same but for the columns of the ends of lines, which come right behind them, and
a text that is not divided into tokens fails at the same place (`tokenize_withoutReturns`). So it
makes no difference whether lines are unified before a text is read.
-/

namespace ScriptCheck

open ScriptCheck.Text ScriptCheck.Lexeme

/-! ## Texts -/

/-- Whether each carriage return is directly in front of a newline. -/
def ReturnsEndLines (cs : List Char) : Prop :=
  ∀ i : Nat, cs[i]? = some '\r' → cs[i + 1]? = some '\n'

/-- A text without its carriage returns. -/
def withoutReturns (cs : List Char) : List Char :=
  cs.filter (· != '\r')

theorem returnsEndLines_nil : ReturnsEndLines [] := by
  simp [ReturnsEndLines]

theorem returnsEndLines_cons {c : Char} {cs : List Char} :
    ReturnsEndLines (c :: cs) ↔ (c = '\r' → cs.head? = some '\n') ∧ ReturnsEndLines cs := by
  constructor
  · intro h
    refine ⟨fun hc => ?_, fun i hi => h (i + 1) hi⟩
    have hnext := h 0 (by simp [hc])
    simpa [List.head?_eq_getElem?] using hnext
  · rintro ⟨hhead, htail⟩ i hi
    cases i with
    | zero =>
      have hnext := hhead (by simpa using hi)
      simpa [List.head?_eq_getElem?] using hnext
    | succ i => exact htail i hi

instance : (cs : List Char) → Decidable (ReturnsEndLines cs)
  | [] => isTrue returnsEndLines_nil
  | _ :: cs =>
    have : Decidable (ReturnsEndLines cs) := instDecidableReturnsEndLines cs
    decidable_of_iff _ returnsEndLines_cons.symm

theorem ReturnsEndLines.of_append {v w : List Char} (h : ReturnsEndLines (v ++ w)) :
    ReturnsEndLines w := by
  induction v with
  | nil => exact h
  | cons c v ih => exact ih (returnsEndLines_cons.mp h).2

section

variable {c : Char} {cs v w : List Char}

@[simp] theorem withoutReturns_nil : withoutReturns [] = [] := rfl

@[simp] theorem withoutReturns_return : withoutReturns ('\r' :: cs) = withoutReturns cs := rfl

theorem withoutReturns_cons (h : c ≠ '\r') :
    withoutReturns (c :: cs) = c :: withoutReturns cs :=
  List.filter_cons_of_pos (by simpa using h)

@[simp] theorem withoutReturns_append :
    withoutReturns (v ++ w) = withoutReturns v ++ withoutReturns w :=
  List.filter_append v w

theorem withoutReturns_eq_self (h : '\r' ∉ cs) : withoutReturns cs = cs := by
  refine List.filter_eq_self.mpr fun c hc => ?_
  have hne : c ≠ '\r' := fun heq => h (heq ▸ hc)
  simpa using hne

/-- What comes next is the same, or the newline behind a carriage return. -/
theorem ReturnsEndLines.followsAs (h : ReturnsEndLines cs) :
    FollowsAs cs (withoutReturns cs) := by
  cases cs with
  | nil => simp [FollowsAs]
  | cons c cs =>
    by_cases hc : c = '\r'
    · subst hc
      rcases List.head?_eq_some_iff.mp ((returnsEndLines_cons.mp h).1 rfl) with ⟨more, rfl⟩
      rw [withoutReturns_return, withoutReturns_cons (by decide)]
      exact .newline _ _
    · rw [withoutReturns_cons hc]
      exact fun d hd => Or.inl hd

end

/-- Where each carriage return is in front of a newline, unifying the lines of a text leaves the
carriage returns out. -/
theorem unifyLines_eq {cs : List Char} (h : ReturnsEndLines cs) :
    Source.unifyLines cs = withoutReturns cs := by
  have hall : ∀ read, Source.unifyLinesAfter read cs = read.reverse ++ withoutReturns cs := by
    intro read
    fun_induction Source.unifyLinesAfter read cs with
    | case1 read => simp
    | case2 read cs ih =>
      rw [ih (returnsEndLines_cons.mp (returnsEndLines_cons.mp h).2).2, withoutReturns_return,
        withoutReturns_cons (by decide)]
      simp
    | case3 read cs hno ih =>
      rcases List.head?_eq_some_iff.mp ((returnsEndLines_cons.mp h).1 rfl) with ⟨more, rfl⟩
      exact absurd rfl (hno more)
    | case4 read c cs _ hno ih =>
      rw [ih (returnsEndLines_cons.mp h).2, withoutReturns_cons hno]
      simp
  simpa [Source.unifyLines] using hall []

/-! ## Places -/

theorem lineAfter_withoutReturns (before : List Char) :
    lineAfter (withoutReturns before) = lineAfter before := by
  rw [lineAfter, lineAfter, withoutReturns, List.count_filter (by decide)]

/-- Whatever is not a newline stands in the same column: there is a newline behind each carriage
return in front of it. -/
theorem columnAfter_withoutReturns {before r : List Char} (h : ReturnsEndLines (before ++ r))
    (hr : NotNext (· == '\n') r) : columnAfter (withoutReturns before) = columnAfter before := by
  -- From the back: a newline starts the columns again, and a carriage return comes in front of one.
  induction before using List.reverseRecOn generalizing r with
  | nil => rfl
  | append_singleton before c ih =>
    rw [List.append_assoc] at h
    by_cases hline : c = '\n'
    · subst hline
      rw [withoutReturns_append, withoutReturns_cons (by decide), withoutReturns_nil,
        columnAfter_append_singleton, columnAfter_append_singleton, if_pos rfl, if_pos rfl]
    · by_cases hreturn : c = '\r'
      · subst hreturn
        have hnext := (returnsEndLines_cons.mp h.of_append).1 rfl
        exact absurd (hr _ hnext) (by decide)
      · rw [withoutReturns_append, withoutReturns_cons hreturn, withoutReturns_nil,
          columnAfter_append_singleton, columnAfter_append_singleton, if_neg hline, if_neg hline,
          ih h (by simpa [NotNext] using hline)]

/-! ## One token -/

/-- Whether a token is another one but for its column, in which only an end of line may differ. -/
structure Token.SameButEolColumn (t t' : Token) : Prop where
  kind_eq : t'.kind = t.kind
  text_eq : t'.text = t.text
  literal_eq : t'.literal = t.literal
  line_eq : t'.line = t.line
  column_eq : t.kind ≠ .eol → t'.column = t.column

/-- A gap is one without its carriage returns, too. -/
theorem Gap.withoutReturns {gap rest : List Char} (h : Gap gap rest) :
    Gap (withoutReturns gap) (withoutReturns rest) := by
  induction h with
  | nil rest => exact .nil _
  | @blank c gap rest hc _ ih =>
    by_cases hreturn : c = '\r'
    · subst hreturn
      exact ih
    · rw [withoutReturns_cons hreturn]
      exact .blank hc ih
  | @comment body gap rest hbody hend _ ih =>
    rw [List.cons_append, withoutReturns_cons (by decide), withoutReturns_append]
    refine .comment (fun c hc => hbody c (List.mem_filter.mp hc).1) ?_ ih
    rw [← withoutReturns_append]
    cases hall : gap ++ rest with
    | nil => simp
    | cons d more =>
      obtain rfl : d = '\n' := hend d (by simp [hall])
      simp [withoutReturns_cons]

/-- The characters of a token hold no carriage return, unless they are those of a string. -/
theorem Lexes.return_not_mem {span rest : List Char} {t : Token} (h : Lexes span rest t)
    (hstring : t.kind = .string → '\r' ∉ t.text.toList) : '\r' ∉ span := by
  have hdigit : ∀ {cs : List Char}, (∀ d ∈ cs, isDigit d = true) → '\r' ∉ cs := fun hcs hmem =>
    absurd (hcs _ hmem) (by decide)
  cases h with
  | eol => decide
  | word hc hcs _ =>
    rintro (_ | ⟨_, hmem⟩)
    · exact absurd hc (by decide)
    · exact absurd (hcs _ hmem) (by decide)
  | integer _ hdigits _ _ => exact hdigit hdigits
  | @real c cs fraction _ _ _ _ _ hwhole hfraction _ _ =>
    have hsplit : c :: (cs ++ '.' :: fraction) = c :: cs ++ '.' :: fraction := rfl
    have hmark : '\r' ∉ '.' :: fraction := fun hmem =>
      hdigit hfraction (List.mem_of_ne_of_mem (by decide) hmem)
    rw [hsplit, List.mem_append, not_or]
    exact ⟨hdigit hwhole, hmark⟩
  | @string quote body _ _ _ hquote _ =>
    have hbody := hstring rfl
    rw [String.toList_ofList] at hbody
    have hne : '\r' ≠ quote := by rcases hquote with rfl | rfl <;> decide
    simp [hne, hbody]
  | @operator op _ _ _ _ => cases op <;> decide
  | @error c _ _ _ hmark _ =>
    rintro (_ | ⟨_, ⟨⟩⟩)
    exact absurd hmark (by decide)

/-- A token starts with a newline only if it is an end of line. -/
theorem Lexes.notNext_newline {span rest : List Char} {t : Token} (h : Lexes span rest t)
    (hkind : t.kind ≠ .eol) (r : List Char) : NotNext (· == '\n') (span ++ r) := by
  have hhead : ∀ {c : Char} {cs : List Char}, c ≠ '\n' → NotNext (· == '\n') (c :: cs ++ r) :=
    fun hne => NotNext.cons_iff.mpr (by simpa using hne)
  cases h with
  | eol => exact absurd rfl hkind
  | word hc _ _ => exact hhead (startsGap_of_isWordStart hc).2
  | integer _ hdigits _ _ => exact hhead (startsGap_of_isDigit (hdigits _ (by simp))).2
  | real _ hwhole _ _ _ => exact hhead (startsGap_of_isDigit (hwhole _ (by simp))).2
  | string hquote _ => exact hhead (by rcases hquote with rfl | rfl <;> decide)
  | @operator op _ _ _ _ =>
    rcases op.exists_mark with ⟨c, cs, hsymbol, hmark⟩
    rw [hsymbol]
    exact hhead (isMark_iff.mp hmark).1
  | error hmark _ => exact hhead (isMark_iff.mp hmark).1

/-- Without the carriage returns around it, a token is read from the same characters. -/
theorem Lexes.withoutReturns {before span rest : List Char} {t : Token} (h : Lexes span rest t)
    (hplace : t.StandsBehind before) (hreturns : ReturnsEndLines (before ++ (span ++ rest))) :
    ∃ t', Lexes span (ScriptCheck.withoutReturns rest) t' ∧
      t'.StandsBehind (ScriptCheck.withoutReturns before) ∧ t.SameButEolColumn t' := by
  have hlexes := hreturns.of_append.of_append.followsAs.lexes h
  refine ⟨_, hlexes.move t.line (columnAfter (ScriptCheck.withoutReturns before)), ⟨?_, rfl⟩,
    ⟨rfl, rfl, rfl, rfl, fun hkind => ?_⟩⟩
  · exact hplace.1.trans (lineAfter_withoutReturns before).symm
  · exact (columnAfter_withoutReturns hreturns (h.notNext_newline hkind rest)).trans
      hplace.2.symm

/-! ## Failing -/

/-- What stands by itself without the carriage returns did so before. -/
theorem unescaped_withoutReturns_subset {cs : List Char} (h : ReturnsEndLines cs) :
    unescaped (withoutReturns cs) ⊆ unescaped cs := by
  fun_induction unescaped cs with
  | case1 => exact List.Subset.refl _
  | case2 => exact List.Subset.refl _
  | case3 d rest ih =>
    have hrest := (returnsEndLines_cons.mp (returnsEndLines_cons.mp h).2).2
    rw [withoutReturns_cons (by decide)]
    by_cases hd : d = '\r'
    · -- The backslash takes the newline along instead of the carriage return.
      subst hd
      rcases List.head?_eq_some_iff.mp
        ((returnsEndLines_cons.mp (returnsEndLines_cons.mp h).2).1 rfl) with ⟨more, rfl⟩
      have hinside := ih hrest
      rw [withoutReturns_cons (by decide), unescaped_cons_of_ne (by decide)] at hinside
      rw [withoutReturns_return, withoutReturns_cons (by decide), unescaped]
      exact List.Subset.trans (List.subset_cons_self _ _) hinside
    · rw [withoutReturns_cons hd, unescaped]
      exact ih hrest
  | case4 c rest hlast hescape ih =>
    have hrest := ih (returnsEndLines_cons.mp h).2
    by_cases hc : c = '\r'
    · subst hc
      exact List.Subset.trans hrest (List.subset_cons_self _ _)
    · have hne : c ≠ '\\' := by
        rintro rfl
        cases rest with
        | nil => exact hlast rfl rfl
        | cons d rest => exact hescape d rest rfl rfl
      rw [withoutReturns_cons hc, unescaped_cons_of_ne hne]
      exact List.cons_subset_cons c hrest

theorem Jams.withoutReturns {line column : Int} {ahead : List Char} {fault : Lexer.Fault}
    (h : Jams line column ahead fault) (hreturns : ReturnsEndLines ahead) :
    Jams line column (withoutReturns ahead) fault ∧ NotNext (· == '\n') ahead := by
  have hdigits : ∀ {cs : List Char}, (∀ d ∈ cs, isDigit d = true) →
      ScriptCheck.withoutReturns cs = cs := fun hcs =>
    withoutReturns_eq_self fun hmem => absurd (hcs _ hmem) (by decide)
  have hnext : ∀ {c : Char} {cs : List Char}, isDigit c = true → NotNext (· == '\n') (c :: cs) :=
    fun hc => NotNext.cons_iff.mpr (by simpa using (startsGap_of_isDigit hc).2)
  cases h with
  | twoPoints hword hwhole hfraction =>
    refine ⟨?_, hnext (hwhole _ (by simp))⟩
    rw [withoutReturns_append, hdigits hwhole, withoutReturns_cons (by decide),
      withoutReturns_append, hdigits hfraction, withoutReturns_cons (by decide)]
    exact .twoPoints hword hwhole hfraction
  | integer hword hwhole hrest hvalue =>
    refine ⟨?_, hnext (hwhole _ (by simp))⟩
    rw [withoutReturns_append, hdigits hwhole]
    exact .integer hword hwhole
      (hreturns.of_append.followsAs.notNext (by decide) hrest) hvalue
  | real hword hwhole hfraction hrest hvalue =>
    refine ⟨?_, hnext (hwhole _ (by simp))⟩
    rw [withoutReturns_append, withoutReturns_append, hdigits hwhole,
      withoutReturns_cons (by decide), hdigits hfraction]
    exact .real hword hwhole hfraction
      (hreturns.of_append.followsAs.notNext (by decide) hrest) hvalue
  | @unclosed quote inside hquote hinside =>
    have hne : quote ≠ '\r' ∧ quote ≠ '\n' := by rcases hquote with rfl | rfl <;> decide
    refine ⟨?_, NotNext.cons_iff.mpr (by simpa using hne.2)⟩
    rw [withoutReturns_cons hne.1]
    refine .unclosed hquote fun hmem => hinside ?_
    exact unescaped_withoutReturns_subset (returnsEndLines_cons.mp hreturns).2 hmem

theorem FailsBehind.withoutReturns {before ahead : List Char} {fault : Lexer.Fault}
    (h : FailsBehind before ahead fault) (hreturns : ReturnsEndLines (before ++ ahead)) :
    FailsBehind (withoutReturns before) (withoutReturns ahead) fault := by
  rcases h with ⟨gap, jam, rfl, hgap, hjams⟩
  rw [← List.append_assoc] at hreturns
  rcases hjams.withoutReturns hreturns.of_append with ⟨hjams, hnext⟩
  refine ⟨_, _, withoutReturns_append, hgap.withoutReturns, ?_⟩
  rw [← withoutReturns_append, lineAfter_withoutReturns, columnAfter_withoutReturns hreturns hnext]
  exact hjams

/-! ## Whole texts -/

/-- Whether no string holds a carriage return, of those that the lexer comes across. -/
def StringsHoldNoReturn (source : String) : Prop :=
  ∀ front rest ts, source.toList = front ++ rest → Covers Lexes [] front rest ts →
    ∀ t ∈ ts, t.kind = .string → '\r' ∉ t.text.toList

/-- Of a text that is divided into tokens, these are the strings among the tokens. -/
theorem StringsHoldNoReturn.of_tokenize {source : String} {tokens : List Token}
    (h : tokenize source = .ok tokens)
    (hstrings : ∀ t ∈ tokens, t.kind = .string → '\r' ∉ t.text.toList) :
    StringsHoldNoReturn source := by
  intro front rest ts hsplit hcovers t ht
  rcases tokenize_covered hsplit hcovers with ⟨us, hall, -⟩ | ⟨fault, -, -, -, hfails, -⟩
  · obtain rfl := Except.ok.inj (h.symm.trans hall)
    exact hstrings t (List.mem_append_left us ht)
  · rw [h] at hfails
    cases hfails

theorem Covers.withoutReturns {before front rest : List Char} {ts : List Token}
    (h : Covers Lexes before front rest ts)
    (hstrings : ∀ t ∈ ts, t.kind = .string → '\r' ∉ t.text.toList)
    (hreturns : ReturnsEndLines (before ++ (front ++ rest))) :
    ∃ ts', Covers Lexes (withoutReturns before) (withoutReturns front) (withoutReturns rest) ts' ∧
      List.Forall₂ Token.SameButEolColumn ts ts' := by
  induction h with
  | nil before rest => exact ⟨[], .nil _ _, .nil⟩
  | @cons before gap span front rest t ts hgap hlexes hplace _ ih =>
    rcases List.forall_mem_cons.mp hstrings with ⟨hstring, hstrings⟩
    -- The token keeps its characters, and the gap in front of it loses its carriage returns.
    have hspan := withoutReturns_eq_self (hlexes.return_not_mem hstring)
    rcases ih hstrings (by simpa using hreturns) with ⟨ts', hcovers, hsame⟩
    rcases hlexes.withoutReturns hplace (by simpa using hreturns)
      with ⟨t', hlexes', hplace', hsame'⟩
    refine ⟨t' :: ts', ?_, .cons hsame' hsame⟩
    have hgap' := hgap.withoutReturns
    simp only [withoutReturns_append, hspan] at hgap' hlexes' hplace' hcovers ⊢
    exact .cons hgap' hlexes' hplace' hcovers

/-- Tokens that cover a text cover it up to a gap at its end. -/
theorem Tiles.exists_covers {P : List Char → List Char → Token → Prop} {before ahead : List Char}
    {ts : List Token} (h : Tiles P before ahead ts) :
    ∃ front gap us, ahead = front ++ gap ∧ Gap gap [] ∧ Covers P before front gap us ∧
      ts = us ++ [.endBehind (before ++ ahead)] := by
  induction h with
  | @finish before gap hgap => exact ⟨[], gap, [], rfl, hgap, .nil _ _, rfl⟩
  | @next before gap span rest t ts hgap ht hplace _ ih =>
    rcases ih with ⟨front, last, us, rfl, hlast, hcovers, rfl⟩
    refine ⟨gap ++ (span ++ front), last, t :: us, by simp, hlast, .cons hgap ht hplace hcovers, ?_⟩
    simp

theorem Token.endBehind_withoutReturns {text : List Char} (h : ReturnsEndLines text) :
    (Token.endBehind text).SameButEolColumn (.endBehind (withoutReturns text)) where
  kind_eq := rfl
  text_eq := rfl
  literal_eq := rfl
  line_eq := lineAfter_withoutReturns text
  column_eq _ := columnAfter_withoutReturns (r := []) (by simpa using h) (.nil _)

/-- Carriage returns that only end lines may be left out. Either the text is divided into the same
tokens, but for the columns of the ends of lines, or reading it fails in the same way. -/
theorem tokenize_withoutReturns {source : String} (hreturns : ReturnsEndLines source.toList)
    (hstrings : StringsHoldNoReturn source) :
    (∃ ts ts', tokenize source = .ok ts ∧
        tokenize (String.ofList (withoutReturns source.toList)) = .ok ts' ∧
        List.Forall₂ Token.SameButEolColumn ts ts') ∨
      ∃ fault, tokenize source = .error fault ∧
        tokenize (String.ofList (withoutReturns source.toList)) = .error fault := by
  cases h : tokenize source with
  | ok ts =>
    rcases (tokenize_eq_ok_iff.mp h).exists_covers
      with ⟨front, gap, us, hsplit, hgap, hcovers, hts⟩
    rw [List.nil_append] at hts
    subst hts
    have hstrings' := hstrings front gap us hsplit hcovers
    rcases hcovers.withoutReturns hstrings' (by simpa [hsplit] using hreturns)
      with ⟨us', hcovers', hsame⟩
    refine Or.inl ⟨_, us' ++ [.endBehind (withoutReturns source.toList)], rfl, ?_,
      List.rel_append hsame (.cons (Token.endBehind_withoutReturns hreturns) .nil)⟩
    have hfinish : Tiles Lexes (withoutReturns front) (withoutReturns gap)
        [.endBehind (withoutReturns front ++ withoutReturns gap)] :=
      .finish hgap.withoutReturns
    rw [tokenize_eq_ok_iff, String.toList_ofList, hsplit, withoutReturns_append]
    exact hcovers'.tiles hfinish
  | error fault =>
    rcases tokenize_eq_error_iff.mp h with ⟨front, rest, ts, hsplit, hcovers, hfails⟩
    rw [hsplit] at hreturns ⊢
    rcases hcovers.withoutReturns (hstrings front rest ts hsplit hcovers) hreturns
      with ⟨ts', hcovers', -⟩
    refine Or.inr ⟨fault, rfl, tokenize_eq_error_iff.mpr ⟨withoutReturns front,
      withoutReturns rest, ts', ?_, hcovers', hfails.withoutReturns hreturns⟩⟩
    rw [String.toList_ofList, withoutReturns_append]

end ScriptCheck
