import ScriptCheck.Proofs.Expression.Slots
import ScriptCheck.Proofs.Program.FailFast
import ScriptCheck.Proofs.Program.Reading
import ScriptCheck.Proofs.Statement.LastLine
import ScriptCheck.Proofs.Syntax.Written
import ScriptCheck.Syntax.Walk

/-!
# A `for` loop and the loop that it stands for

`for (I and C and N) S` is read as the blocks and the `while` loop that one would write out by hand,
`do I while (C) do S N end end` on lines of their own (`Expansion`). The two texts are read by
different rules: the clauses as slots of a header in which `and` separates, and as statements and a
condition in which it does not. That both make the same tree up to lines is
`Session.parse_expansion`. What is between the parentheses is divided into clauses by counting
(`IsSlot`), which is how the parser divides it (`Forms.exists_slots`).
-/

namespace ScriptCheck

/-! ## The two texts -/

/-- A `for` loop with the given clauses and body. -/
inductive ForTokens (I C N S : List Token) : List Token → Prop where
  | mk {start opening and₁ and₂ closing : Token} :
      start.kind = .keyword .for_ → opening.kind = .operator .lparen →
      and₁.kind = .keyword .and_ → and₂.kind = .keyword .and_ →
      closing.kind = .operator .rparen →
      ForTokens I C N S (start :: opening :: (I ++ and₁ :: (C ++ and₂ :: (N ++ closing :: S))))

/-- A clause as a statement on a line of its own, or nothing if it is left out. -/
inductive ClauseLine : (w line : List Token) → Prop where
  | nothing : ClauseLine [] []
  | statement {w : List Token} {ending : Token} :
      w ≠ [] → ending.kind = .eol → ClauseLine w (w ++ [ending])

/-- A clause as a condition, which is `true` if it is left out. -/
inductive ClauseCondition : (w condition : List Token) → Prop where
  | always {t : Token} : t.kind = .keyword .true_ → ClauseCondition [] [t]
  | given {w : List Token} : w ≠ [] → ClauseCondition w w

/-- The loop written out by hand: `do I while (C) do S N end end`, with an end of line behind `I`,
the inner `do`, `S`, `N` and the inner `end`. -/
inductive Expansion (I C N S : List Token) : List Token → Prop where
  | mk {outer loop opening closing inner eol₁ eol₂ end₁ eol₃ end₂ : Token}
      {first condition last : List Token} :
      outer.kind = .keyword .do_ → ClauseLine I first → loop.kind = .keyword .while_ →
      opening.kind = .operator .lparen → ClauseCondition C condition →
      closing.kind = .operator .rparen → inner.kind = .keyword .do_ → eol₁.kind = .eol →
      eol₂.kind = .eol → ClauseLine N last → end₁.kind = .keyword .end_ → eol₃.kind = .eol →
      end₂.kind = .keyword .end_ →
      Expansion I C N S (outer :: (first ++ loop :: opening :: (condition ++ closing :: inner ::
        eol₁ :: (S ++ eol₂ :: (last ++ end₁ :: eol₃ :: [end₂])))))

/-! ## Clauses -/

/-- What a slot spells: nothing if it is empty, and otherwise an expression in which `and`
separates. -/
inductive SlotSpells : List Token → Option Node → Prop where
  | nothing : SlotSpells [] none
  | expression {w : List Token} {e : Node} :
      (∀ r, Spells .assignment true (w ++ r) r e) → SlotSpells w (some e)

namespace SlotSpells

variable {w : List Token} {clause : Option Node} {e : Node}

theorem ne_nil (h : SlotSpells w (some e)) : w ≠ [] := by
  cases h with
  | expression he =>
    rintro rfl
    exact absurd (he []).spans.length_lt (Nat.lt_irrefl _)

/-- A clause that is a name is a single token. -/
theorem eq_of_var {line : Int} {name : String} (h : SlotSpells w (some (.var line name))) :
    ∃ t, w = [t] ∧ t.kind = .ident := by
  cases h with
  | expression he =>
    rcases (he []).of_var with ⟨t, hw, ht, -⟩
    exact ⟨t, by simpa using hw, ht⟩

/-- As a statement on a line, a clause comes in front of the other statements of a block. -/
theorem sequence {first r k : List Token} {b : Nat} {ms : List Node} (h : SlotSpells w clause)
    (hfirst : ClauseLine w first) (hr : nextKind r ≠ .eol)
    (hms : Sequence (Forms .declaration) (.keyword .end_) (Nesting.weight .block) r k b ms) :
    ∃ need, Sequence (Forms .declaration) (.keyword .end_) (Nesting.weight .block) (first ++ r) k
      need ((clause.map fun e => .expression e.line e).toList ++ ms) := by
  cases hfirst with
  | nothing =>
    cases h with
    | nothing => exact ⟨b, hms⟩
    | expression he => exact absurd rfl (ne_nil (.expression he))
  | @statement _ ending hne heol =>
    cases h with
    | nothing => exact absurd rfl hne
    | @expression _ e he =>
      have hstatement : Forms .declaration (w ++ ending :: r) r e.nesting (.expression e.line e) :=
        .declared (.expression (he _).rejoin (.line heol))
      rw [← dropBlank_of_nextKind_ne hr] at hms
      have hwhole := Sequence.next hstatement hms
      exact ⟨_, by simpa using hwhole⟩

/-- As a condition, a clause is read as it is, or always holds. -/
theorem condition {condition : List Token} (h : SlotSpells w clause)
    (hcondition : ClauseCondition w condition) :
    ∃ e, (∀ r, Spells .assignment false (condition ++ r) r e) ∧
      e.eraseLines = (clause.getD (.literal 0 (.bool true))).eraseLines := by
  cases hcondition with
  | @always t ht =>
    cases h with
    | nothing =>
      have hv : Grammar.literalValue? t = some (.bool true) := by
        simp [Grammar.literalValue?, ht]
      exact ⟨.literal t.line (.bool true), fun r => (Spells.literal hv).loosen (by decide), rfl⟩
    | expression he => exact absurd rfl (ne_nil (.expression he))
  | given hne =>
    cases h with
    | nothing => exact absurd rfl hne
    | @expression _ e he => exact ⟨e, fun r => (he r).rejoin, rfl⟩

end SlotSpells

/-- A clause of a header is a slot and what that spells. -/
theorem Clause.exists_slot {stop : Kind} {i r : List Token} {t : Token} {clause : Option Node}
    (h : Clause stop i (t :: r) clause) :
    ∃ w, i = w ++ t :: r ∧ IsSlot w ∧ SlotSpells w clause := by
  cases h with
  | none _ => exact ⟨[], rfl, .nil, .nothing⟩
  | some _ he =>
    rcases he.exists_slot with ⟨w, rfl, hslot, hw⟩
    exact ⟨w, rfl, hslot, .expression hw⟩

/-! ## The loops -/

/-- A declaration that starts with `for` is a loop with three slots. -/
theorem Forms.exists_slots {i r : List Token} {a : Nat} {n : Node} (h : Forms .declaration i r a n)
    (hi : nextKind i = .keyword .for_) :
    ∃ I C N S initializer condition increment line b body, ForTokens I C N S i ∧
      IsSlot I ∧ IsSlot C ∧ IsSlot N ∧ SlotSpells I initializer ∧ SlotSpells C condition ∧
      SlotSpells N increment ∧ Forms .statement (dropBlank S) r b body ∧
      n = Grammar.forLoop line (initializer.map Grammar.initializerOf) condition increment
        body := by
  cases h with
  | function hstart _ _ _ _ =>
    rw [nextKind_cons, hstart] at hi
    cases hi
  | declared h =>
    cases h with
    | forLoop hstart hopen hinitializer hcondition hincrement hbody =>
      have hand₁ := hinitializer.nextKind_eq
      have hand₂ := hcondition.nextKind_eq
      have hclose := hincrement.nextKind_eq
      rcases hinitializer.exists_slot with ⟨I, rfl, hI, hspellsI⟩
      rcases hcondition.exists_slot with ⟨C, rfl, hC, hspellsC⟩
      rcases hincrement.exists_slot with ⟨N, rfl, hN, hspellsN⟩
      exact ⟨I, C, N, _, _, _, _, _, _, _, .mk hstart hopen hand₁ hand₂ hclose, hI, hC, hN,
        hspellsI, hspellsC, hspellsN, hbody, rfl⟩
    | expression he _ =>
      exact absurd hi (he.nextKind_ne (by decide) (by decide))
    | blockStatement h =>
      rw [h.block_start] at hi
      cases hi
    | print hstart _ _ | return_ hstart _ _ | conditional hstart _ _ _ _
    | alternative hstart _ _ _ _ _ _ | loop hstart _ _ _ _ =>
      rw [nextKind_cons, hstart] at hi
      cases hi

/-- Tokens are a `for` loop with given slots in one way only. -/
theorem ForTokens.unique {I C N S I' C' N' S' i : List Token} (h : ForTokens I C N S i)
    (h' : ForTokens I' C' N' S' i) (hI : IsSlot I) (hC : IsSlot C) (hN : IsSlot N)
    (hI' : IsSlot I') (hC' : IsSlot C') (hN' : IsSlot N') :
    I = I' ∧ C = C' ∧ N = N' ∧ S = S' := by
  cases h with
  | mk _ _ hand₁ hand₂ hclose =>
    generalize hi : _ :: _ :: _ = j at h'
    cases h' with
    | mk _ _ hand₁' hand₂' hclose' =>
      have htail := (List.cons.inj (List.cons.inj hi).2).2
      rcases hI.eq_of_append hI' (.inl hand₁) (.inl hand₁') htail with ⟨rfl, -, htail⟩
      rcases hC.eq_of_append hC' (.inl hand₂) (.inl hand₂') htail with ⟨rfl, -, htail⟩
      rcases hN.eq_of_append hN' (.inr hclose) (.inr hclose') htail with ⟨rfl, -, htail⟩
      exact ⟨rfl, rfl, rfl, htail⟩

/-- The inner block of the loop written out by hand: the body, and the third clause on a line. -/
theorem Expansion.forms_inner {N S r last k : List Token} {increment : Option Node} {a : Nat}
    {body : Node} {inner eol₁ eol₂ end₁ : Token} (hN : SlotSpells N increment)
    (hbody : Forms .statement (dropBlank S) r a body) (hr : dropBlank r = [])
    (hinner : inner.kind = .keyword .do_) (heol₁ : eol₁.kind = .eol) (heol₂ : eol₂.kind = .eol)
    (hlast : ClauseLine N last) (hend₁ : end₁.kind = .keyword .end_) :
    ∃ need, Forms .block (inner :: eol₁ :: (S ++ eol₂ :: (last ++ end₁ :: k))) k need
      (.block inner.line (body :: (increment.map fun e => .expression e.line e).toList)) := by
  rcases hN.sequence hlast (r := end₁ :: k) (by simp [hend₁]) (.done hend₁) with ⟨need, hstep⟩
  rw [List.append_nil] at hstep
  have hne := hstep.nextKind_ne (k := .eol) (by decide) (by decide)
  have helse := hstep.nextKind_ne (k := .keyword .else_) (by decide) (by decide)
  -- The body may have ended with the input, and now a line ends it.
  have helse' : nextKind (dropBlank (last ++ end₁ :: k)) ≠ .keyword .else_ := by
    rwa [dropBlank_of_nextKind_ne hne]
  rcases hbody.continued hr heol₂ helse' with ⟨r', hforms, hr'⟩
  rw [dropBlank_of_nextKind_ne hne] at hr'
  rw [← hr'] at hstep
  have hstatements := Sequence.next (.declared hforms) hstep
  rw [← dropBlank_append_of_ne hbody.spans.ne_nil, ← dropBlank_cons_eol heol₁] at hstatements
  exact ⟨_, .block hinner hstatements⟩

/-- The loop written out by hand forms a program. -/
theorem Expansion.formsProgram {I C N S r i : List Token}
    {initializer condition increment : Option Node} {a : Nat} {body : Node}
    (h : Expansion I C N S i) (hI : SlotSpells I initializer) (hC : SlotSpells C condition)
    (hN : SlotSpells N increment) (hbody : Forms .statement (dropBlank S) r a body)
    (hr : dropBlank r = []) :
    ∃ need n, FormsProgram i need [n] ∧ n.eraseLines =
      (Grammar.forLoop 0 (initializer.map fun e => .expression e.line e) condition increment
        body).eraseLines := by
  cases h with
  | @mk outer loop opening closing inner eol₁ eol₂ end₁ eol₃ end₂ first given last houter hfirst
      hloop hopen hgiven hclose hinner heol₁ heol₂ hlast hend₁ heol₃ hend₂ =>
    -- From the inside out: the inner block, the loop, the outer block and the program.
    rcases Expansion.forms_inner (k := eol₃ :: [end₂]) hN hbody hr hinner heol₁ heol₂ hlast hend₁
      with ⟨needBlock, hblock⟩
    rcases hC.condition hgiven with ⟨c, hc, hsame⟩
    have hstart : ∀ {t : Token} (i : List Token), t.kind ≠ .eol → dropBlank (t :: i) = t :: i :=
      fun i ht => dropBlank_of_nextKind_ne ht
    rw [← hstart _ (by simp [hinner])] at hblock
    have hwhile := Forms.loop hloop hopen (hc _) hclose (.blockStatement hblock)
    have hafter : Sequence (Forms .declaration) (.keyword .end_) (Nesting.weight .block)
        (dropBlank (eol₃ :: [end₂])) [end₂] 0 [] := by
      rw [dropBlank_cons_eol heol₃, hstart _ (by simp [hend₂])]
      exact .done hend₂
    rcases hI.sequence hfirst (by simp [hloop]) (.next (.declared hwhile) hafter)
      with ⟨needWhole, hstatements⟩
    have hne := hstatements.nextKind_ne (k := .eol) (by decide) (by decide)
    rw [← dropBlank_of_nextKind_ne hne] at hstatements
    have hend : Sequence (Forms .declaration) .eof 0 (dropBlank []) [] 0 [] := .done rfl
    have hblock : Forms .declaration _ [] _ _ :=
      .declared (.blockStatement (.block houter hstatements))
    have hprogram := Sequence.next hblock hend
    rw [← hstart _ (by simp [houter])] at hprogram
    refine ⟨_, _, hprogram, ?_⟩
    cases initializer <;> cases increment <;>
      simp [Grammar.forLoop, Node.eraseLines, Node.eraseAllLines, hsame]

/-- A sequence of one item is that item, with what ends the sequence behind it. -/
theorem Sequence.exists_of_singleton {item : List Token → List Token → Nat → Node → Prop}
    {stop : Kind} {weight a : Nat} {i r : List Token} {n : Node}
    (h : Sequence item stop weight i r a [n]) :
    ∃ j b, item i j b n ∧ dropBlank j = r := by
  cases h with
  | next hitem hrest =>
    generalize hk : dropBlank _ = k at hrest
    cases hrest with
    | done _ => exact ⟨_, _, hitem, hk⟩

/-- A loop is the same up to lines wherever it is. -/
theorem eraseLines_forLoop (line : Int) (initializer condition increment : Option Node)
    (body : Node) : (Grammar.forLoop line initializer condition increment body).eraseLines =
      (Grammar.forLoop 0 initializer condition increment body).eraseLines := by
  cases initializer <;> cases condition <;> cases increment <;>
    simp [Grammar.forLoop, Node.eraseLines, Node.eraseAllLines]

/-- A first clause that is no single name is evaluated. -/
theorem SlotSpells.map_initializerOf {I : List Token} {initializer : Option Node}
    (h : SlotSpells I initializer) (hname : ∀ t, I = [t] → t.kind ≠ .ident) :
    initializer.map Grammar.initializerOf = initializer.map fun e => .expression e.line e := by
  cases initializer with
  | none => rfl
  | some e =>
    cases e with
    | var line name =>
      rcases h.eq_of_var with ⟨t, ht, hkind⟩
      exact absurd hkind (hname t ht)
    | _ => rfl

namespace Session

/-- A `for` loop is the loop written out by hand. Tokens that start with `for` and are parsed as one
statement without an error are a loop with three slots. If those are told apart and the first is not
a single name, then the loop written out by hand is parsed without an error, too, unless it is
nested too deeply, and makes the same tree up to lines. -/
theorem parse_expansion [Stack] {tokens : List Token} {n : Node}
    (hstart : nextKind (tokens.takeWhile Cursor.isBeforeEnd) = .keyword .for_)
    (hresult : (ofTokens tokens false).parse.1 = .ok (.program 1 [n]))
    (herrors : (ofTokens tokens false).parse.2.reporter.errors = #[]) :
    (∃ I C N S, ForTokens I C N S (tokens.takeWhile Cursor.isBeforeEnd) ∧ IsSlot I ∧ IsSlot C ∧
      IsSlot N) ∧
      ∀ I C N S expansion, ForTokens I C N S (tokens.takeWhile Cursor.isBeforeEnd) →
        IsSlot I → IsSlot C → IsSlot N → (∀ t, I = [t] → t.kind ≠ .ident) →
        Expansion I C N S (expansion.takeWhile Cursor.isBeforeEnd) →
        (∀ e ∈ (ofTokens expansion false).parse.2.reporter.errors, e.category ≠ .nestingTooDeep) →
        ∃ n', (ofTokens expansion false).parse.1 = .ok (.program 1 [n']) ∧
          (ofTokens expansion false).parse.2.reporter.errors = #[] ∧
          (Node.program 1 [n']).eraseLines = (Node.program 1 [n]).eraseLines := by
  rcases parse_reads_of_ok hresult herrors with ⟨need, ns, hprogram⟩
  rcases parse_of_formsProgram hprogram with ⟨-, hread, -⟩ | ⟨-, e, he, -⟩
  · obtain rfl : [n] = ns := by simpa [hresult] using hread
    rw [FormsProgram, dropBlank_of_nextKind_ne (by simp [hstart])] at hprogram
    rcases hprogram.exists_of_singleton with ⟨r, a, hforms, hr⟩
    rcases hforms.exists_slots hstart with ⟨I, C, N, S, initializer, condition, increment, line,
      b, body, hfor, hI, hC, hN, hspellsI, hspellsC, hspellsN, hbody, rfl⟩
    refine ⟨⟨I, C, N, S, hfor, hI, hC, hN⟩, ?_⟩
    intro I' C' N' S' expansion hfor' hI' hC' hN' hname hexpansion hfits
    rcases hfor'.unique hfor hI' hC' hN' hI hC hN with ⟨rfl, rfl, rfl, rfl⟩
    rcases hexpansion.formsProgram hspellsI hspellsC hspellsN hbody hr
      with ⟨need', n', hprogram', hsame⟩
    rcases parse_of_formsProgram hprogram' with ⟨-, hread', herrors'⟩ | ⟨-, e, he, hdeep⟩
    · refine ⟨n', hread', herrors', ?_⟩
      simp only [Node.eraseLines, Node.eraseAllLines, hsame, eraseLines_forLoop line,
        hspellsI.map_initializerOf hname]
    · exact absurd hdeep (hfits e (Array.mem_toList_iff.mp he))
  · rw [herrors] at he
    cases he

/-- The tokens of `for (i = nil and (i and b) and) print i`. -/
def groupedLoop : List Token :=
  [⟨.keyword .for_, "for", 1, 1, none⟩, ⟨.operator .lparen, "(", 1, 5, none⟩,
    ⟨.ident, "i", 1, 6, none⟩, ⟨.operator .assign, "=", 1, 8, none⟩,
    ⟨.keyword .nil, "nil", 1, 10, none⟩, ⟨.keyword .and_, "and", 1, 14, none⟩,
    ⟨.operator .lparen, "(", 1, 18, none⟩, ⟨.ident, "i", 1, 19, none⟩,
    ⟨.keyword .and_, "and", 1, 21, none⟩, ⟨.ident, "b", 1, 25, none⟩,
    ⟨.operator .rparen, ")", 1, 26, none⟩, ⟨.keyword .and_, "and", 1, 28, none⟩,
    ⟨.operator .rparen, ")", 1, 31, none⟩, ⟨.keyword .print, "print", 1, 33, none⟩,
    ⟨.ident, "i", 1, 39, none⟩]

/-- The tokens of the same loop written out by hand. -/
def groupedExpansion : List Token :=
  [⟨.keyword .do_, "do", 1, 1, none⟩, ⟨.ident, "i", 1, 6, none⟩,
    ⟨.operator .assign, "=", 1, 8, none⟩, ⟨.keyword .nil, "nil", 1, 10, none⟩,
    ⟨.eol, "", 1, 13, none⟩, ⟨.keyword .while_, "while", 2, 1, none⟩,
    ⟨.operator .lparen, "(", 2, 7, none⟩, ⟨.operator .lparen, "(", 1, 18, none⟩,
    ⟨.ident, "i", 1, 19, none⟩, ⟨.keyword .and_, "and", 1, 21, none⟩, ⟨.ident, "b", 1, 25, none⟩,
    ⟨.operator .rparen, ")", 1, 26, none⟩, ⟨.operator .rparen, ")", 2, 17, none⟩,
    ⟨.keyword .do_, "do", 2, 19, none⟩, ⟨.eol, "", 2, 21, none⟩,
    ⟨.keyword .print, "print", 1, 33, none⟩, ⟨.ident, "i", 1, 39, none⟩, ⟨.eol, "", 3, 8, none⟩,
    ⟨.keyword .end_, "end", 4, 1, none⟩, ⟨.eol, "", 4, 4, none⟩,
    ⟨.keyword .end_, "end", 5, 1, none⟩]

/-- The `and` between parentheses belongs to the condition, and a clause that is left out leaves its
line out. -/
theorem parse_expansion_grouped :
    ∃ n n', (ofTokens groupedLoop false).parse.1 = .ok (.program 1 [n]) ∧
      (ofTokens groupedExpansion false).parse.1 = .ok (.program 1 [n']) ∧
      (ofTokens groupedExpansion false).parse.2.reporter.errors = #[] ∧
      (Node.program 1 [n']).eraseLines = (Node.program 1 [n]).eraseLines := by
  have hnumbers : NumbersCarryValues (groupedLoop.takeWhile Cursor.isBeforeEnd) := by
    unfold NumbersCarryValues
    decide
  have hone : (ofTokens groupedLoop false).parse.1.toOption.map (·.children.length) = some 1 := by
    decide +kernel
  rcases exists_parse hnumbers with ⟨ns, s, hparse, -⟩
  rw [hparse] at hone
  obtain ⟨n, rfl⟩ := List.length_eq_one_iff.mp (Option.some.inj hone)
  have hresult := congrArg Prod.fst hparse
  have hdeep : ∀ e ∈ (ofTokens groupedExpansion false).parse.2.reporter.errors,
      e.category ≠ .nestingTooDeep := by
    decide +kernel
  have hstart : nextKind (groupedLoop.takeWhile Cursor.isBeforeEnd) = .keyword .for_ := by decide
  have hexpands := parse_expansion hstart hresult (by decide +kernel)
  have hloop : ForTokens ((groupedLoop.drop 2).take 3) ((groupedLoop.drop 6).take 5) []
      (groupedLoop.drop 13) (groupedLoop.takeWhile Cursor.isBeforeEnd) :=
    .mk rfl rfl rfl rfl rfl
  have hfirst : ClauseLine ((groupedLoop.drop 2).take 3)
      ((groupedLoop.drop 2).take 3 ++ [groupedExpansion[4]]) :=
    .statement (by decide) rfl
  have hexpansion : Expansion ((groupedLoop.drop 2).take 3) ((groupedLoop.drop 6).take 5) []
      (groupedLoop.drop 13) (groupedExpansion.takeWhile Cursor.isBeforeEnd) :=
    .mk rfl hfirst rfl rfl (.given (by decide)) rfl rfl rfl rfl .nothing rfl rfl rfl
  have hname : ∀ t, (groupedLoop.drop 2).take 3 = [t] → t.kind ≠ .ident := fun t ht => by
    cases ht
  rcases hexpands.2 _ _ _ _ groupedExpansion hloop (by decide) (by decide) .nil hname hexpansion
    hdeep with ⟨n', hread, hnone, hsame⟩
  exact ⟨n, n', hresult, hread, hnone, hsame⟩

end Session

end ScriptCheck
