import ScriptCheck.Proofs.Expression.Unfinished
import ScriptCheck.Proofs.Statement.Blocks
import ScriptCheck.Proofs.Statement.Detaching
import ScriptCheck.Proofs.Statement.Reading

/-!
# Statements that end too early

Where the rule of a level fails, the tokens that it has taken are the beginning of what the level
says: others complete it in front of whatever closes a statement, be the failure in a clause of a
`for`, a list of parameters, or a block inside any number of others. The blocks that the tokens
leave open are those that the failure counts. Both are shown by one induction on the budget
(`Grammar.ofLevel_failed`), one construct after another.

What is completed needs no more of the nesting budget than the rule had, except for a body that had
not yet been begun.
-/

namespace ScriptCheck

open ScriptCheck.Rule

/-! ## Completions -/

/-- Whether the input ends in front of `tail`, or a block does. -/
def Ends (tail : List Token) : Prop :=
  nextKind tail = .eof ∨ nextKind tail = .keyword .end_

namespace Ends

variable {tail : List Token}

theorem closes (h : Ends tail) : (nextKind tail).closesStatement = true := by
  rcases h with h | h <;> rw [h] <;> rfl

theorem nextKind_ne_else (h : Ends tail) : nextKind tail ≠ .keyword .else_ := by
  rcases h with h | h <;> rw [h] <;> decide

theorem dropBlank_eq (h : Ends tail) : dropBlank tail = tail := by
  refine dropBlank_of_nextKind_ne ?_
  rcases h with h | h <;> rw [h] <;> decide

theorem replaces (h : Ends tail) (r : List Token) : Replaces r tail :=
  .of_closes h.closes h.nextKind_ne_else

end Ends

/-- In front of `r`, the tokens of `i` leave open the blocks that a failure counts, and they are the
beginning of what the level says. Where the nesting is not what the failure comes from, what they
begin needs no more than the bound. -/
structure Unfinished (L : Level) (bound : Nat) (failure : Failure) (i r : List Token) : Prop where
  opens : Opens failure.unclosed i r
  completes : ∃ w S, i = w ++ r ∧ ∀ tail, Ends tail → ∃ need n,
    Forms L (w ++ (S ++ tail)) tail need n ∧ (failure.cause ≠ .tooDeep → need ≤ bound)

theorem placeholder_forms {tail : List Token} (h : Ends tail) :
    Forms .statement (placeholder :: tail) tail 0
      (.expression placeholder.line (.var placeholder.line placeholder.text)) :=
  .expression (Begins.placeholder_spells .assignment false tail) (.closed h.closes)

theorem placeholder_behind_blank {tail : List Token} (h : Ends tail) :
    Forms .statement (dropBlank (placeholder :: tail)) tail 0
      (.expression placeholder.line (.var placeholder.line placeholder.text)) := by
  rw [dropBlank_cons_of_ne (by decide)]
  exact placeholder_forms h

/-- A block that is closed as soon as it is opened. -/
theorem emptyBlock_forms (tail : List Token) :
    Forms .block (Keyword.do_.token :: Keyword.end_.token :: tail) tail 0
      (.block Keyword.do_.token.line []) := by
  have hnone : Sequence (Forms .declaration) (.keyword .end_) (Nesting.weight .block)
      (dropBlank (Keyword.end_.token :: tail)) (Keyword.end_.token :: tail) 0 [] := by
    rw [dropBlank_cons_of_ne (by decide)]
    exact .done rfl
  exact .block Keyword.do_.kind_token hnone

/-- A conditional without an `else`, in front of something that closes a statement. -/
theorem conditional_forms {i j tail : List Token} {a : Nat} {start : Token} {e n : Node}
    (hstart : start.kind = .keyword .if_) (he : Spells .assignment false i j e)
    (hstop : Tier.assignment.extendedBy false (nextKind j) = false)
    (hn : Forms .statement (dropBlank j) tail a n) (htail : Ends tail) :
    Forms .statement (start :: i) tail (max e.nesting (Nesting.weight .body + a))
      (.conditional start.line e n none) := by
  have hno : nextKind (dropBlank tail) ≠ .keyword .else_ := by
    rw [htail.dropBlank_eq]
    exact htail.nextKind_ne_else
  have hwhole := Forms.conditional hstart he hstop hn hno
  rwa [htail.dropBlank_eq] at hwhole

theorem Begins.opens {T : Tier} {s : Bool} {budget : Nat} {cause : Cause} {i r : List Token}
    (h : Begins T s budget cause i r) : Opens 0 i r := by
  rcases h.inExpression with ⟨w, rfl, hall⟩
  exact .of_isQuiet (fun t ht => .of_isInExpression (hall t ht)) r

/-- The tokens of `i` in front of `r` are the beginning of a clause that `stop` ends. -/
def BeginsClause (stop : Kind) (budget : Nat) (cause : Cause) (i r : List Token) : Prop :=
  ∃ w S, i = w ++ r ∧ ∀ tail, nextKind tail = stop → ∃ clause,
    Clause stop (w ++ (S ++ tail)) tail clause ∧
      (cause ≠ .tooDeep → Node.clauseNesting clause ≤ budget)

theorem Begins.clause {stop : Kind} {budget : Nat} {cause : Cause} {i r : List Token}
    (h : Begins .assignment true budget cause i r) : BeginsClause stop budget cause i r := by
  rcases h with ⟨w, S, hi, hcomplete⟩
  refine ⟨w, S, hi, fun tail htail => ?_⟩
  rcases hcomplete tail with ⟨e, he, hfits⟩
  exact ⟨some e, .some htail he, hfits⟩

/-- A word or a mark in front opens no block, unless it is a `do`. -/
theorem Opens.behind {k : Kind} {n : Nat} {i r : List Token} {t : Token} (h : Opens n i r)
    (ht : t.kind = k) (hdo : k ≠ .keyword .do_ := by decide)
    (hend : k ≠ .keyword .end_ := by decide) : Opens n (t :: i) r :=
  (Opens.one (.of_kind ht hdo hend) i).through h

namespace Unfinished

variable {L : Level} {bound : Nat} {failure : Failure} {i j r : List Token}

/-- Where nothing has been taken, a name is enough. -/
theorem nothing (hunclosed : failure.unclosed = 0) (r : List Token) :
    Unfinished .statement bound failure r r := by
  refine ⟨by rw [hunclosed]; exact .refl r, [], [placeholder], rfl, fun tail htail => ?_⟩
  exact ⟨0, _, placeholder_forms htail, fun _ => Nat.zero_le _⟩

theorem declared (h : Unfinished .statement bound failure i r) :
    Unfinished .declaration bound failure i r := by
  rcases h with ⟨hopens, w, S, hi, hcomplete⟩
  refine ⟨hopens, w, S, hi, fun tail htail => ?_⟩
  rcases hcomplete tail htail with ⟨need, n, hforms, hfits⟩
  exact ⟨need, n, .declared hforms, hfits⟩

theorem blockStatement (h : Unfinished .block bound failure i r) :
    Unfinished .statement bound failure i r := by
  rcases h with ⟨hopens, w, S, hi, hcomplete⟩
  refine ⟨hopens, w, S, hi, fun tail htail => ?_⟩
  rcases hcomplete tail htail with ⟨need, n, hforms, hfits⟩
  exact ⟨need, n, .blockStatement hforms, hfits⟩

/-- What is begun behind ends of line is completed behind them. -/
theorem behind_blank (h : Unfinished L bound failure (dropBlank j) r) :
    Opens failure.unclosed j r ∧
      ∃ w S, j = w ++ r ∧ ∀ tail, Ends tail → ∃ need n,
        Forms L (dropBlank (w ++ (S ++ tail))) tail need n ∧
          (failure.cause ≠ .tooDeep → need ≤ bound) := by
  rcases h with ⟨hopens, w, S, hw, hcomplete⟩
  rcases exists_blank_append j with ⟨es, hes, hblank⟩
  refine ⟨(Opens.dropBlank j).through hopens, es ++ w, S, by rw [hes, hw]; simp, ?_⟩
  intro tail htail
  rcases hcomplete tail htail with ⟨need, n, hforms, hfits⟩
  refine ⟨need, n, ?_, hfits⟩
  rw [List.append_assoc, dropBlank_append_of_blank hblank,
    dropBlank_of_nextKind_ne (hforms.nextKind_ne (by decide))]
  exact hforms

end Unfinished

/-- The tokens of `i` in front of `r` are the beginning of what stands in a block behind other
declarations: a declaration, or nothing. -/
structure BeginsRest (bound : Nat) (failure : Failure) (i r : List Token) : Prop where
  opens : Opens failure.unclosed i r
  completes : ∃ w S, i = w ++ r ∧ ∀ tail, Replaces i (w ++ (S ++ Keyword.end_.token :: tail)) ∧
    ∃ need ms, Sequence (Forms .declaration) (.keyword .end_) (Nesting.weight .block)
      (w ++ (S ++ Keyword.end_.token :: tail)) (Keyword.end_.token :: tail) need ms ∧
      (failure.cause ≠ .tooDeep → need ≤ bound)

theorem BeginsRest.nothing {bound : Nat} {failure : Failure} (hunclosed : failure.unclosed = 0)
    (r : List Token) : BeginsRest bound failure r r := by
  refine ⟨by rw [hunclosed]; exact .refl r, [], [], rfl, fun tail => ?_⟩
  have hends : Ends (Keyword.end_.token :: tail) := Or.inr rfl
  exact ⟨hends.replaces r, 0, [], .done rfl, fun _ => Nat.zero_le _⟩

/-- A declaration that has been begun is completed in front of the word that closes the block. -/
theorem Unfinished.beginsRest {bound : Nat} {failure : Failure} {i r : List Token}
    (h : Unfinished .declaration bound failure i r) :
    BeginsRest (Nesting.weight .block + bound) failure i r := by
  rcases h with ⟨hopens, w, S, rfl, hcomplete⟩
  by_cases hnil : w = []
  · -- If nothing of it has been taken, the block may be closed at once.
    subst hnil
    refine .nothing ?_ r
    rcases hopens with ⟨v, hv, hdepth⟩
    have hempty : v = [] := List.append_left_eq_self.mp hv.symm
    have hzero := hdepth 0
    rw [hempty, blockDepth_nil, Nat.zero_add] at hzero
    exact hzero.symm
  · refine ⟨hopens, w, S, rfl, fun tail => ⟨.of_nextKind_eq ?_, ?_⟩⟩
    · rw [nextKind_append hnil, nextKind_append hnil]
    · rcases hcomplete (Keyword.end_.token :: tail) (Or.inr rfl) with ⟨a, n, hforms, hfits⟩
      have hlast : Sequence (Forms .declaration) (.keyword .end_) (Nesting.weight .block)
          (dropBlank (Keyword.end_.token :: tail)) (Keyword.end_.token :: tail) 0 [] := by
        rw [dropBlank_cons_of_ne (by decide)]
        exact .done rfl
      refine ⟨_, [n], .next hforms hlast, fun hne => ?_⟩
      have hle := hfits hne
      omega

namespace Grammar

variable {budget : Nat} {α : Type}

theorem skipNewlines_bind_failed {next : Unit → Rule α} {c e : Cursor} {failure : Failure}
    (h : (skipNewlines >>= next).run c = .failed failure e) :
    ∃ d, (next ()).run d = .failed failure e ∧ d.ahead = dropBlank c.ahead := by
  rcases run_skipNewlines_bind next c with ⟨d, hrun, hd⟩
  exact ⟨d, hrun ▸ h, hd⟩

theorem endStatement_failed {message : String} {c d : Cursor} {failure : Failure}
    (h : (endStatement message).run c = .failed failure d) :
    d = c ∧ failure.unclosed = 0 := by
  rw [endStatement] at h
  rcases bind_failed h with hfound | ⟨found, d₁, hfound, hrest⟩
  · exact absurd hfound accept_ne_failed
  rcases accept_done (by decide) hfound with ⟨t, rfl, -, -⟩ | ⟨rfl, rfl, -⟩
  · exact absurd hrest pure_ne_failed
  · dsimp only at hrest
    rw [run_peek_bind] at hrest
    split at hrest
    · exact absurd hrest pure_ne_failed
    · exact unexpected_failed hrest

/-- What a rule that fails has taken: the beginning of what the level says. The rule of blocks is
only ever read in front of the word that opens one. -/
def FailsAt (L : Level) (budget : Nat) : Prop :=
  ∀ c failure d, (ofLevel L budget).run c = .failed failure d →
    (∀ fault, failure.cause ≠ .numeral fault) →
    (L = .block → nextKind c.ahead = .keyword .do_) →
    Unfinished L (budget + Nesting.weight .body) failure c.ahead d.ahead

/-! ## Simple statements -/

theorem expression_failed {s : Bool} {c d : Cursor} {failure : Failure}
    (h : (expression s budget).run c = .failed failure d)
    (hnumeral : ∀ fault, failure.cause ≠ .numeral fault) :
    failure.unclosed = 0 ∧ Begins .assignment s budget failure.cause c.ahead d.ahead := by
  rw [expression] at h
  exact ofTier_failed budget .assignment s _ _ _ h hnumeral

/-- A simple statement fails in its expression, or behind it. -/
theorem simple_failed (make : Node → Node) {message : String} {c d : Cursor} {failure : Failure}
    (h : (simple budget make message).run c = .failed failure d)
    (hnumeral : ∀ fault, failure.cause ≠ .numeral fault) :
    failure.unclosed = 0 ∧ Begins .assignment false budget failure.cause c.ahead d.ahead := by
  rw [simple] at h
  rcases bind_failed h with h | ⟨e, d₁, he, h⟩
  · exact expression_failed h hnumeral
  rcases expression_reads he with ⟨hspells, hnesting, -⟩
  rcases bind_failed h with h | ⟨_, _, -, h⟩
  · rcases endStatement_failed h with ⟨rfl, hunclosed⟩
    exact ⟨hunclosed, .of_spells hspells hnesting⟩
  · exact absurd h pure_ne_failed

/-- A simple statement behind a word is completed like its expression. -/
theorem word_unfinished {make : Node → Node} {start : Token} {i r : List Token} {failure : Failure}
    {k : Kind} (hstart : start.kind = k) (hdo : k ≠ .keyword .do_) (hend : k ≠ .keyword .end_)
    (hforms : ∀ {i j r e}, Spells .assignment false i j e → Terminated j r →
      Forms .statement (start :: i) r e.nesting (make e))
    (hunclosed : failure.unclosed = 0) (h : Begins .assignment false budget failure.cause i r) :
    Unfinished .statement (budget + Nesting.weight .body) failure (start :: i) r := by
  refine ⟨by rw [hunclosed]; exact h.opens.behind hstart hdo hend, ?_⟩
  rcases h with ⟨w, S, rfl, hcomplete⟩
  refine ⟨start :: w, S, rfl, fun tail htail => ?_⟩
  rcases hcomplete tail with ⟨e, he, hfits⟩
  exact ⟨_, _, hforms he (.closed htail.closes), fun hne => Nat.le_add_right_of_le (hfits hne)⟩

theorem expression_unfinished {i r : List Token} {failure : Failure}
    (hunclosed : failure.unclosed = 0) (h : Begins .assignment false budget failure.cause i r) :
    Unfinished .statement (budget + Nesting.weight .body) failure i r := by
  refine ⟨by rw [hunclosed]; exact h.opens, ?_⟩
  rcases h with ⟨w, S, rfl, hcomplete⟩
  refine ⟨w, S, rfl, fun tail htail => ?_⟩
  rcases hcomplete tail with ⟨e, he, hfits⟩
  exact ⟨_, _, .expression he (.closed htail.closes), fun hne => Nat.le_add_right_of_le (hfits hne)⟩

/-! ## Bodies -/

/-- A governed statement fails as by itself, or at the start, where the budget does not last. -/
theorem body_failed (ih : ∀ rest < budget, FailsAt .statement rest) {c d : Cursor}
    {failure : Failure}
    (h : (deeper .body budget fun rest _ => statement false rest).run c = .failed failure d)
    (hnumeral : ∀ fault, failure.cause ≠ .numeral fault) :
    Unfinished .statement budget failure c.ahead d.ahead := by
  rcases deeper_failed h with ⟨rfl, hunclosed, -⟩ | ⟨hweight, hlt, hrun⟩
  · exact .nothing hunclosed _
  · have hbody := ih _ hlt _ _ _ hrun hnumeral (by simp)
    rwa [Nat.sub_add_cancel hweight] at hbody

theorem ifStatement_failed (ih : ∀ rest < budget, FailsAt .statement rest) {c d : Cursor}
    {failure : Failure} (hif : c.peek.kind = .keyword .if_)
    (h : (ifStatement false budget).run c = .failed failure d)
    (hnumeral : ∀ fault, failure.cause ≠ .numeral fault) :
    Unfinished .statement (budget + Nesting.weight .body) failure c.ahead d.ahead := by
  rcases Cursor.exists_ahead_of_peek hif (by decide) with ⟨start, r, hc, -, hstart⟩
  rw [ifStatement, run_advance_bind hc] at h
  rw [hc]
  rcases bind_failed h with h | ⟨e, d₁, he, h⟩
  · -- in the condition
    rcases expression_failed h hnumeral with ⟨hunclosed, hbegins⟩
    rw [Cursor.ahead_advance hc] at hbegins
    refine ⟨by rw [hunclosed]; exact hbegins.opens.behind hstart, ?_⟩
    rcases hbegins with ⟨w, S, rfl, hcomplete⟩
    refine ⟨start :: w, S ++ [placeholder], rfl, fun tail htail => ?_⟩
    rcases hcomplete (placeholder :: tail) with ⟨e, he, hfits⟩
    simp only [List.cons_append, List.append_assoc, List.nil_append]
    refine ⟨_, _, conditional_forms hstart he rfl (placeholder_behind_blank htail) htail,
      fun hne => ?_⟩
    have hle := hfits hne
    omega
  rcases expression_reads he with ⟨hspells, hnesting, hstop⟩
  rw [Cursor.ahead_advance hc] at hspells
  rcases hspells.detach with ⟨v, rfl, hcondition⟩
  rcases skipNewlines_bind_failed h with ⟨d₂, h, hd₂⟩
  rcases bind_failed h with h | ⟨thenBranch, d₃, hthen, h⟩
  · -- in the first branch
    have hbody := body_failed ih h hnumeral
    rw [hd₂] at hbody
    rcases hbody.behind_blank with ⟨hopens, w, S, hw, hcomplete⟩
    refine ⟨(hspells.opens.through hopens).behind hstart, ?_⟩
    by_cases hnil : w = []
    · -- Nothing of the branch has been taken, and what begins it might go on with the condition.
      subst hnil
      refine ⟨start :: v, [placeholder], by rw [hw]; rfl, fun tail htail => ?_⟩
      simp only [List.cons_append, List.nil_append]
      exact ⟨_, _, conditional_forms hstart (hcondition (placeholder :: tail)) rfl
        (placeholder_behind_blank htail) htail, fun _ => by omega⟩
    · refine ⟨start :: (v ++ w), S, by rw [hw]; simp, fun tail htail => ?_⟩
      rcases hcomplete tail htail with ⟨need, n, hforms, hfits⟩
      rw [hw, nextKind_append hnil] at hstop
      have hwhole := conditional_forms hstart (hcondition (w ++ (S ++ tail)))
        (by rwa [nextKind_append hnil]) hforms htail
      simp only [List.cons_append, List.append_assoc]
      refine ⟨_, _, hwhole, fun hne => ?_⟩
      have hle := hfits hne
      omega
  rcases body_reads (fun rest _ => ofLevel_done rest .statement) hthen with ⟨a, ha, hthen⟩
  rw [hd₂] at hthen
  rcases skipNewlines_bind_failed h with ⟨d₄, h, hd₄⟩
  rcases bind_failed h with hfound | ⟨found, d₅, hfound, hrest⟩
  · exact absurd hfound accept_ne_failed
  rcases accept_done (by decide) hfound with ⟨other, rfl, hother, hkind⟩ | ⟨rfl, rfl, -⟩
  · -- in the other branch
    have hkind : other.kind = .keyword .else_ := by simpa using hkind
    rw [hd₄] at hother
    rcases skipNewlines_bind_failed hrest with ⟨d₆, h, hd₆⟩
    rcases bind_failed h with h | ⟨_, _, -, h⟩
    · have hbody := body_failed ih h hnumeral
      rw [hd₆] at hbody
      rcases hbody.behind_blank with ⟨hopens, w, S, hw, hcomplete⟩
      have hbefore := (Opens.dropBlank _).through (hthen.opens.through (.dropBlank _))
      rw [hother] at hbefore
      refine ⟨(hspells.opens.through (hbefore.through (hopens.behind hkind))).behind hstart, ?_⟩
      rcases Detaches.behind_blank hthen.detach with ⟨u, hu, hne, hfirst⟩
      rcases exists_blank_append d₃.ahead with ⟨es, hes, hblank⟩
      rw [hother, hw] at hes
      refine ⟨start :: (v ++ (u ++ (es ++ other :: w))), S, by rw [hu, hes]; simp,
        fun tail htail => ?_⟩
      rcases hcomplete tail htail with ⟨need, n, hforms, hfits⟩
      -- The first branch ends in front of the same tokens as before, up to the `else`.
      have hsame : Replaces (other :: (w ++ d.ahead)) (other :: (w ++ (S ++ tail))) :=
        .of_nextKind_eq rfl
      have hbehind := hsame.append es
      rw [← hes] at hbehind
      have hend : dropBlank (es ++ other :: (w ++ (S ++ tail))) = other :: (w ++ (S ++ tail)) :=
        hsame.dropBlank_append (by simp [hkind]) hblank
      rw [hu, nextKind_append hne] at hstop
      have hwhole := Forms.alternative hstart
        (hcondition (u ++ (es ++ other :: (w ++ (S ++ tail)))))
        (by rwa [nextKind_append hne]) (hfirst _ hbehind) hend hkind hforms
      simp only [List.cons_append, List.append_assoc]
      refine ⟨_, _, hwhole, fun hdeep => ?_⟩
      have hle := hfits hdeep
      omega
    · exact absurd h pure_ne_failed
  · exact absurd hrest pure_ne_failed

theorem whileStatement_failed (ih : ∀ rest < budget, FailsAt .statement rest) {c d : Cursor}
    {failure : Failure} (hwhile : c.peek.kind = .keyword .while_)
    (h : (whileStatement false budget).run c = .failed failure d)
    (hnumeral : ∀ fault, failure.cause ≠ .numeral fault) :
    Unfinished .statement (budget + Nesting.weight .body) failure c.ahead d.ahead := by
  rcases Cursor.exists_ahead_of_peek hwhile (by decide) with ⟨start, r, hc, -, hstart⟩
  rw [whileStatement, run_advance_bind hc] at h
  rw [hc]
  rcases bind_failed h with h | ⟨opening, d₁, hopening, h⟩
  · -- at the parenthesis in front of the condition
    rcases expect_failed h with ⟨rfl, hunclosed, -⟩
    rw [Cursor.ahead_advance hc]
    refine ⟨by rw [hunclosed]; exact (Opens.refl r).behind hstart, [start],
      [Operator.lparen.token, placeholder, Operator.rparen.token, placeholder], rfl,
      fun tail htail => ?_⟩
    have hcondition := Begins.placeholder_spells .assignment false
      (Operator.rparen.token :: placeholder :: tail)
    have hwhole := Forms.loop hstart Operator.lparen.kind_token hcondition rfl
      (placeholder_behind_blank htail)
    refine ⟨_, _, hwhole, fun _ => ?_⟩
    simp only [Node.nesting]
    omega
  rcases expect_done (by decide) hopening with ⟨hc₁, hopen⟩
  rw [Cursor.ahead_advance hc] at hc₁
  subst hc₁
  rcases bind_failed h with h | ⟨e, d₂, he, h⟩
  · -- in the condition
    rcases expression_failed h hnumeral with ⟨hunclosed, hbegins⟩
    refine ⟨by rw [hunclosed]; exact (hbegins.opens.behind hopen).behind hstart, ?_⟩
    rcases hbegins with ⟨w, S, hw, hcomplete⟩
    refine ⟨start :: opening :: w, S ++ [Operator.rparen.token, placeholder], by rw [hw]; rfl,
      fun tail htail => ?_⟩
    rcases hcomplete (Operator.rparen.token :: placeholder :: tail) with ⟨e, he, hfits⟩
    have hwhole := Forms.loop hstart hopen he rfl (placeholder_behind_blank htail)
    simp only [List.cons_append, List.append_assoc, List.nil_append]
    refine ⟨_, _, hwhole, fun hne => ?_⟩
    have hle := hfits hne
    omega
  rcases expression_reads he with ⟨hspells, hnesting, -⟩
  rcases hspells.detach with ⟨v, hv, hcondition⟩
  rcases bind_failed h with h | ⟨closing, d₃, hclosing, h⟩
  · -- at the parenthesis behind the condition
    rcases expect_failed h with ⟨rfl, hunclosed, -⟩
    refine ⟨by rw [hunclosed]; exact (hspells.opens.behind hopen).behind hstart,
      start :: opening :: v, [Operator.rparen.token, placeholder], by rw [hv]; rfl,
      fun tail htail => ?_⟩
    have hwhole := Forms.loop hstart hopen
      (hcondition (Operator.rparen.token :: placeholder :: tail)) rfl
      (placeholder_behind_blank htail)
    simp only [List.cons_append, List.nil_append]
    exact ⟨_, _, hwhole, fun _ => by omega⟩
  rcases expect_done (by decide) hclosing with ⟨hd₂, hclose⟩
  rcases skipNewlines_bind_failed h with ⟨d₄, h, hd₄⟩
  rcases bind_failed h with h | ⟨_, _, -, h⟩
  · -- in the body
    have hbody := body_failed ih h hnumeral
    rw [hd₄] at hbody
    rcases hbody.behind_blank with ⟨hopens, w, S, hw, hcomplete⟩
    rw [hd₂] at hspells hv
    refine ⟨((hspells.opens.through (hopens.behind hclose)).behind hopen).behind hstart,
      start :: opening :: (v ++ closing :: w), S, by rw [hv, hw]; simp, fun tail htail => ?_⟩
    rcases hcomplete tail htail with ⟨need, n, hforms, hfits⟩
    have hwhole := Forms.loop hstart hopen (hcondition (closing :: (w ++ (S ++ tail)))) hclose
      hforms
    simp only [List.cons_append, List.append_assoc]
    refine ⟨_, _, hwhole, fun hne => ?_⟩
    have hle := hfits hne
    omega
  · exact absurd h pure_ne_failed

/-! ## Clauses -/

/-- A clause fails, or the token that ends it is missing, or else what follows it fails. -/
theorem clause_failed {stop : Kind} (hstop : stop ≠ .eof) {message : String} {make : Node → α}
    {item : Rule α} (hitem : item = expression true budget >>= fun e => (return make e : Rule α))
    {next : Option α → Rule Node} {c d : Cursor} {failure : Failure}
    (h : (unlessNext stop item >>= fun found =>
      expect stop message >>= fun _ => next found).run c = .failed failure d)
    (hnumeral : ∀ fault, failure.cause ≠ .numeral fault) :
    (failure.unclosed = 0 ∧ Opens 0 c.ahead d.ahead ∧
        BeginsClause stop budget failure.cause c.ahead d.ahead) ∨
      ∃ clause t e, Clause stop c.ahead (t :: e.ahead) clause ∧
        Node.clauseNesting clause ≤ budget ∧
        (next (clause.map make)).run e = .failed failure d := by
  subst hitem
  rcases bind_failed h with h | ⟨found, d₁, hfound, hrest⟩
  · rcases bind_failed (unlessNext_failed h).2 with h | ⟨_, _, -, h⟩
    · rcases expression_failed h hnumeral with ⟨hunclosed, hbegins⟩
      exact Or.inl ⟨hunclosed, hbegins.opens, hbegins.clause⟩
    · exact absurd h pure_ne_failed
  rcases unlessNext_done hfound with ⟨rfl, rfl, hnone⟩ | ⟨a, rfl, -, ha⟩
  · -- The clause is left out, so the token that ends it is there.
    rcases bind_failed hrest with hmissing | ⟨t, e, ht, hnext⟩
    · exact absurd hnone (expect_failed hmissing).2.2
    · rcases expect_done hstop ht with ⟨hc, hkind⟩
      have hclause : Clause stop d₁.ahead (t :: e.ahead) none := by
        rw [hc] at hnone ⊢
        exact .none hnone
      exact Or.inr ⟨none, t, e, hclause, Nat.zero_le _, hnext⟩
  · rcases bind_done ha with ⟨e, d₂, he, hpure⟩
    rcases pure_done hpure with ⟨rfl, rfl⟩
    rcases expression_reads he with ⟨hspells, hnesting, -⟩
    rcases bind_failed hrest with hmissing | ⟨t, e', ht, hnext⟩
    · rcases expect_failed hmissing with ⟨rfl, hunclosed, -⟩
      exact Or.inl ⟨hunclosed, hspells.opens, (Begins.of_spells hspells hnesting).clause⟩
    · rcases expect_done hstop ht with ⟨hd₁, hkind⟩
      rw [hd₁] at hspells
      exact Or.inr ⟨some e, t, e', .some hkind hspells, hnesting, hnext⟩

theorem forStatement_failed (ih : ∀ rest < budget, FailsAt .statement rest) {c d : Cursor}
    {failure : Failure} (hfor : c.peek.kind = .keyword .for_)
    (h : (forStatement false budget).run c = .failed failure d)
    (hnumeral : ∀ fault, failure.cause ≠ .numeral fault) :
    Unfinished .statement (budget + Nesting.weight .body) failure c.ahead d.ahead := by
  rcases Cursor.exists_ahead_of_peek hfor (by decide) with ⟨start, r, hc, -, hstart⟩
  rw [forStatement, run_advance_bind hc] at h
  rw [hc]
  rcases bind_failed h with h | ⟨opening, d₁, hopening, h⟩
  · -- at the parenthesis in front of the clauses
    rcases expect_failed h with ⟨rfl, hunclosed, -⟩
    rw [Cursor.ahead_advance hc]
    refine ⟨by rw [hunclosed]; exact (Opens.refl r).behind hstart, [start],
      [Operator.lparen.token, Keyword.and_.token, Keyword.and_.token, Operator.rparen.token,
        placeholder], rfl, fun tail htail => ?_⟩
    have hwhole := Forms.forLoop hstart Operator.lparen.kind_token
      (.none Keyword.and_.kind_token) (.none Keyword.and_.kind_token)
      (.none Operator.rparen.kind_token) (placeholder_behind_blank htail)
    refine ⟨_, _, hwhole, fun _ => ?_⟩
    simp [Node.clauseNesting]
  rcases expect_done (by decide) hopening with ⟨hc₁, hopen⟩
  rw [Cursor.ahead_advance hc] at hc₁
  subst hc₁
  rcases clause_failed (by decide) rfl h hnumeral
    with ⟨hunclosed, hquiet, w, S, hw, hcomplete⟩ |
      ⟨initializer, and₁, d₂, hinitializer, hle₁, h⟩
  · -- in the first clause
    refine ⟨by rw [hunclosed]; exact (hquiet.behind hopen).behind hstart,
      start :: opening :: w,
      S ++ [Keyword.and_.token, Keyword.and_.token, Operator.rparen.token, placeholder],
      by rw [hw]; rfl, fun tail htail => ?_⟩
    rcases hcomplete (Keyword.and_.token :: Keyword.and_.token :: Operator.rparen.token ::
      placeholder :: tail) rfl with ⟨clause, hclause, hfits⟩
    have hwhole := Forms.forLoop hstart hopen hclause
      (.none (r := Keyword.and_.token :: Operator.rparen.token :: placeholder :: tail) rfl)
      (.none (r := Operator.rparen.token :: placeholder :: tail) rfl)
      (placeholder_behind_blank htail)
    simp only [List.cons_append, List.append_assoc, List.nil_append]
    refine ⟨_, _, hwhole, fun hne => ?_⟩
    have hle := hfits hne
    have hnone : Node.clauseNesting none = 0 := rfl
    omega
  rcases hinitializer.detach with ⟨v₁, hv₁, hfirst⟩
  have hquiet₁ := fun {n r} (hrest : Opens n d₂.ahead r) =>
    ((hinitializer.opens.through (hrest.behind hinitializer.nextKind_eq)).behind hopen).behind
      hstart
  rcases clause_failed (by decide) (bind_return _) h hnumeral
    with ⟨hunclosed, hquiet, w, S, hw, hcomplete⟩ | ⟨condition, and₂, d₃, hcondition, hle₂, h⟩
  · -- in the second clause
    refine ⟨by rw [hunclosed]; exact hquiet₁ hquiet, start :: opening :: (v₁ ++ and₁ :: w),
      S ++ [Keyword.and_.token, Operator.rparen.token, placeholder],
      by rw [hv₁, hw]; simp, fun tail htail => ?_⟩
    rcases hcomplete (Keyword.and_.token :: Operator.rparen.token :: placeholder :: tail) rfl
      with ⟨clause, hclause, hfits⟩
    have hwhole := Forms.forLoop hstart hopen (hfirst _) hclause
      (.none (r := Operator.rparen.token :: placeholder :: tail) rfl)
      (placeholder_behind_blank htail)
    simp only [List.cons_append, List.append_assoc, List.nil_append]
    refine ⟨_, _, hwhole, fun hne => ?_⟩
    have hle := hfits hne
    have hnone : Node.clauseNesting none = 0 := rfl
    omega
  rcases hcondition.detach with ⟨v₂, hv₂, hsecond⟩
  have hquiet₂ := fun {n r} (hrest : Opens n d₃.ahead r) =>
    hquiet₁ (hcondition.opens.through (hrest.behind hcondition.nextKind_eq))
  rcases clause_failed (by decide) (bind_return _) h hnumeral
    with ⟨hunclosed, hquiet, w, S, hw, hcomplete⟩ | ⟨increment, closing, d₄, hincrement, hle₃, h⟩
  · -- in the third clause
    refine ⟨by rw [hunclosed]; exact hquiet₂ hquiet,
      start :: opening :: (v₁ ++ and₁ :: (v₂ ++ and₂ :: w)),
      S ++ [Operator.rparen.token, placeholder], by rw [hv₁, hv₂, hw]; simp,
      fun tail htail => ?_⟩
    rcases hcomplete (Operator.rparen.token :: placeholder :: tail) rfl
      with ⟨clause, hclause, hfits⟩
    have hwhole := Forms.forLoop hstart hopen (hfirst _) (hsecond _) hclause
      (placeholder_behind_blank htail)
    simp only [List.cons_append, List.append_assoc, List.nil_append]
    refine ⟨_, _, hwhole, fun hne => ?_⟩
    have hle := hfits hne
    simp only [Option.map_id'] at *
    omega
  rcases hincrement.detach with ⟨v₃, hv₃, hthird⟩
  rcases skipNewlines_bind_failed h with ⟨d₅, h, hd₅⟩
  rcases bind_failed h with h | ⟨_, _, -, h⟩
  · -- in the body
    have hbody := body_failed ih h hnumeral
    rw [hd₅] at hbody
    rcases hbody.behind_blank with ⟨hopens, w, S, hw, hcomplete⟩
    refine ⟨hquiet₂ (hincrement.opens.through (hopens.behind hincrement.nextKind_eq)),
      start :: opening :: (v₁ ++ and₁ :: (v₂ ++ and₂ :: (v₃ ++ closing :: w))), S,
      by rw [hv₁, hv₂, hv₃, hw]; simp, fun tail htail => ?_⟩
    rcases hcomplete tail htail with ⟨need, n, hforms, hfits⟩
    have hwhole := Forms.forLoop hstart hopen (hfirst _) (hsecond _) (hthird _) hforms
    simp only [List.cons_append, List.append_assoc]
    refine ⟨_, _, hwhole, fun hne => ?_⟩
    have hle := hfits hne
    omega
  · exact absurd h pure_ne_failed

/-! ## Blocks -/

/-- A block fails in one of its declarations, or where the input ends inside it. -/
theorem blockRest_failed (ih : ∀ rest < budget, FailsAt .declaration rest) {opening : Token}
    {c d : Cursor} {failure : Failure}
    (h : (untilNext (· == .keyword .end_) (blockItem budget) >>= closeBlock opening).run c =
      .failed failure d)
    (hnumeral : ∀ fault, failure.cause ≠ .numeral fault) :
    ∃ (need : Nat) (ns : List Node) (e : Cursor), need ≤ budget ∧
      Sequence (Forms .declaration) (nextKind e.ahead) (Nesting.weight .block)
        c.ahead e.ahead need ns ∧
      BeginsRest (budget + Nesting.weight .body) failure e.ahead d.ahead := by
  rcases bind_failed h with h | ⟨ns, d₁, hns, h⟩
  · rcases untilNextFrom_failed_inv
      (R := fun c d ns => ∃ need ≤ budget, Sequence (Forms .declaration) (nextKind d.ahead)
        (Nesting.weight .block) c.ahead d.ahead need ns)
      (fun c => ⟨0, Nat.zero_le _, .done rfl⟩)
      (fun _ _ _ _ _ hitem hrest =>
        sequence_next (fun rest _ => ofLevel_done rest .declaration) hitem hrest) h
      with ⟨ns, e, ⟨need, hneed, hsequence⟩, -, -, h⟩
    refine ⟨need, ns, e, hneed, hsequence, ?_⟩
    rcases bind_failed h with h | ⟨_, _, -, h⟩
    · rcases deeper_failed h with ⟨rfl, hunclosed, -⟩ | ⟨hweight, hlt, h⟩
      · exact .nothing hunclosed _
      · have hrest := (ih _ hlt _ _ _ h hnumeral (by simp)).beginsRest
        rwa [← Nat.add_assoc, Nat.add_sub_cancel' hweight] at hrest
    · rcases skipNewlines_bind_failed h with ⟨_, h, -⟩
      exact absurd h pure_ne_failed
  · -- All declarations have been read, and no word that closes the block follows.
    rcases blockItems_done (fun rest _ => ofLevel_done rest .declaration) hns
      with ⟨need, hneed, hsequence⟩
    rcases bind_failed h with hfound | ⟨found, d₂, hfound, hrest⟩
    · exact absurd hfound accept_ne_failed
    rcases accept_done (by decide) hfound with ⟨closing, rfl, -, -⟩ | ⟨rfl, rfl, -⟩
    · exact absurd hrest pure_ne_failed
    · rcases invalid_failed hrest with ⟨rfl, hunclosed⟩
      exact ⟨need, ns, d, hneed, hsequence, .nothing hunclosed _⟩

theorem block_failed (ih : ∀ rest < budget, FailsAt .declaration rest) :
    FailsAt .block budget := by
  intro c failure d h hnumeral hdo
  change (block false budget).run c = .failed failure d at h
  rw [block_eq] at h
  rcases bind_failed h with h | ⟨opening, d₁, hopening, h⟩
  · exact absurd (hdo rfl) (expect_failed h).2.2
  rcases expect_done (by decide) hopening with ⟨hc, hopen⟩
  rcases insideBlock_failed h with ⟨inner, h, hcause, hunclosed⟩
  rcases skipNewlines_bind_failed h with ⟨d₂, h, hd₂⟩
  rcases blockRest_failed ih h (by rwa [← hcause])
    with ⟨need, ns, e, hneed, hsequence, hopens, w, S, hw, hcomplete⟩
  rw [hd₂] at hsequence
  rw [hc]
  refine ⟨?_, ?_⟩
  · have hbody := (Opens.dropBlank d₁.ahead).through
      ((hsequence.opens fun _ _ _ _ => Forms.opens).through hopens)
    have hboth := (Opens.do_ hopen d₁.ahead).trans hbody
    rwa [Nat.add_comm, ← hunclosed] at hboth
  · rw [hcause]
    rcases hsequence.detach (.keyword .end_) with ⟨u, hu, hbefore⟩
    rcases exists_blank_append d₁.ahead with ⟨es, hes, hblank⟩
    have hne : nextKind (u ++ e.ahead) ≠ .eol := by
      rw [← hu]
      exact nextKind_dropBlank_ne _
    rw [hu] at hes
    refine ⟨opening :: (es ++ (u ++ w)), S ++ [Keyword.end_.token], by rw [hes, hw]; simp,
      fun tail _ => ?_⟩
    rcases hcomplete tail with ⟨hreplaces, need', ms, hms, hfits⟩
    have hsequence := hbefore _ _ _ _ hreplaces hms
    rw [← (hreplaces.append u).dropBlank_append hne hblank] at hsequence
    simp only [List.cons_append, List.append_assoc, List.nil_append]
    refine ⟨_, _, .block hopen hsequence, fun hdeep => ?_⟩
    have hle := hfits hdeep
    omega

/-! ## Functions -/

/-- The tokens of `i` in front of `r` are the beginning of a list of parameters. -/
def BeginsParameters (i r : List Token) : Prop :=
  ∃ w S, i = w ++ r ∧ ∀ tail, nextKind tail = .operator .rparen → ∃ names,
    Parameters (w ++ (S ++ tail)) tail names

theorem parameter_failed {c d : Cursor} {failure : Failure}
    (h : parameter.run c = .failed failure d) : d = c ∧ failure.unclosed = 0 := by
  rw [parameter] at h
  rcases bind_failed h with h | ⟨_, _, -, h⟩
  · rcases expect_failed h with ⟨hd, hunclosed, -⟩
    exact ⟨hd, hunclosed⟩
  · exact absurd h pure_ne_failed

/-- The parameters fail, or the parenthesis that closes them is missing, or else what follows them
fails. -/
theorem parameters_failed {message : String} {next : List String → Rule Node} {c d : Cursor}
    {failure : Failure}
    (h : (parameters >>= fun names => expect (.operator .rparen) message >>= fun _ =>
      next names).run c = .failed failure d) :
    (failure.unclosed = 0 ∧ Opens 0 c.ahead d.ahead ∧ BeginsParameters c.ahead d.ahead) ∨
      ∃ names t e, Parameters c.ahead (t :: e.ahead) names ∧
        (next names).run e = .failed failure d := by
  rw [parameters] at h
  have hplaceholder : ∀ tail, IsParameter (placeholder :: tail) tail placeholder.text :=
    fun tail => ⟨placeholder, rfl, rfl, rfl⟩
  rcases bind_failed h with h | ⟨names, d₁, hnames, h⟩
  · rcases bind_failed h with h | ⟨_, _, -, h⟩
    · left
      rcases commaSeparated_failed (R := IsParameter) (fun _ _ _ h => parameter_done h)
        (unlessNext_failed h).2 with h | ⟨as, comma, e, has, hcomma, h⟩
      · rcases parameter_failed h with ⟨rfl, hunclosed⟩
        refine ⟨hunclosed, .refl _, [], [placeholder], rfl, fun tail htail => ?_⟩
        exact ⟨_, .some htail (.one (hplaceholder tail))⟩
      · rcases parameter_failed h with ⟨rfl, hunclosed⟩
        have hopens := (has.opens fun _ _ _ => IsParameter.opens).through
          ((Opens.refl d.ahead).behind hcomma)
        rcases has.detach fun _ _ _ => IsParameter.detach with ⟨v, hv, hfree⟩
        refine ⟨hunclosed, hopens, v ++ [comma], [placeholder], by rw [hv]; simp,
          fun tail htail => ?_⟩
        have hall := (hfree (comma :: placeholder :: tail)).snoc hcomma (hplaceholder tail)
        simp only [List.append_assoc, List.cons_append, List.nil_append]
        exact ⟨_, .some htail hall⟩
    · exact absurd h pure_ne_failed
  rcases bind_done hnames with ⟨found, d₂, hfound, hpure⟩
  rcases pure_done hpure with ⟨rfl, rfl⟩
  rcases bind_failed h with hmissing | ⟨t, e, ht, hnext⟩
  · left
    rcases expect_failed hmissing with ⟨rfl, hunclosed, hno⟩
    rcases unlessNext_done hfound with ⟨-, rfl, hnone⟩ | ⟨names, rfl, -, hnames⟩
    · exact absurd hnone hno
    · have hall := commaSeparated_done (R := IsParameter) (fun _ _ _ h => parameter_done h) hnames
      rcases hall.detach fun _ _ _ => IsParameter.detach with ⟨v, hv, hfree⟩
      exact ⟨hunclosed, hall.opens fun _ _ _ => IsParameter.opens, v, [], hv,
        fun tail htail => ⟨_, .some htail (hfree tail)⟩⟩
  · right
    rcases expect_done (by decide) ht with ⟨hd₁, hkind⟩
    have hparams := parameters_done hnames (by simp [hd₁, hkind])
    rw [hd₁] at hparams
    exact ⟨_, t, e, hparams, hnext⟩

/-- A function whose body is a block that is closed as soon as it is opened. -/
theorem emptyFunction_forms {i j tail : List Token} {start name opening closing : Token}
    {params : List String} (hstart : start.kind = .keyword .fn) (hname : name.kind = .ident)
    (hopen : opening.kind = .operator .lparen) (hparams : Parameters i (closing :: j) params)
    (hj : dropBlank j = Keyword.do_.token :: Keyword.end_.token :: tail) :
    ∃ n, Forms .declaration (start :: name :: opening :: i) tail 0 n := by
  have hbody := emptyBlock_forms tail
  rw [← hj] at hbody
  exact ⟨_, .function hstart hname hopen hparams hbody⟩

theorem functionDeclaration_failed (hblock : FailsAt .block budget) {c d : Cursor}
    {failure : Failure} (hfn : c.peek.kind = .keyword .fn)
    (h : (functionDeclaration false budget).run c = .failed failure d)
    (hnumeral : ∀ fault, failure.cause ≠ .numeral fault) :
    Unfinished .declaration (budget + Nesting.weight .body) failure c.ahead d.ahead := by
  rcases Cursor.exists_ahead_of_peek hfn (by decide) with ⟨start, r, hc, -, hstart⟩
  rw [functionDeclaration, run_advance_bind hc] at h
  rw [hc]
  have hempty : ∀ tail, dropBlank (Keyword.do_.token :: Keyword.end_.token :: tail) =
      Keyword.do_.token :: Keyword.end_.token :: tail :=
    fun tail => dropBlank_cons_of_ne (by decide) _
  rcases bind_failed h with h | ⟨name, d₁, hname, h⟩
  · -- at the name
    rcases expect_failed h with ⟨rfl, hunclosed, -⟩
    rw [Cursor.ahead_advance hc]
    refine ⟨by rw [hunclosed]; exact (Opens.refl r).behind hstart, [start],
      [placeholder, Operator.lparen.token, Operator.rparen.token, Keyword.do_.token,
        Keyword.end_.token], rfl, fun tail _ => ?_⟩
    have hname : placeholder.kind = .ident := rfl
    rcases emptyFunction_forms hstart hname Operator.lparen.kind_token
      (.none Operator.rparen.kind_token) (hempty tail) with ⟨n, hn⟩
    exact ⟨0, n, hn, fun _ => Nat.zero_le _⟩
  rcases expect_done (by decide) hname with ⟨hc₁, hkind⟩
  rw [Cursor.ahead_advance hc] at hc₁
  subst hc₁
  rcases bind_failed h with h | ⟨opening, d₂, hopening, h⟩
  · -- at the parenthesis in front of the parameters
    rcases expect_failed h with ⟨rfl, hunclosed, -⟩
    refine ⟨by rw [hunclosed]; exact ((Opens.refl d.ahead).behind hkind).behind hstart,
      [start, name], [Operator.lparen.token, Operator.rparen.token, Keyword.do_.token,
        Keyword.end_.token], rfl, fun tail _ => ?_⟩
    rcases emptyFunction_forms hstart hkind Operator.lparen.kind_token
      (.none Operator.rparen.kind_token) (hempty tail) with ⟨n, hn⟩
    exact ⟨0, n, hn, fun _ => Nat.zero_le _⟩
  rcases expect_done (by decide) hopening with ⟨hd₁, hopen⟩
  rw [hd₁]
  rcases parameters_failed h with ⟨hunclosed, hquiet, w, S, hw, hcomplete⟩ |
    ⟨params, closing, d₃, hparams, h⟩
  · -- in the parameters
    refine ⟨by rw [hunclosed]; exact ((hquiet.behind hopen).behind hkind).behind hstart,
      start :: name :: opening :: w,
      S ++ [Operator.rparen.token, Keyword.do_.token, Keyword.end_.token], by rw [hw]; rfl,
      fun tail _ => ?_⟩
    rcases hcomplete (Operator.rparen.token :: Keyword.do_.token :: Keyword.end_.token :: tail) rfl
      with ⟨names, hnames⟩
    rcases emptyFunction_forms hstart hkind hopen hnames (hempty tail) with ⟨n, hn⟩
    simp only [List.cons_append, List.append_assoc, List.nil_append]
    exact ⟨0, n, hn, fun _ => Nat.zero_le _⟩
  have hquiet := fun {k r} (hrest : Opens k d₃.ahead r) =>
    (((hparams.opens.through (hrest.behind hparams.nextKind_eq)).behind hopen).behind hkind).behind
      hstart
  rcases hparams.detach with ⟨v, hv, hfree⟩
  rcases skipNewlines_bind_failed h with ⟨d₄, h, hd₄⟩
  rw [run_peek_bind] at h
  split at h
  · -- in the body
    next hdo =>
    rw [Cursor.kind_peek] at hdo
    rcases bind_failed h with h | ⟨_, _, -, h⟩
    · have hbody := hblock _ _ _ h hnumeral fun _ => hdo
      rw [hd₄] at hbody
      rcases hbody.behind_blank with ⟨hopens, w, S, hw, hcomplete⟩
      refine ⟨hquiet hopens, start :: name :: opening :: (v ++ closing :: w), S,
        by rw [hv, hw]; simp, fun tail htail => ?_⟩
      rcases hcomplete tail htail with ⟨need, n, hforms, hfits⟩
      have hwhole := Forms.function hstart hkind hopen (hfree (w ++ (S ++ tail))) hforms
      simp only [List.cons_append, List.append_assoc]
      exact ⟨need, _, hwhole, hfits⟩
    · exact absurd h pure_ne_failed
  · -- at the word that opens the body
    rcases unexpected_failed h with ⟨rfl, hunclosed⟩
    rcases exists_blank_append d₃.ahead with ⟨es, hes, hblank⟩
    rw [← hd₄] at hes
    refine ⟨by rw [hunclosed, hd₄]; exact hquiet (.dropBlank _),
      start :: name :: opening :: (v ++ closing :: es), [Keyword.do_.token, Keyword.end_.token],
      by rw [hv, hes]; simp, fun tail _ => ?_⟩
    have hbody : dropBlank (es ++ Keyword.do_.token :: Keyword.end_.token :: tail) =
        Keyword.do_.token :: Keyword.end_.token :: tail := by
      rw [dropBlank_append_of_blank hblank, hempty]
    rcases emptyFunction_forms hstart hkind hopen (hfree _) hbody with ⟨n, hn⟩
    simp only [List.cons_append, List.append_assoc, List.nil_append]
    exact ⟨0, n, hn, fun _ => Nat.zero_le _⟩

/-! ## All levels -/

theorem statement_failed (ih : ∀ rest < budget, FailsAt .statement rest)
    (hblock : FailsAt .block budget) : FailsAt .statement budget := by
  intro c failure d h hnumeral _
  change (statement false budget).run c = .failed failure d at h
  rw [statement, run_peek_bind] at h
  split at h
  · next hk => exact ifStatement_failed ih hk h hnumeral
  · next hk => exact forStatement_failed ih hk h hnumeral
  · next hk =>
    rcases Cursor.exists_ahead_of_peek hk (by decide) with ⟨start, r, hc, -, hstart⟩
    rw [printStatement, run_advance_bind hc] at h
    rcases simple_failed (.print start.line) h hnumeral with ⟨hunclosed, hbegins⟩
    rw [Cursor.ahead_advance hc] at hbegins
    rw [hc]
    exact word_unfinished hstart (by decide) (by decide) (fun he hend => .print hstart he hend)
      hunclosed hbegins
  · next hk =>
    rcases Cursor.exists_ahead_of_peek hk (by decide) with ⟨start, r, hc, -, hstart⟩
    rw [returnStatement, run_advance_bind hc] at h
    rcases simple_failed (.return_ start.line) h hnumeral with ⟨hunclosed, hbegins⟩
    rw [Cursor.ahead_advance hc] at hbegins
    rw [hc]
    exact word_unfinished hstart (by decide) (by decide) (fun he hend => .return_ hstart he hend)
      hunclosed hbegins
  · next hk => exact whileStatement_failed ih hk h hnumeral
  · next hk =>
    rw [Cursor.kind_peek] at hk
    exact (hblock _ _ _ h hnumeral fun _ => hk).blockStatement
  · rw [expressionStatement] at h
    rcases simple_failed (fun e => .expression e.line e) h hnumeral with ⟨hunclosed, hbegins⟩
    exact expression_unfinished hunclosed hbegins

theorem declaration_failsAt (hblock : FailsAt .block budget)
    (hstatement : FailsAt .statement budget) : FailsAt .declaration budget := by
  intro c failure d h hnumeral _
  change (declaration false budget).run c = .failed failure d at h
  rw [declaration, run_peek_bind] at h
  split at h
  · next hk => exact functionDeclaration_failed hblock hk h hnumeral
  · exact (hstatement _ _ _ h hnumeral (by simp)).declared

/-- Where the rule of a level fails, it has taken the beginning of what the level says, and left
open the blocks that the failure counts. -/
theorem ofLevel_failed (budget : Nat) : ∀ L, FailsAt L budget := by
  induction budget using Nat.strongRecOn with
  | ind budget ih =>
    intro L
    have hblock : FailsAt .block budget := block_failed fun rest hlt => ih rest hlt _
    have hstatement : FailsAt .statement budget :=
      statement_failed (fun rest hlt => ih rest hlt _) hblock
    cases L with
    | declaration => exact declaration_failsAt hblock hstatement
    | statement => exact hstatement
    | block => exact hblock

end Grammar

end ScriptCheck
