import ScriptCheck.Proofs.Statement.Breaking

/-!
# Lines in the first branch of a conditional

A line in the first branch of a conditional that has a second one has nothing around it that
`FormsAround` could tell, since the `else` behind the branch would be left without its `if`. What is
around it all the same is told in two parts. Up to the innermost of these conditionals there is only
what `FormsAround` knows (`InFirstBranch.exists_innermost`), and of what stands around a conditional
it is enough to know that it fails when the conditional does, with more blocks open
(`Forms.breaksWith`).

An `if` stands at the start of a conditional and nowhere else. So in what the tokens form, every
`if` is the start of a conditional that is formed there.
-/

namespace ScriptCheck

open ScriptCheck.Rule ScriptCheck.Grammar

/-- The same tokens spell one expression at most, if nothing goes on with it. -/
theorem Spells.unique {T : Tier} {s : Bool} {i r r' : List Token} {e e' : Node}
    (hi : ∀ t ∈ i, t.kind ≠ .eof) (h : Spells T s i r e)
    (hstop : T.extendedBy s (nextKind r) = false) (h' : Spells T s i r' e')
    (hstop' : T.extendedBy s (nextKind r') = false) : r' = r ∧ e' = e := by
  have hi' : i.takeWhile Cursor.isBeforeEnd = i := Cursor.takeWhile_isBeforeEnd hi
  have hc : (Cursor.ofTokens i).ahead = i := by rw [Cursor.ahead_ofTokens, hi']
  rcases h.comes hstop (max e.nesting e'.nesting) hc with ⟨-, d, hd, hrun⟩ | ⟨hno, -⟩
  · rcases h'.comes hstop' (max e.nesting e'.nesting) hc with ⟨-, d', hd', hrun'⟩ | ⟨hno, -⟩
    · rw [hrun] at hrun'
      cases hrun'
      exact ⟨hd'.symm.trans hd, rfl⟩
    · exact absurd (Nat.le_max_right _ _) hno
  · exact absurd (Nat.le_max_left _ _) hno

/-! ## Where conditionals start -/

section

variable {c i j r : List Token} (hc : nextKind c = .keyword .if_)

include hc

/-- What starts with an `if` does not start in the midst of other tokens. -/
theorem suffix_through (h : c <:+ i) (hspan : Spans (·.kind ≠ .keyword .if_) i j) : c <:+ j := by
  rcases hspan with ⟨w, rfl, -, hall⟩
  rcases h with ⟨u, hu⟩
  rcases List.append_eq_append_iff.mp hu with ⟨x, hx, hcx⟩ | ⟨x, hx, hj⟩
  · cases x with
    | nil =>
      rw [List.nil_append] at hcx
      exact hcx ▸ List.suffix_refl c
    | cons t x =>
      rw [hcx] at hc
      exact absurd hc (hall t (by simp [hx]))
  · exact ⟨x, hj.symm⟩

theorem suffix_through_token {t : Token} {k : Kind} (h : c <:+ t :: i) (ht : t.kind = k)
    (hk : k ≠ .keyword .if_) : c <:+ i :=
  suffix_through hc h (.one_of_kind ht hk i)

theorem suffix_through_expression (h : c <:+ i)
    (hspan : Spans (·.kind.isInExpression = true) i j) : c <:+ j := by
  refine suffix_through hc h (hspan.mono fun t ht hif => ?_)
  rw [hif] at ht
  exact absurd ht (by decide)

theorem suffix_through_blank (h : c <:+ i) : c <:+ dropBlank i := by
  rcases exists_blank_append i with ⟨es, hes, hblank⟩
  by_cases hnil : es = []
  · rw [hnil, List.nil_append] at hes
    rwa [← hes]
  · refine suffix_through hc h ⟨es, hes, hnil, fun t ht hif => ?_⟩
    rw [hblank t ht] at hif
    cases hif

end

theorem Sequence.suffix_of {item : List Token → List Token → Nat → Node → Prop} {stop : Kind}
    {weight a : Nat} {i r : List Token} {ns : List Node}
    (hitem : ∀ i r a n, item i r a n → r <:+ i) (h : Sequence item stop weight i r a ns) :
    r <:+ i := by
  induction h with
  | done _ => exact List.suffix_refl _
  | next hn _ ih => exact ih.trans ((dropBlank_suffix _).trans (hitem _ _ _ _ hn))

/-- Among items in sequence, a conditional that starts in front of their end starts in one of
them. -/
theorem Sequence.exists_item_at {item : List Token → List Token → Nat → Node → Prop} {stop : Kind}
    {weight a : Nat} {i r c : List Token} {ns : List Node}
    (hitem : ∀ i r a n, item i r a n → r <:+ i) (hc : nextKind c = .keyword .if_)
    (h : Sequence item stop weight i r a ns) (hat : c <:+ i) (hlt : r.length < c.length) :
    ∃ j k b d n before, Sequence item (nextKind j) weight i j b before ∧ item j k d n ∧
      c <:+ j ∧ k.length < c.length ∧ max b (weight + d) ≤ a := by
  induction h with
  | done _ => exact absurd hat.length_le (Nat.not_le.mpr hlt)
  | @next i j r d b n ns hn _ ih =>
    by_cases hj : j.length < c.length
    · exact ⟨i, j, 0, d, n, [], .done rfl, hn, hat, hj, by omega⟩
    · have hbehind := List.suffix_of_suffix_length_le hat (hitem _ _ _ _ hn) (Nat.not_lt.mp hj)
      rcases ih (suffix_through_blank hc hbehind) hlt
        with ⟨j', k, b', d', m, before, hbefore, hm, hat', hlt', hle⟩
      exact ⟨j', k, _, d', m, n :: before, .next hn hbefore, hm, hat', hlt', by omega⟩

/-! ## What fails with a conditional -/

/-- In what is formed from `i` in front of `r`, a conditional that starts at `c` is formed within
the same budget, and what is formed fails when that conditional does, with more blocks open. -/
def BreaksWith [Stack] (c : List Token) (L : Level) (i r : List Token) (need : Nat) : Prop :=
  c <:+ i → r.length < c.length →
    (∃ k a n, Forms .statement c k a n ∧ a ≤ need) ∧
      ∃ outer, ∀ p q z e inner, Breaks p q e z → BreaksAround p q e z .statement c inner →
        BreaksAround p q e z L i (inner + outer)

/-- What holds the part that a conditional starts in fails with it if the part does. -/
theorem BreaksWith.inside [Stack] {c i i' r r' : List Token} {L L' : Level} {need need' : Nat}
    (h : BreaksWith c L i r need) (hle : need ≤ need') (more : Nat)
    (hinside : c <:+ i' → r'.length < c.length → c <:+ i ∧ r.length < c.length)
    (hpart : ∀ p q z e blocks, Breaks p q e z → BreaksAround p q e z L i blocks →
      BreaksAround p q e z L' i' (blocks + more)) :
    BreaksWith c L' i' r' need' := by
  intro hat hlt
  rcases hinside hat hlt with ⟨hat', hlt'⟩
  rcases h hat' hlt' with ⟨⟨k, a, n, hforms, ha⟩, outer, hbreaks⟩
  refine ⟨⟨k, a, n, hforms, Nat.le_trans ha hle⟩, outer + more, fun p q z e inner hq hinner => ?_⟩
  rw [← Nat.add_assoc]
  exact hpart p q z e _ hq (hbreaks p q z e inner hq hinner)

section

variable {c : List Token} (hc : nextKind c = .keyword .if_)

include hc

variable [Stack]

/-- No conditional starts in a simple statement. -/
theorem breaksWith_simple {i j r : List Token} {a : Nat} (hbehind : c <:+ i → c <:+ j)
    (hend : Terminated j r) : BreaksWith c .statement i r a := by
  intro hat hlt
  have hj := hbehind hat
  cases hend with
  | line ht =>
    have hover := suffix_through_token hc hj ht (by decide)
    exact absurd hover.length_le (Nat.not_le.mpr hlt)
  | closed _ => exact absurd hj.length_le (Nat.not_le.mpr hlt)

theorem breaksWith_thenBranch {i j k : List Token} {a : Nat} {start : Token} {e n : Node}
    (hstart : start.kind = .keyword .if_) (he : Spells .assignment false i j e)
    (hstop : Tier.assignment.extendedBy false (nextKind j) = false)
    (hn : Forms .statement (dropBlank j) k a n) (hno : nextKind (dropBlank k) ≠ .keyword .else_)
    (ih : BreaksWith c .statement (dropBlank j) k a) :
    BreaksWith c .statement (start :: i) (dropBlank k)
      (max e.nesting (Nesting.weight .body + a)) := by
  intro hat hlt
  rcases List.suffix_cons_iff.mp hat with rfl | hi
  · exact ⟨⟨_, _, _, .conditional hstart he hstop hn hno, Nat.le_refl _⟩, 0,
      fun _ _ _ _ _ _ h => h⟩
  · refine BreaksWith.inside ih (by omega) 0 (fun _ hlt => ?_)
      (fun _ _ _ _ _ hq hbody => thenBranch_breaks hq hstart he hstop hbody) hat hlt
    have hbody := suffix_through_blank hc (suffix_through_expression hc hi he.inExpression)
    refine ⟨hbody, Nat.lt_of_not_le fun hle => ?_⟩
    -- Behind the branch there are only ends of line, and no conditional starts with them.
    have hbehind := List.suffix_of_suffix_length_le hbody hn.spans.suffix hle
    exact absurd (suffix_through_blank hc hbehind).length_le (Nat.not_le.mpr hlt)

theorem breaksWith_elseBranch {i j k l r : List Token} {a b : Nat} {start other : Token}
    {e n m : Node} (hstart : start.kind = .keyword .if_) (he : Spells .assignment false i j e)
    (hstop : Tier.assignment.extendedBy false (nextKind j) = false)
    (hn : Forms .statement (dropBlank j) k a n) (hk : dropBlank k = other :: l)
    (hother : other.kind = .keyword .else_) (hm : Forms .statement (dropBlank l) r b m)
    (ih : BreaksWith c .statement (dropBlank j) k a)
    (ihElse : BreaksWith c .statement (dropBlank l) r b) :
    BreaksWith c .statement (start :: i) r
      (max e.nesting (max (Nesting.weight .body + a) (Nesting.weight .body + b))) := by
  intro hat hlt
  rcases List.suffix_cons_iff.mp hat with rfl | hi
  · exact ⟨⟨_, _, _, .alternative hstart he hstop hn hk hother hm, Nat.le_refl _⟩, 0,
      fun _ _ _ _ _ _ h => h⟩
  · have hbody := suffix_through_blank hc (suffix_through_expression hc hi he.inExpression)
    by_cases hfirst : k.length < c.length
    · exact BreaksWith.inside ih (by omega) 0 (fun _ _ => ⟨hbody, hfirst⟩)
        (fun _ _ _ _ _ hq h => thenBranch_breaks hq hstart he hstop h) hat hlt
    · refine BreaksWith.inside ihElse (by omega) 0 (fun _ hlt => ⟨?_, hlt⟩)
        (fun _ _ _ _ _ hq h => elseBranch_breaks hq hstart he hstop hn hk hother h) hat hlt
      have hbehind := suffix_through_blank hc
        (List.suffix_of_suffix_length_le hbody hn.spans.suffix (Nat.not_lt.mp hfirst))
      rw [hk] at hbehind
      exact suffix_through_blank hc (suffix_through_token hc hbehind hother (by decide))

theorem breaksWith_loopBody {i j r : List Token} {a : Nat} {start opening closing : Token}
    {e : Node} (hstart : start.kind = .keyword .while_) (hopen : opening.kind = .operator .lparen)
    (he : Spells .assignment false i (closing :: j) e) (hclose : closing.kind = .operator .rparen)
    (ih : BreaksWith c .statement (dropBlank j) r a) :
    BreaksWith c .statement (start :: opening :: i) r
      (max e.nesting (Nesting.weight .body + a)) := by
  refine ih.inside (by omega) 0 (fun hat hlt => ⟨?_, hlt⟩)
    fun _ _ _ _ _ hq h => loopBody_breaks hq hstart hopen he hclose h
  have hcondition := suffix_through_token hc
    (suffix_through_token hc hat hstart (by decide)) hopen (by decide)
  have hbehind := suffix_through_expression hc hcondition he.inExpression
  exact suffix_through_blank hc (suffix_through_token hc hbehind hclose (by decide))

theorem breaksWith_forBody {i j k l r : List Token} {a : Nat}
    {start opening and₁ and₂ closing : Token} {initializer condition increment : Option Node}
    (hstart : start.kind = .keyword .for_) (hopen : opening.kind = .operator .lparen)
    (hinitializer : Clause (.keyword .and_) i (and₁ :: j) initializer)
    (hcondition : Clause (.keyword .and_) j (and₂ :: k) condition)
    (hincrement : Clause (.operator .rparen) k (closing :: l) increment)
    (ih : BreaksWith c .statement (dropBlank l) r a) :
    BreaksWith c .statement (start :: opening :: i) r
      (max (Node.clauseNesting initializer) (max (Node.clauseNesting condition)
        (max (Node.clauseNesting increment) (Nesting.weight .body + a)))) := by
  refine ih.inside (by omega) 0 (fun hat hlt => ⟨?_, hlt⟩)
    fun _ _ _ _ _ hq h => forBody_breaks hq hstart hopen hinitializer hcondition hincrement h
  have hclauses := ((hinitializer.inExpression rfl).trans (hcondition.inExpression rfl)).trans
    (hincrement.inExpression rfl)
  have hhead := suffix_through_token hc
    (suffix_through_token hc hat hstart (by decide)) hopen (by decide)
  exact suffix_through_blank hc (suffix_through_expression hc hhead hclauses)

theorem breaksWith_block {i r : List Token} {a : Nat} {opening closing : Token} {ns : List Node}
    (hopen : opening.kind = .keyword .do_)
    (hns : Sequence
      (fun i r a n => ∃ _ : Forms .declaration i r a n, BreaksWith c .declaration i r a)
      (.keyword .end_) (Nesting.weight .block) (dropBlank i) (closing :: r) a ns) :
    BreaksWith c .block (opening :: i) r a := by
  have hclose : closing.kind = .keyword .end_ := hns.nextKind_eq
  intro hat hlt
  have hbody := suffix_through_blank hc (suffix_through_token hc hat hopen (by decide))
  -- The conditional does not start with the word that closes the block, nor behind it.
  have hinside : (closing :: r).length < c.length := by
    refine Nat.lt_of_not_le fun hle => ?_
    have hsuffix := List.suffix_of_suffix_length_le hbody
      (hns.suffix_of fun _ _ _ _ hn => hn.1.spans.suffix) hle
    have hover := suffix_through_token hc hsuffix hclose (by decide)
    exact absurd hover.length_le (Nat.not_le.mpr hlt)
  rcases hns.exists_item_at (fun _ _ _ _ hn => hn.1.spans.suffix) hc hbody hinside
    with ⟨j, k, b, d, n, before, hbefore, ⟨hforms, hbreaks⟩, hat', hlt', hle⟩
  refine hbreaks.inside (by omega) 1 (fun _ _ => ⟨hat', hlt'⟩)
    (fun _ _ _ _ _ hq h => ?_) hat hlt
  exact block_breaks hq hopen (hbefore.mono fun _ _ _ _ hn => hn.1)
    (hforms.nextKind_ne (by decide)) h

theorem breaksWith_functionBody {i j r : List Token} {a : Nat} {start name opening closing : Token}
    {params : List String} {body : Node} (hstart : start.kind = .keyword .fn)
    (hname : name.kind = .ident) (hopen : opening.kind = .operator .lparen)
    (hparams : Parameters i (closing :: j) params) (hbody : Forms .block (dropBlank j) r a body)
    (ih : BreaksWith c .block (dropBlank j) r a) :
    BreaksWith c .declaration (start :: name :: opening :: i) r a := by
  refine ih.inside (Nat.le_refl a) 0 (fun hat hlt => ⟨?_, hlt⟩)
    fun _ _ _ _ _ hq h => functionBody_breaks hq hstart hname hopen hparams hbody.block_start h
  have hhead := suffix_through_token hc hat hstart (by decide)
  have hlist := suffix_through_token hc (suffix_through_token hc hhead hname (by decide)) hopen
    (by decide)
  exact suffix_through_blank hc (suffix_through_expression hc hlist hparams.inExpression)

/-- Every `if` starts a conditional, and all that is formed around a conditional fails with it. -/
theorem Forms.breaksWith {L : Level} {i r : List Token} {a : Nat} {n : Node}
    (h : Forms L i r a n) : BreaksWith c L i r a := by
  induction h using Forms.induct with
  | print hstart he hend =>
    refine breaksWith_simple hc (fun hat => ?_) hend
    have hi := suffix_through_token hc hat hstart (by decide)
    exact suffix_through_expression hc hi he.inExpression
  | return_ hstart he hend =>
    refine breaksWith_simple hc (fun hat => ?_) hend
    have hi := suffix_through_token hc hat hstart (by decide)
    exact suffix_through_expression hc hi he.inExpression
  | expression he hend =>
    exact breaksWith_simple hc (fun hat => suffix_through_expression hc hat he.inExpression) hend
  | conditional hstart he hstop hn hno ih =>
    exact breaksWith_thenBranch hc hstart he hstop hn hno ih
  | alternative hstart he hstop hn hk hother hm ih ihElse =>
    exact breaksWith_elseBranch hc hstart he hstop hn hk hother hm ih ihElse
  | loop hstart hopen he hclose _ ih => exact breaksWith_loopBody hc hstart hopen he hclose ih
  | forLoop hstart hopen hinitializer hcondition hincrement _ ih =>
    exact breaksWith_forBody hc hstart hopen hinitializer hcondition hincrement ih
  | blockStatement h ih =>
    exact ih.inside (Nat.le_refl _) 0 (fun hat hlt => ⟨hat, hlt⟩)
      fun _ _ _ _ _ hq hblock => blockStatement_breaks hq h.block_start hblock
  | block hopen hns => exact breaksWith_block hc hopen hns
  | function hstart hname hopen hparams hbody ih =>
    exact breaksWith_functionBody hc hstart hname hopen hparams hbody ih
  | declared h ih =>
    exact ih.inside (Nat.le_refl _) 0 (fun hat hlt => ⟨hat, hlt⟩)
      fun _ _ _ _ _ hq hstatement => declared_breaks hq h.statement_start hstatement

end

/-! ## The innermost first branch -/

/-- A statement that starts with an `if` has a condition and a branch. -/
theorem Forms.exists_branch {j r : List Token} {b : Nat} {start : Token} {m : Node}
    (h : Forms .statement (start :: j) r b m) (hstart : start.kind = .keyword .if_) :
    ∃ k l a e n, Spells .assignment false j k e ∧
      Tier.assignment.extendedBy false (nextKind k) = false ∧
      Forms .statement (dropBlank k) l a n ∧ a ≤ b := by
  cases h with
  | conditional _ he hstop hn _ => exact ⟨_, _, _, _, _, he, hstop, hn, by omega⟩
  | alternative _ he hstop hn _ _ _ => exact ⟨_, _, _, _, _, he, hstop, hn, by omega⟩
  | expression he _ => exact absurd hstart (he.nextKind_ne (by decide) (by decide))
  | blockStatement hblock =>
    have hdo := hblock.block_start
    rw [nextKind_cons, hstart] at hdo
    cases hdo
  | print hother _ _ | return_ hother _ _ | loop hother _ _ _ _ | forLoop hother _ _ _ _ _ =>
    rw [hstart] at hother
    cases hother

/-- In front of `l`, where an `else` comes next, the tokens from `c` on form a conditional up to the
end of its first branch, and what `FormsAround` tells stands around the line at `p` in that
branch. -/
inductive BranchAround (p y : List Token) : (c l : List Token) → (need blocks : Nat) →
    (left : List Node) → Prop where
  | mk {j k l : List Token} {a blocks : Nat} {start : Token} {e n : Node} {left : List Node} :
      start.kind = .keyword .if_ → Spells .assignment false j k e →
      Tier.assignment.extendedBy false (nextKind k) = false →
      FormsAround p y .statement (dropBlank k) l a n blocks left →
      nextKind (dropBlank l) = .keyword .else_ → BranchAround p y (start :: j) l a blocks left

/-- What stands around a line reaches behind it. -/
theorem FormsAround.suffix {p y : List Token} {L : Level} {i r : List Token} {a blocks : Nat}
    {n : Node} {left : List Node} (h : FormsAround p y L i r a n blocks left) : r <:+ y := by
  induction h with
  | line _ => exact List.suffix_refl y
  | thenBranch _ _ _ _ _ ih => exact (dropBlank_suffix _).trans ih
  | elseBranch _ _ _ _ _ _ _ ih => exact ih
  | loopBody _ _ _ _ _ ih => exact ih
  | forBody _ _ _ _ _ _ ih => exact ih
  | blockStatement _ ih => exact ih
  | block _ _ _ hafter ih =>
    have hbehind := hafter.suffix_of fun _ _ _ _ hn => hn.spans.suffix
    exact (List.suffix_cons _ _).trans ((hbehind.trans (dropBlank_suffix _)).trans ih)
  | functionBody _ _ _ _ _ ih => exact ih
  | declared _ ih => exact ih

namespace BranchAround

variable {p y c l : List Token} {a blocks : Nat} {left : List Node}

theorem start_eq (h : BranchAround p y c l a blocks left) : nextKind c = .keyword .if_ := by
  cases h with
  | mk hstart _ _ _ _ => exact hstart

/-- When the line is broken, the conditional is. -/
theorem breaks [Stack] {q z : List Token} {e : SyntaxError} (hq : Breaks p q e z)
    (h : BranchAround p y c l a blocks left) : BreaksAround p q e z .statement c blocks := by
  cases h with
  | mk hstart he hstop haround _ => exact thenBranch_breaks hq hstart he hstop (haround.breaks hq)

theorem exists_line (h : BranchAround p y c l a blocks left) : ∃ b m, FormsLine p y b m := by
  cases h with
  | mk _ _ _ haround _ => exact haround.exists_line

/-- The branch needs no more of the budget than the whole conditional. -/
theorem need_le {k : List Token} {b : Nat} {n : Node} (h : BranchAround p y c l a blocks left)
    (hc : ∀ t ∈ c, t.kind ≠ .eof) (hforms : Forms .statement c k b n) : a ≤ b := by
  cases h with
  | mk hstart he hstop haround helse =>
    rcases hforms.exists_branch hstart with ⟨k', l', a', e', n', he', hstop', hn', hle⟩
    have hj := fun t ht => hc t (List.mem_cons_of_mem _ ht)
    obtain ⟨rfl, -⟩ := he.unique hj hstop he' hstop'
    have hbranch := fun t ht => hj t (((dropBlank_suffix _).trans he.spans.suffix).mem ht)
    obtain ⟨rfl, -⟩ := haround.forms.unique hbranch hn'
    exact hle

end BranchAround

/-- A line in the first branch of a conditional that has a second one is so in an innermost one. -/
theorem InFirstBranch.exists_innermost {p y i : List Token} {b : Nat} {m : Node}
    (h : InFirstBranch p i) (hp : FormsLine p y b m) (heof : ∀ t ∈ p, t.kind ≠ .eof)
    (hat : LineAt p i) :
    ∃ c l a blocks left, c <:+ i ∧ BranchAround p y c l a blocks left := by
  generalize hlength : i.length = length
  induction length using Nat.strongRecOn generalizing i with
  | ind length ih =>
    cases h with
    | @mk j k l a start e n hsuffix hstart he hstop hn helse hbranch hlt =>
      have hk : dropBlank k <:+ i := by
        refine ((dropBlank_suffix k).trans he.spans.suffix).trans ?_
        exact (List.suffix_cons start j).trans hsuffix
      have hat' := hat.of_suffix hk hbranch.length_le
      rcases hn.locates hp heof hat' hlt with ⟨blocks, left, haround⟩ | hinner
      · exact ⟨_, l, a, blocks, left, hsuffix, .mk hstart he hstop haround helse⟩
      · have hshorter : (dropBlank k).length < length := by
          have hcondition := he.spans.length_lt
          have hblank := (dropBlank_suffix k).length_le
          have hwhole := hsuffix.length_le
          simp only [List.length_cons] at hwhole
          omega
        rcases ih _ hshorter hinner hat' rfl with ⟨c, l', a', blocks, left, hc, haround⟩
        exact ⟨c, l', a', blocks, left, hc.trans hk, haround⟩

end ScriptCheck
