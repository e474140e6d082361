import ScriptCheck.Proofs.Expression.Reading
import ScriptCheck.Proofs.Reading.Failing

/-!
# Expressions that end too early

Where the rule of a tier fails, the tokens that it has taken are the beginning of an expression of
that tier: others complete it, whatever follows then. So an error is never found later than it could
be (`Grammar.ofTier_failed`). A name fills in for whatever is missing, and parentheses that are open
are closed. What is completed fits into the budget, unless it is the nesting that was too deep.
-/

namespace ScriptCheck

open ScriptCheck.Rule

/-- A name that stands where an expression is missing. -/
def placeholder : Token where
  kind := .ident
  text := "x"

/-- A reserved word as a token. -/
def Keyword.token (w : Keyword) : Token where
  kind := .keyword w
  text := w.word

/-- An operator as a token. -/
def Operator.token (op : Operator) : Token where
  kind := .operator op
  text := op.symbol

theorem Keyword.kind_token (w : Keyword) : w.token.kind = .keyword w := rfl

theorem Operator.kind_token (op : Operator) : op.token.kind = .operator op := rfl

/-- The tokens of `i` in front of `r` are the beginning of an expression of the tier `T`. Where the
nesting is not what a failure comes from, the expression fits into the budget. -/
def Begins (T : Tier) (s : Bool) (budget : Nat) (cause : Cause) (i r : List Token) : Prop :=
  ∃ w S, i = w ++ r ∧ ∀ tail, ∃ e, Spells T s (w ++ (S ++ tail)) tail e ∧
    (cause ≠ .tooDeep → e.nesting ≤ budget)

namespace Begins

variable {T U : Tier} {s : Bool} {budget : Nat} {cause : Cause} {i r : List Token}

theorem placeholder_spells (T : Tier) (s : Bool) (tail : List Token) :
    Spells T s (placeholder :: tail) tail (.var placeholder.line placeholder.text) :=
  (Spells.name rfl).loosen (by cases T <;> decide)

/-- Where nothing has been taken, a name is enough. -/
theorem nothing (T : Tier) (s : Bool) (budget : Nat) (cause : Cause) (r : List Token) :
    Begins T s budget cause r r :=
  ⟨[], [placeholder], rfl, fun tail => ⟨_, placeholder_spells T s tail, fun _ => Nat.zero_le _⟩⟩

theorem loosen (h : Begins U s budget cause i r) (hle : T.rank ≤ U.rank) :
    Begins T s budget cause i r := by
  rcases h with ⟨w, S, hi, hcomplete⟩
  refine ⟨w, S, hi, fun tail => ?_⟩
  rcases hcomplete tail with ⟨e, he, hfits⟩
  exact ⟨e, he.loosen hle, hfits⟩

/-- What has been taken is of kinds that expressions are made of. -/
theorem inExpression (h : Begins T s budget cause i r) :
    ∃ w, i = w ++ r ∧ ∀ t ∈ w, t.kind.isInExpression = true := by
  rcases h with ⟨w, S, hi, hcomplete⟩
  rcases hcomplete [] with ⟨e, he, -⟩
  rcases he.inExpression with ⟨v, hv, -, hall⟩
  refine ⟨w, hi, fun t ht => hall t ?_⟩
  have hmem : t ∈ w ++ (S ++ []) := by simp [ht]
  rw [hv] at hmem
  simpa using hmem

/-- A whole expression is the beginning of one. -/
theorem of_spells {e : Node} (h : Spells T s i r e) (hfits : e.nesting ≤ budget) :
    Begins T s budget cause i r := by
  rcases h.detach with ⟨v, hv, hfree⟩
  exact ⟨v, [], hv, fun tail => ⟨e, hfree tail, fun _ => hfits⟩⟩

end Begins

/-- What a list of arguments begins with. -/
def BeginsArguments (budget : Nat) (cause : Cause) (i r : List Token) : Prop :=
  ∃ w S, i = w ++ r ∧ ∀ tail, ∃ es,
    Separated (Spells .assignment false) (w ++ (S ++ tail)) tail es ∧
      (cause ≠ .tooDeep → Node.nestingWithin 0 es ≤ budget)

namespace Grammar

variable {budget : Nat} {s : Bool}

/-- What a rule that fails has taken: the beginning of an expression of its tier. -/
def FailsOf (T : Tier) (s : Bool) (budget : Nat) : Prop :=
  ∀ c failure d, (ofTier T s budget).run c = .failed failure d →
    (∀ fault, failure.cause ≠ .numeral fault) →
    failure.unclosed = 0 ∧ Begins T s budget failure.cause c.ahead d.ahead

/-- A construct inside another fails as by itself, or at the start, where the budget does not
last. -/
theorem deeper_failsOf {T : Tier} {way : Nesting} {inner : (rest : Nat) → rest < budget → Rule Node}
    (hinner : ∀ rest hlt, inner rest hlt = ofTier T s rest)
    (ih : ∀ rest < budget, FailsOf T s rest) {c d : Cursor} {failure : Failure}
    (h : (deeper way budget inner).run c = .failed failure d)
    (hnumeral : ∀ fault, failure.cause ≠ .numeral fault) :
    failure.unclosed = 0 ∧ Begins T s (budget - way.weight) failure.cause c.ahead d.ahead ∧
      (failure.cause ≠ .tooDeep → way.weight ≤ budget) := by
  rcases deeper_failed h with ⟨rfl, hunclosed, hcause⟩ | ⟨hweight, hlt, hrun⟩
  · exact ⟨hunclosed, .nothing T s _ _ _, fun hne => absurd hcause hne⟩
  · rw [hinner] at hrun
    rcases ih _ hlt _ _ _ hrun hnumeral with ⟨hunclosed, hbegins⟩
    exact ⟨hunclosed, hbegins, fun _ => hweight⟩

theorem primary_failsOf (ih : ∀ rest < budget, ∀ s, FailsOf .assignment s rest) :
    FailsOf .primary s budget := by
  intro c failure d h hnumeral
  change (primary budget).run c = .failed failure d at h
  rw [primary, run_peek_bind] at h
  split at h
  · -- a number that denotes no value, which is excluded
    next hk =>
    rcases Cursor.exists_ahead_of_peek hk (by decide) with ⟨t, r, hc, hpeek, -⟩
    rw [run_advance_bind hc, hpeek] at h
    split at h
    · exact absurd h pure_ne_failed
    · rcases fail_failed h with ⟨-, -, hcause⟩
      exact absurd hcause (hnumeral _)
  · -- an expression in parentheses, or else the parenthesis behind it
    next hk =>
    rcases Cursor.exists_ahead_of_peek hk (by decide) with ⟨t, r, hc, hpeek, ht⟩
    rw [run_advance_bind hc, hpeek] at h
    rw [hc]
    rcases bind_failed h with h | ⟨inner, d₁, hinner, h⟩
    · rcases deeper_failsOf (fun rest _ => by rw [expression]; rfl)
        (fun rest hlt => ih rest hlt false) h hnumeral
        with ⟨hunclosed, ⟨w, S, hw, hcomplete⟩, hweight⟩
      rw [Cursor.ahead_advance hc] at hw
      refine ⟨hunclosed, t :: w, S ++ [Operator.rparen.token], by rw [hw]; rfl, fun tail => ?_⟩
      rcases hcomplete (Operator.rparen.token :: tail) with ⟨e, he, hfits⟩
      refine ⟨.grouping t.line e, ?_, fun hne => ?_⟩
      · simpa using Spells.grouping (s := s) ht he rfl
      · have hle := hfits hne
        have hlast := hweight hne
        simp only [Node.nesting]
        omega
    · rcases bind_failed h with h | ⟨closing, d₂, -, h⟩
      · rcases deeper_done hinner with ⟨hweight, -, hinner⟩
        rcases expect_failed h with ⟨rfl, hunclosed, -⟩
        rw [expression] at hinner
        rcases ofTier_done _ .assignment false _ _ _ hinner with ⟨hspells, hnesting, -⟩
        rcases hspells.detach with ⟨v, hv, hfree⟩
        rw [Cursor.ahead_advance hc] at hv
        refine ⟨hunclosed, t :: v, [Operator.rparen.token], by rw [hv]; rfl, fun tail => ?_⟩
        refine ⟨.grouping t.line inner, ?_, fun _ => ?_⟩
        · simpa using Spells.grouping (s := s) ht (hfree (Operator.rparen.token :: tail)) rfl
        · simp only [Node.nesting]
          omega
      · exact absurd h pure_ne_failed
  · next hk =>
    rcases Cursor.exists_ahead_of_peek hk (by decide) with ⟨t, r, hc, -, -⟩
    rw [run_advance_bind hc] at h
    exact absurd h pure_ne_failed
  · split at h
    · next v hv =>
      rcases Cursor.exists_ahead_of_peek rfl (ne_eof_of_literalValue? hv) with ⟨t, r, hc, -, -⟩
      rw [run_advance_bind hc] at h
      exact absurd h pure_ne_failed
    · -- nothing that starts an expression
      rcases fail_failed h with ⟨rfl, hunclosed, -⟩
      exact ⟨hunclosed, .nothing _ _ _ _ _⟩

/-- Arguments fail at the first of them, or at one behind a comma. -/
theorem arguments_failed (ih : FailsOf .assignment false budget) {c d : Cursor} {failure : Failure}
    (h : (arguments false budget).run c = .failed failure d)
    (hnumeral : ∀ fault, failure.cause ≠ .numeral fault) :
    failure.unclosed = 0 ∧ BeginsArguments budget failure.cause c.ahead d.ahead := by
  rw [arguments] at h
  rcases bind_failed h with h | ⟨_, _, -, h⟩
  · have hitem : ∀ c e d, (expression false budget).run c = .done e d →
        Spells .assignment false c.ahead d.ahead e ∧ e.nesting ≤ budget := by
      intro c e d hrun
      rw [expression] at hrun
      rcases ofTier_done _ .assignment false _ _ _ hrun with ⟨hspells, hnesting, -⟩
      exact ⟨hspells, hnesting⟩
    rcases commaSeparated_failed
      (R := fun i r e => Spells .assignment false i r e ∧ e.nesting ≤ budget) hitem
      (unlessNext_failed h).2 with h | ⟨es, comma, e, hes, hcomma, h⟩
    · rw [expression] at h
      rcases ih _ _ _ h hnumeral with ⟨hunclosed, w, S, hw, hcomplete⟩
      refine ⟨hunclosed, w, S, hw, fun tail => ?_⟩
      rcases hcomplete tail with ⟨e, he, hfits⟩
      exact ⟨[e], .one he, fun hne => Node.nestingWithin_le_iff.mpr (by simpa using hfits hne)⟩
    · rw [expression] at h
      rcases ih _ _ _ h hnumeral with ⟨hunclosed, w, S, hw, hcomplete⟩
      have hfitting : ∀ a ∈ es, 0 + a.nesting ≤ budget := by
        intro a ha
        rcases hes.exists_item a ha with ⟨_, _, -, hle⟩
        omega
      rcases (hes.mono fun _ _ _ hboth => hboth.1).detach fun _ _ _ => Spells.detach
        with ⟨v, hv, hfree⟩
      have hstart : c.ahead = v ++ comma :: w ++ d.ahead := by simp [hv, hw]
      refine ⟨hunclosed, v ++ comma :: w, S, hstart, fun tail => ?_⟩
      rcases hcomplete tail with ⟨f, hf, hfits⟩
      refine ⟨es ++ [f], ?_, fun hne => Node.nestingWithin_le_iff.mpr ?_⟩
      · simpa using (hfree (comma :: (w ++ (S ++ tail)))).snoc hcomma hf
      · intro a ha
        rcases List.mem_append.mp ha with ha | ha
        · exact hfitting a ha
        · rw [List.mem_singleton.mp ha, Nat.zero_add]
          exact hfits hne
  · exact absurd h pure_ne_failed

/-- Behind a callee, the arguments fail, or the parenthesis that closes them is missing. -/
theorem passArguments_failed (ih : ∀ rest < budget, ∀ s, FailsOf .assignment s rest)
    {i r : List Token} {opening : Token} {f : Node} {c d : Cursor} {failure : Failure}
    (hf : Spells .call s i (opening :: r) f) (hnesting : f.nesting ≤ budget)
    (hopen : opening.kind = .operator .lparen) (hc : c.ahead = r)
    (h : (passArguments budget opening f).run c = .failed failure d)
    (hnumeral : ∀ fault, failure.cause ≠ .numeral fault) :
    failure.unclosed = 0 ∧ Begins .call s budget failure.cause i d.ahead := by
  rcases hf.detach with ⟨u, rfl, hcallee⟩
  -- Arguments that are begun or complete are closed by a parenthesis.
  have hpass : ∀ {v S : List Token} {es : List Node} (tail : List Token),
      Separated (Spells .assignment false) (v ++ (S ++ Operator.rparen.token :: tail))
        (Operator.rparen.token :: tail) es →
      Spells .call s (u ++ opening :: v ++ (S ++ [Operator.rparen.token] ++ tail)) tail
        (.call opening.line f es) := by
    intro v S es tail hes
    simpa using Spells.pass (hcallee (opening :: (v ++ (S ++ Operator.rparen.token :: tail))))
      hopen hes rfl
  rcases bind_failed h with h | ⟨passed, d₁, hpassed, h⟩
  · rcases deeper_failed h with ⟨rfl, hunclosed, hcause⟩ | ⟨hweight, hlt, h⟩
    · refine ⟨hunclosed, u ++ [opening], [Operator.rparen.token], by rw [hc]; simp, fun tail => ?_⟩
      refine ⟨.call opening.line f [], ?_, fun hne => absurd hcause hne⟩
      simpa using Spells.passNone (hcallee (opening :: Operator.rparen.token :: tail)) hopen rfl
    · rcases arguments_failed (ih _ hlt false) h hnumeral with ⟨hunclosed, w, S, hw, hcomplete⟩
      refine ⟨hunclosed, u ++ opening :: w, S ++ [Operator.rparen.token], by rw [← hc, hw]; simp,
        fun tail => ?_⟩
      rcases hcomplete (Operator.rparen.token :: tail) with ⟨es, hes, hfits⟩
      refine ⟨.call opening.line f es, hpass tail hes, fun hne => ?_⟩
      have hle := hfits hne
      simp only [Node.nesting]
      omega
  · rcases bind_failed h with h | ⟨closing, d₂, -, h⟩
    · rcases expect_failed h with ⟨rfl, hunclosed, hmissing⟩
      rcases deeper_done hpassed with ⟨hweight, hlt, hpassed⟩
      rw [arguments] at hpassed
      rcases bind_done hpassed with ⟨found, d₃, hfound, hpassed⟩
      rcases pure_done hpassed with ⟨rfl, rfl⟩
      rcases unlessNext_done hfound with ⟨-, rfl, hnone⟩ | ⟨es, rfl, -, hes⟩
      · exact absurd hnone hmissing
      · have hitems := commaSeparated_done
          (R := fun i r e => Spells .assignment false i r e ∧
            e.nesting ≤ budget - Nesting.weight .argument) (by
          intro c' e' d' hrun
          rw [expression] at hrun
          rcases ofTier_done _ .assignment false _ _ _ hrun with ⟨hspells, hle, -⟩
          exact ⟨hspells, hle⟩) hes
        have hfits : Node.nestingWithin 0 es ≤ budget - Nesting.weight .argument := by
          rw [Node.nestingWithin_le_iff]
          intro n hn
          rcases hitems.exists_item n hn with ⟨_, _, _, hle⟩
          omega
        rcases (hitems.mono fun _ _ _ hboth => hboth.1).detach fun _ _ _ => Spells.detach
          with ⟨v, hv, hfree⟩
        refine ⟨hunclosed, u ++ opening :: v, [Operator.rparen.token], by rw [← hc, hv]; simp,
          fun tail => ?_⟩
        refine ⟨.call opening.line f es, ?_, fun _ => ?_⟩
        · simpa using hpass (S := []) tail (hfree (Operator.rparen.token :: tail))
        · simp only [Node.nesting]
          omega
    · exact absurd h pure_ne_failed

theorem call_failsOf (ih : ∀ rest < budget, ∀ s, FailsOf .assignment s rest)
    (hprimary : FailsOf .primary s budget) : FailsOf .call s budget := by
  intro c failure d h hnumeral
  change (call budget).run c = .failed failure d at h
  rw [call_eq] at h
  rcases bind_failed h with h | ⟨callee, d₁, hcallee, h⟩
  · rcases hprimary _ _ _ h hnumeral with ⟨hunclosed, hbegins⟩
    exact ⟨hunclosed, hbegins.loosen (by decide)⟩
  · rcases ofTier_done _ .primary s _ _ _ hcallee with ⟨hspells, hnesting, -⟩
    -- The turns of the loop before the one that fails have made a call.
    rcases whileNextFrom_failed
      (P := fun e d => Spells .call s c.ahead d.ahead e ∧ e.nesting ≤ budget) (by
        rintro opening r f g d₂ d₃ ⟨hf, hfnesting⟩ hd₂ hopen hrun
        rw [hd₂] at hf
        exact passArguments_reads (fun rest _ s => ofTier_done rest .assignment s) hf hfnesting
          (by simpa using hopen) (Cursor.ahead_advance hd₂) hrun)
      ⟨.callee hspells, hnesting⟩ h
      with ⟨opening, r, f, e, ⟨hf, hfnesting⟩, he, hopen, h⟩
    rw [he] at hf
    exact passArguments_failed ih hf hfnesting (by simpa using hopen) (Cursor.ahead_advance he) h
      hnumeral

theorem unary_failsOf (ih : ∀ rest < budget, ∀ s, FailsOf .unary s rest)
    (hcall : FailsOf .call s budget) : FailsOf .unary s budget := by
  intro c failure d h hnumeral
  change (unary s budget).run c = .failed failure d at h
  rw [unary] at h
  rcases bind_failed h with hfound | ⟨found, d₁, hfound, hrest⟩
  · exact absurd hfound accept_ne_failed
  rcases accept_done (by decide) hfound with ⟨op, rfl, hc, hop⟩ | ⟨rfl, rfl, -⟩
  · rcases bind_failed hrest with hoperand | ⟨_, _, -, hpure⟩
    · rcases deeper_failsOf (fun _ _ => rfl) (fun rest hlt => ih rest hlt s) hoperand hnumeral
        with ⟨hunclosed, ⟨w, S, hw, hcomplete⟩, hweight⟩
      refine ⟨hunclosed, op :: w, S, by rw [hc, hw]; rfl, fun tail => ?_⟩
      rcases hcomplete tail with ⟨e, he, hfits⟩
      refine ⟨_, .unary hop he, fun hne => ?_⟩
      have hle := hfits hne
      have hlast := hweight hne
      simp only [Node.nesting]
      omega
    · exact absurd hpure pure_ne_failed
  · rcases hcall _ _ _ hrest hnumeral with ⟨hunclosed, hbegins⟩
    exact ⟨hunclosed, hbegins.loosen (by decide)⟩

theorem infix_failsOf {T : Tier} (hT : T.isInfix = true) (hnext : FailsOf T.tighter s budget) :
    FailsOf T s budget := by
  intro c failure d h hnumeral
  have hrank : T.rank ≤ T.tighter.rank := by
    rw [Tier.rank_tighter_of_isInfix hT]
    omega
  rw [ofTier_eq_leftFold hT, leftFold] at h
  rcases bind_failed h with h | ⟨first, d₁, hfirst, h⟩
  · rcases hnext _ _ _ h hnumeral with ⟨hunclosed, hbegins⟩
    exact ⟨hunclosed, hbegins.loosen hrank⟩
  · rcases ofTier_done _ T.tighter s _ _ _ hfirst with ⟨hspells, hnesting, -⟩
    -- The turns of the loop before the one that fails have made an expression of the tier.
    rcases whileNextFrom_failed
      (P := fun e d => Spells T s c.ahead d.ahead e ∧ e.nesting ≤ budget) (by
        rintro op r left e' d₂ d₃ ⟨hleft, hle⟩ hd₂ hop hrun
        rw [hd₂] at hleft
        rcases join_reads hT (ofTier_done _ _ _) hleft hle hop (Cursor.ahead_advance hd₂) hrun
          with ⟨hspells, hnesting, -⟩
        exact ⟨hspells, hnesting⟩)
      ⟨.operand hT hspells, hnesting⟩ h
      with ⟨op, r, left, e, ⟨hleft, hleftNesting⟩, he, hop, h⟩
    rw [he] at hleft
    rcases bind_failed h with h | ⟨_, _, -, h⟩
    · rcases hnext _ _ _ h hnumeral with ⟨hunclosed, w, S, hw, hcomplete⟩
      rw [Cursor.ahead_advance he] at hw
      rcases hleft.detach with ⟨v, hv, hfree⟩
      refine ⟨hunclosed, v ++ op :: w, S, by rw [hv, hw]; simp, fun tail => ?_⟩
      rcases hcomplete tail with ⟨right, hright, hfits⟩
      refine ⟨T.join op left right, ?_, fun hne => ?_⟩
      · simpa using Spells.operation hT (hfree (op :: (w ++ (S ++ tail)))) hop hright
      · have hle := hfits hne
        rw [nesting_join]
        omega
    · exact absurd h pure_ne_failed

theorem assignment_failsOf (ih : ∀ rest < budget, ∀ s, FailsOf .assignment s rest)
    (hor : FailsOf .logicOr s budget) : FailsOf .assignment s budget := by
  intro c failure d h hnumeral
  change (assignment s budget).run c = .failed failure d at h
  rw [assignment_eq] at h
  rcases bind_failed h with h | ⟨target, d₁, htarget, h⟩
  · rcases hor _ _ _ h hnumeral with ⟨hunclosed, hbegins⟩
    exact ⟨hunclosed, hbegins.loosen (by decide)⟩
  rcases ofTier_done _ .logicOr s _ _ _ htarget with ⟨hspells, hnesting, -⟩
  rcases hspells.detach with ⟨v, hv, hfree⟩
  unfold assignTo at h
  rw [run_peek_bind] at h
  split at h
  · next hk =>
    rcases Cursor.exists_ahead_of_peek hk (by decide) with ⟨eq, j, hd₁, _, heq⟩
    split at h
    · next line name =>
      rw [run_advance_bind hd₁] at h
      rcases bind_failed h with h | ⟨_, _, -, h⟩
      · rcases deeper_failsOf (fun _ _ => rfl) (fun rest hlt => ih rest hlt s) h hnumeral
          with ⟨hunclosed, ⟨w, S, hw, hcomplete⟩, hweight⟩
        rw [Cursor.ahead_advance hd₁] at hw
        refine ⟨hunclosed, v ++ eq :: w, S, by rw [hv, hd₁, hw]; simp, fun tail => ?_⟩
        rcases hcomplete tail with ⟨e, he, hfits⟩
        refine ⟨.assign line name e, ?_, fun hne => ?_⟩
        · simpa using Spells.assign (hfree (eq :: (w ++ (S ++ tail)))) heq he
        · have hle := hfits hne
          have hlast := hweight hne
          simp only [Node.nesting]
          omega
      · exact absurd h pure_ne_failed
    · -- The target alone is an expression already.
      rcases fail_failed h with ⟨rfl, hunclosed, -⟩
      exact ⟨hunclosed, .of_spells (.value hspells) hnesting⟩
  · exact absurd h pure_ne_failed

/-- Where the rule of a tier fails, it has taken the beginning of an expression, and no block is
left open. -/
theorem ofTier_failed (budget : Nat) : ∀ T s, FailsOf T s budget := by
  induction budget using Nat.strongRecOn with
  | ind budget ih =>
    intro T s
    induction T using Tier.induct with
    | primary => exact primary_failsOf fun rest hlt s => ih rest hlt _ s
    | call hprimary => exact call_failsOf (fun rest hlt s => ih rest hlt _ s) hprimary
    | unary hcall => exact unary_failsOf (fun rest hlt s => ih rest hlt _ s) hcall
    | operation hT hnext => exact infix_failsOf hT hnext
    | assignment hor => exact assignment_failsOf (fun rest hlt s => ih rest hlt _ s) hor

end Grammar

end ScriptCheck
