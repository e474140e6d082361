import ScriptCheck.Proofs.Grammar.Closure

/-!
# How rules fail

A rule that fails blames the token at the place where it fails, or gives up because of the nesting.
The one other way to fail is a number token that denotes no number, which does not arise where such
tokens carry their values.
-/

namespace ScriptCheck

open ScriptCheck.Rule

/-- Whether every number token carries a value. -/
def NumbersCarryValues (tokens : List Token) : Prop :=
  ∀ t ∈ tokens, t.kind = .number → t.literal ≠ none

theorem NumbersCarryValues.of_suffix {i r : List Token} (h : NumbersCarryValues i) (hr : r <:+ i) :
    NumbersCarryValues r :=
  fun t ht => h t (hr.mem ht)

/-- Whether a failure at a place is one of nesting, or an error that blames the token there. -/
def Failure.BlamesPlace (failure : Failure) (d : Cursor) : Prop :=
  failure.cause = .tooDeep ∨
    ∃ e, failure.cause = .invalid e ∧ e.token = some d.peek ∧ e.line = d.peek.line ∧
      e.category ≠ .general ∧ e.category ≠ .nestingTooDeep

/-- Whether a failure blames its place, or else is that of a number token without a value, which is
among the tokens of `i`. -/
def Failure.HasReason (failure : Failure) (d : Cursor) (i : List Token) : Prop :=
  failure.BlamesPlace d ∨ (∃ fault, failure.cause = .numeral fault) ∧ ¬ NumbersCarryValues i

theorem Failure.HasReason.of_suffix {failure : Failure} {d : Cursor} {i r : List Token}
    (h : failure.HasReason d r) (hr : r <:+ i) : failure.HasReason d i := by
  rcases h with hblames | ⟨hfault, hnumbers⟩
  · exact Or.inl hblames
  · exact Or.inr ⟨hfault, fun hall => hnumbers (hall.of_suffix hr)⟩

/-- Whether a rule, if it fails from a place, does so for a reason that is found there. -/
def FailsInPlace (α : Type) (r : Rule α) (c : Cursor) : Prop :=
  ∀ failure d, r.run c = .failed failure d → failure.HasReason d c.ahead

theorem whileNext_failsInPlace {α : Type} {wanted : Kind → Bool} {step : Token → α → Rule α}
    (hstep : ∀ t a c, FailsInPlace α (step t a) c) (a : α) (c : Cursor) :
    FailsInPlace α (whileNext wanted step a) c := by
  change ∀ failure d, whileNextFrom wanted step a c = _ → _
  fun_induction whileNextFrom wanted step a c with
  | case1 a c hgo b d hrun _ ih =>
    intro failure d' h
    have hforward := (step c.peek a).forward c.advance
    rw [hrun] at hforward
    exact (ih failure d' h).of_suffix ((Cursor.reaches_skip 1 c).trans hforward).suffix
  | case2 a c hgo failure d hrun =>
    intro failure' d' h
    cases h
    exact (hstep _ _ _ _ _ hrun).of_suffix (Cursor.reaches_skip 1 c).suffix
  | case3 a c hstop =>
    intro failure d h
    simp at h

theorem untilNext_failsInPlace {α : Type} {stop : Kind → Bool} {item : Rule α}
    (hitem : ∀ c, FailsInPlace α item c) (c : Cursor) :
    FailsInPlace (List α) (untilNext stop item) c := by
  suffices h : ∀ read : Array α, ∀ failure d, untilNextFrom stop item read c = .failed failure d →
      failure.HasReason d c.ahead from h #[]
  intro read
  fun_induction untilNextFrom stop item read c with
  | case1 read c hend =>
    intro failure d h
    simp at h
  | case2 read c hgo a d hrun hmore _ ih =>
    intro failure d' h
    have hforward := item.forward c
    rw [hrun] at hforward
    exact (ih failure d' h).of_suffix hforward.suffix
  | case3 read c hgo a d hrun hmore =>
    intro failure d h
    simp at h
  | case4 read c hgo failure d hrun =>
    intro failure' d' h
    cases h
    exact hitem c _ _ hrun

theorem closed_failsInPlace : Closed FailsInPlace where
  pure a c := by
    intro failure d h
    simp at h
  bind {α β r next c} hr hnext := by
    intro failure d h
    rw [run_bind] at h
    have hforward := r.forward c
    split at h
    · next a e hrun =>
      rw [hrun] at hforward
      exact (hnext a e hrun _ _ h).of_suffix hforward.suffix
    · next failure' e hrun =>
      cases h
      exact hr _ _ hrun
  look h := h
  advance {c} _ := by
    intro failure d h
    simp [Rule.advance] at h
  accept {wanted} c _ := by
    intro failure d h
    simp only [Rule.accept] at h
    split at h <;> simp at h
  expect {kind} message c _ := by
    intro failure d h
    simp only [Rule.expect] at h
    split at h
    · simp at h
    · cases h
      refine Or.inl (Or.inr ⟨_, rfl, ?_⟩)
      exact blames_atToken (by decide) (by decide) message _ (fun _ => none) c.peek
  tooDeep c := by
    intro failure d h
    cases h
    exact Or.inl (Or.inl rfl)
  invalid c hblames := by
    intro failure d h
    cases h
    exact Or.inl (Or.inr ⟨_, rfl, hblames c.peek⟩)
  numeral {α c fault} hkind hfault := by
    intro failure d h
    rcases Cursor.exists_ahead_of_peek hkind (by decide) with ⟨t, r, hc, hpeek, ht⟩
    rw [run_advance_bind hc] at h
    cases h
    refine Or.inr ⟨⟨fault, rfl⟩, fun hnumbers => ?_⟩
    have hcarries := hnumbers t (by simp [hc]) ht
    rw [hpeek, Token.numberValue] at hfault
    split at hfault
    · simp at hfault
    · next hnone => exact absurd hnone hcarries
  insideBlock {α r c} h := by
    intro failure d hrun
    simp only [Rule.insideBlock] at hrun
    split at hrun
    · simp at hrun
    · next failure' d' hfailed =>
      cases hrun
      exact h failure' _ hfailed
  whileNext _ h a c := whileNext_failsInPlace h a c
  untilNext h c := untilNext_failsInPlace h c

namespace Grammar

/-- A declaration that fails does so for a reason that is found where it fails. -/
theorem declaration_hasReason {budget : Nat} {c d : Cursor} {failure : Failure}
    (h : (declaration false budget).run c = .failed failure d) : failure.HasReason d c.ahead :=
  closed_failsInPlace.declaration budget c failure d h

/-- An expression that has to take the whole input blames the token where it fails, or is nested too
deeply. -/
theorem wholeExpression_failed {s : Bool} {budget : Nat} {c d : Cursor} {failure : Failure}
    (hnumbers : NumbersCarryValues c.ahead)
    (h : (wholeExpression s budget).run c = .failed failure d) : failure.BlamesPlace d :=
  (closed_failsInPlace.wholeExpression s budget c failure d h).resolve_right
    fun hno => hno.2 hnumbers

end Grammar

end ScriptCheck
