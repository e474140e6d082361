import ScriptCheck.Proofs.Reading.Repetition

/-!
# How rules fail

The lemmas on runs that end with a value have a counterpart for runs that fail. Nothing is taken
back, so a failure is that of one part, at the place where this part failed, behind parts that ended
well; the lemmas `..._failed` say which parts may be to blame. A loop that fails does so in one of
its turns, and what the turns before it keep holds where that turn begins.
-/

namespace ScriptCheck

/-- Why a rule has failed, if it has. -/
def Outcome.cause? {α : Type} : Outcome α → Option Cause
  | .done _ _ => none
  | .failed failure _ => some failure.cause

namespace Rule

variable {α β : Type} {c d : Cursor} {failure : Failure}

/-! ## Sequences and single tokens -/

theorem bind_failed {r : Rule α} {next : α → Rule β} (h : (r >>= next).run c = .failed failure d) :
    r.run c = .failed failure d ∨
      ∃ a e, r.run c = .done a e ∧ (next a).run e = .failed failure d := by
  rw [run_bind] at h
  split at h
  · next a e hrun => exact Or.inr ⟨a, e, hrun, h⟩
  · next failure' e hrun =>
    cases h
    exact Or.inl hrun

theorem pure_ne_failed {a : α} : (pure a : Rule α).run c ≠ .failed failure d := by
  rw [run_pure]
  intro h
  cases h

theorem fail_failed {cause : Token → Cause}
    (h : (fail cause : Rule α).run c = .failed failure d) :
    d = c ∧ failure.unclosed = 0 ∧ failure.cause = cause c.peek := by
  cases h
  exact ⟨rfl, rfl, rfl⟩

theorem invalid_failed {error : Token → SyntaxError}
    (h : (invalid error : Rule α).run c = .failed failure d) : d = c ∧ failure.unclosed = 0 := by
  rcases fail_failed h with ⟨hd, hunclosed, -⟩
  exact ⟨hd, hunclosed⟩

theorem unexpected_failed {message : String} {expected : Option Kind}
    (h : (unexpected message expected : Rule α).run c = .failed failure d) :
    d = c ∧ failure.unclosed = 0 :=
  invalid_failed h

theorem expect_failed {kind : Kind} {message : String}
    (h : (expect kind message).run c = .failed failure d) :
    d = c ∧ failure.unclosed = 0 ∧ nextKind c.ahead ≠ kind := by
  simp only [expect] at h
  split at h
  · simp at h
  · next hne =>
    cases h
    rw [Cursor.kind_peek] at hne
    exact ⟨rfl, rfl, hne⟩

theorem accept_ne_failed {wanted : Kind → Bool} :
    (accept wanted).run c ≠ .failed failure d := by
  simp only [accept]
  split <;> simp

theorem unlessNext_failed {stop : Kind} {r : Rule α}
    (h : (unlessNext stop r).run c = .failed failure d) :
    nextKind c.ahead ≠ stop ∧ r.run c = .failed failure d := by
  by_cases hstop : nextKind c.ahead = stop
  · rw [run_unlessNext_of_eq hstop] at h
    cases h
  · rw [run_unlessNext_of_ne hstop] at h
    rcases bind_failed h with hrun | ⟨a, e, -, hpure⟩
    · exact ⟨hstop, hrun⟩
    · exact absurd hpure pure_ne_failed

/-! ## Nesting -/

/-- A construct inside another fails because the budget does not last, or by itself. -/
theorem deeper_failed {way : Nesting} {budget : Nat}
    {inner : (rest : Nat) → rest < budget → Rule α}
    (h : (deeper way budget inner).run c = .failed failure d) :
    (d = c ∧ failure.unclosed = 0 ∧ failure.cause = .tooDeep) ∨
      (way.weight ≤ budget ∧
        ∃ hrest, (inner (budget - way.weight) hrest).run c = .failed failure d) := by
  rw [deeper] at h
  split at h
  · next hle => exact Or.inr ⟨hle, _, h⟩
  · exact Or.inl (fail_failed h)

/-- A failure inside a block leaves one block more open. -/
theorem insideBlock_failed {r : Rule α} (h : (insideBlock r).run c = .failed failure d) :
    ∃ inner, r.run c = .failed inner d ∧ failure.cause = inner.cause ∧
      failure.unclosed = inner.unclosed + 1 := by
  simp only [insideBlock] at h
  split at h
  · simp at h
  · next inner e hrun =>
    cases h
    exact ⟨inner, hrun, rfl, rfl⟩

/-! ## Repetition -/

/-- A loop that fails does so in a turn, which begins at a place where what the turns keep holds. -/
theorem whileNextFrom_failed {wanted : Kind → Bool} {step : Token → α → Rule α}
    {P : α → Cursor → Prop}
    (hstep : ∀ t r a b c d, P a c → c.ahead = t :: r → wanted t.kind = true →
      (step t a).run c.advance = .done b d → P b d)
    {a : α} (hP : P a c) (h : whileNextFrom wanted step a c = .failed failure d) :
    ∃ t r b e, P b e ∧ e.ahead = t :: r ∧ wanted t.kind = true ∧
      (step t b).run e.advance = .failed failure d := by
  fun_induction whileNextFrom wanted step a c with
  | case1 a c hgo b d' hrun _ ih =>
    rcases Cursor.exists_ahead_of_atEnd hgo.1 with ⟨t, r, hc⟩
    rw [Cursor.peek_of_ahead hc] at hgo hrun
    exact ih (hstep t r a b c d' hP hc hgo.2 hrun) h
  | case2 a c hgo failure' d' hrun =>
    cases h
    rcases Cursor.exists_ahead_of_atEnd hgo.1 with ⟨t, r, hc⟩
    rw [Cursor.peek_of_ahead hc] at hgo hrun
    exact ⟨t, r, a, c, hP, hc, hgo.2, hrun⟩
  | case3 a c hstop => simp at h

/-- Items that fail to be read on do so in one item, behind others that have been read. -/
theorem untilNextFrom_failed_inv {stop : Kind → Bool} {item : Rule α}
    {R : Cursor → Cursor → List α → Prop} (hnil : ∀ c, R c c [])
    (hcons : ∀ c a d as e, item.run c = .done a d → R d e as → R c e (a :: as))
    {read : Array α} (h : untilNextFrom stop item read c = .failed failure d) :
    ∃ as e, R c e as ∧ e.ahead ≠ [] ∧ stop (nextKind e.ahead) = false ∧
      item.run e = .failed failure d := by
  fun_induction untilNextFrom stop item read c with
  | case1 read c hend => simp at h
  | case2 read c hgo a e hrun hmore _ ih =>
    rcases ih h with ⟨as, e', hR, hrest⟩
    exact ⟨a :: as, e', hcons c a e as e' hrun hR, hrest⟩
  | case3 read c hgo a e hrun hmore => simp at h
  | case4 read c hgo failure' e hrun =>
    cases h
    rcases untilNextFrom_goesOn hgo with ⟨hne, hstop⟩
    exact ⟨[], c, hnil c, hne, hstop, hrun⟩

/-- A list fails at its first item, or at one behind a comma. -/
theorem commaSeparated_failed {item : Rule α} {R : List Token → List Token → α → Prop}
    (hitem : ∀ c a d, item.run c = .done a d → R c.ahead d.ahead a)
    (h : (commaSeparated item).run c = .failed failure d) :
    item.run c = .failed failure d ∨
      ∃ as comma e, Separated R c.ahead (comma :: e.ahead) as ∧
        comma.kind = .operator .comma ∧ item.run e = .failed failure d := by
  rw [commaSeparated] at h
  rcases bind_failed h with hfirst | ⟨first, e, hfirst, h⟩
  · exact Or.inl hfirst
  right
  rcases bind_failed h with hloop | ⟨read, e', -, hpure⟩
  · -- What the turns of the loop keep is that the items so far have been read.
    have hturn := whileNextFrom_failed
      (P := fun read e => Separated R c.ahead e.ahead read.toList) ?_
      (.one (hitem _ _ _ hfirst)) hloop
    · rcases hturn with ⟨comma, r, read, e', hread, he', hcomma, hrun⟩
      rcases bind_failed hrun with hrun | ⟨a, e'', -, hpure⟩
      · refine ⟨read.toList, comma, e'.advance, ?_, by simpa using hcomma, hrun⟩
        rw [Cursor.ahead_advance he', ← he']
        exact hread
      · exact absurd hpure pure_ne_failed
    · intro comma r read read' e₁ e₂ hread he₁ hcomma hrun
      rcases bind_done hrun with ⟨a, e₃, ha, hrun⟩
      rcases pure_done hrun with ⟨rfl, rfl⟩
      have hnext := hitem _ _ _ ha
      rw [Cursor.ahead_advance he₁] at hnext
      rw [he₁] at hread
      rw [Array.toList_push]
      exact hread.snoc (by simpa using hcomma) hnext
  · exact absurd hpure pure_ne_failed

end Rule

end ScriptCheck
