import ScriptCheck.Proofs.Program.Raising

/-!
# Failing fast

A parse that fails fast is one that recovers, up to the first error (`Session.parse_failFast`). As
long as nothing has been reported, no `end` is owed, and the two come to the same sessions, but for
the flag. Where the one raises its first error and resumes, the other stops: it gives up with the
same error, at the place where it was raised.
-/

namespace ScriptCheck.Session

variable {α : Type} {tokens : List Token} {s s' : Session} {read : Array Node} {d : Cursor}
  {e : SyntaxError}

/-- The session, failing fast. -/
def hasten (s : Session) : Session :=
  { s with failFast := true }

/-! ## One turn -/

theorem run_hasten (r : Rule α) (s : Session) :
    s.hasten.run r = ((s.run r).1, (s.run r).2.hasten) := by
  have hcursor : s.hasten.cursor = s.cursor := rfl
  unfold run
  rw [hcursor]
  cases r.run s.cursor <;> rfl

theorem skipNewlines_hasten (s : Session) : s.hasten.skipNewlines = s.skipNewlines.hasten := by
  unfold skipNewlines
  rw [run_hasten]

section

variable [Stack]

/-- Declarations are accepted in the same way. -/
theorem step_hasten {n : Node} (h : s.step = (.accepted n, s')) :
    s.hasten.step = (.accepted n, s'.hasten) := by
  rw [step_eq_run] at h
  split at h
  · cases h
  · next hno =>
    split at h
    · next statement s₁ hrun =>
      cases h
      have hrun' := run_hasten (Grammar.declaration s.andSeparates Nesting.limit) s
      rw [hrun] at hrun'
      have hand : s.hasten.andSeparates = s.andSeparates := rfl
      rw [step_eq_run]
      rw [if_neg (by exact hno), hand, hrun', ← skipNewlines_hasten]
    · next cause s₁ hrun =>
      split at h
      · cases h
      · split at h <;> cases h

/-- Where one session raises an error, the other one gives up with it. -/
theorem Raises.step_hasten (hs : s.Between) (h : s.Raises d e) :
    ∃ s', s.hasten.step = (.stopped (.invalid e), s') ∧ s'.cursor = d ∧
      s'.pendingEnds = s.pendingEnds ∧ s'.reporter = s.reporter.report e := by
  rcases h.exists_failure with ⟨failure, hrun, he⟩
  rw [hs.andSeparates_eq] at hrun
  have hrecover := recover_of_failFast (s := s.hasten.failedAt failure d) rfl e
  have hstep := (step_failed (s := s.hasten) hs.andSeparates_eq h.not_owesNext hrun he).2 _ hrecover
  exact ⟨_, hstep, rfl, rfl, rfl⟩

/-! ## All turns -/

/-- As long as nothing is reported, no `end` is owed, and a parse that fails fast comes to the same
sessions. -/
theorem Visits.hasten (h : (ofTokens tokens false).Visits read s)
    (hnone : s.reporter.errors.toList = []) :
    s.pendingEnds = 0 ∧ (ofTokens tokens true).Visits read s.hasten := by
  induction h with
  | start =>
    rcases skipNewlines_eq (ofTokens tokens false) with ⟨c, heq, -⟩
    constructor
    · rw [heq]
      rfl
    · rw [← skipNewlines_hasten]
      exact .start
  | @turn read s s' turn hvisits hend hstep hgo ih =>
    have hbefore := errors_prefix_step s
    rw [hstep, hnone] at hbefore
    rcases ih (List.prefix_nil.mp hbefore) with ⟨hpending, hvisits'⟩
    cases advances_of_step hvisits.between_and_reaches.1 hstep hgo with
    | settled howes _ _ => exact absurd hpending howes.1
    | accepted _ _ _ _ =>
      exact ⟨hpending, hvisits'.turn hend (Session.step_hasten hstep) (by simp)⟩
    | recovered _ _ _ _ _ _ =>
      rw [Reporter.errors_report] at hnone
      simp at hnone

/-- With the first error that is raised, a parse that fails fast gives up. -/
theorem RaisedAt.parse_eq {index : Nat} (h : RaisedAt tokens [] e index) :
    ∃ s, (ofTokens tokens true).parse = (.error (.invalid e), s) ∧ s.reporter.errors = #[e] ∧
      s.pendingEnds = 0 ∧ s.cursor.position = index := by
  rcases h with ⟨read, s, d, hvisits, hnone, hraises, rfl⟩
  rcases hvisits.hasten hnone with ⟨hpending, hfast⟩
  rcases hraises.step_hasten hvisits.between_and_reaches.1
    with ⟨s', hstep, rfl, hends, hreporter⟩
  have hne : s.cursor.ahead ≠ [] := by
    simpa [Cursor.atEnd] using hraises.atEnd_eq
  refine ⟨s', ?_, ?_, hends.trans hpending, rfl⟩
  · rw [hfast.parse_eq, parseAfter_of_step (s := s.hasten) hne hstep]
  · rw [← Array.toList_inj, hreporter, Reporter.errors_report, hnone]
    rfl

/-- The first error that a parse reports is one that is raised before anything is reported. -/
theorem exists_raisedAt (h : (ofTokens tokens false).parse.2.reporter.errors[0]? = some e) :
    ∃ index, RaisedAt tokens [] e index := by
  rcases exists_raised tokens with ⟨indices, hraised, -, -⟩
  rw [← Array.getElem?_toList] at h
  cases hall : (ofTokens tokens false).parse.2.reporter.errors.toList with
  | nil =>
    rw [hall] at h
    cases h
  | cons e' es =>
    rw [hall] at h hraised
    obtain rfl : e' = e := by simpa using h
    exact hraised.first

/-- Where numbers carry their values, a parse that recovers comes to a program. If it reports
nothing, one that fails fast comes to the same. -/
theorem exists_parse (hnumbers : NumbersCarryValues (tokens.takeWhile Cursor.isBeforeEnd)) :
    ∃ ns s, (ofTokens tokens false).parse = (.ok (.program 1 ns), s) ∧
      (s.reporter.errors = #[] →
        (ofTokens tokens true).parse = (.ok (.program 1 ns), s.hasten)) := by
  rcases Visits.exists_end hnumbers .start with ⟨read, last, hvisits, hend⟩
  have hnil : last.cursor.ahead = [] := by simpa [Cursor.atEnd] using hend
  have hresult := hvisits.parse_eq
  rw [parseAfter_of_end hnil] at hresult
  refine ⟨read.toList, _, hresult, ?_⟩
  intro hnone
  have hfast := (hvisits.hasten (by simpa using hnone)).2.parse_eq
  rw [parseAfter_of_end (s := last.hasten) hnil] at hfast
  exact hfast

/-- Failing fast agrees with recovery up to the first error. Where numbers carry their values, a
parse that recovers gives a program. If it reports nothing, the one that fails fast gives the same
program and reports nothing. If it reports errors, the other one gives up with the first of them,
which is all that it reports: it owes no `end` and stays at the token where the error was raised. -/
theorem parse_failFast (hnumbers : NumbersCarryValues (tokens.takeWhile Cursor.isBeforeEnd)) :
    (∃ ns, (ofTokens tokens false).parse.1 = .ok (.program 1 ns)) ∧
      ((ofTokens tokens false).parse.2.reporter.errors = #[] →
        (ofTokens tokens true).parse.1 = (ofTokens tokens false).parse.1 ∧
          (ofTokens tokens true).parse.2.reporter.errors = #[]) ∧
      ∀ e, (ofTokens tokens false).parse.2.reporter.errors[0]? = some e →
        ∃ s, (ofTokens tokens true).parse = (.error (.invalid e), s) ∧
          s.reporter.errors = #[e] ∧ s.pendingEnds = 0 ∧ RaisedAt tokens [] e s.cursor.position ∧
          e.BlamesToken (Cursor.ofTokens tokens).tokens s.cursor.position := by
  rcases Visits.exists_end hnumbers .start with ⟨read, last, hvisits, hend⟩
  have hnil : last.cursor.ahead = [] := by simpa [Cursor.atEnd] using hend
  have hresult := hvisits.parse_eq
  rw [parseAfter_of_end hnil] at hresult
  refine ⟨⟨_, by rw [hresult]⟩, ?_, ?_⟩
  · intro hnone
    rw [hresult] at hnone ⊢
    have hfast := (hvisits.hasten (by simpa using hnone)).2.parse_eq
    rw [parseAfter_of_end (s := last.hasten) hnil] at hfast
    rw [hfast]
    exact ⟨rfl, hnone⟩
  · intro e he
    rcases exists_raisedAt he with ⟨index, hraised⟩
    rcases hraised.parse_eq with ⟨s, hparse, hall, hpending, rfl⟩
    exact ⟨s, hparse, hall, hpending, hraised, hraised.blamesToken⟩

end

/-- The tokens of two lines with an error each, the first of them in a block: `do print )` and then
`x y`. -/
def twoErrors : List Token :=
  [⟨.keyword .do_, "do", 1, 1, none⟩, ⟨.keyword .print, "print", 1, 4, none⟩,
    ⟨.operator .rparen, ")", 1, 10, none⟩, ⟨.eol, "", 1, 11, none⟩, ⟨.ident, "x", 2, 1, none⟩,
    ⟨.ident, "y", 2, 3, none⟩, ⟨.eol, "", 2, 4, none⟩]

/-- With recovery both errors are reported, and the `end` of the block is owed. Failing fast, only
the first is, and none is owed. -/
theorem parse_failFast_twoErrors :
    (ofTokens twoErrors false).parse.2.reporter.errors.size = 2 ∧
      (ofTokens twoErrors false).parse.2.pendingEnds = 1 ∧
      ∃ e s, (ofTokens twoErrors false).parse.2.reporter.errors[0]? = some e ∧
        (ofTokens twoErrors true).parse = (.error (.invalid e), s) ∧ s.reporter.errors = #[e] ∧
        s.pendingEnds = 0 := by
  have hnumbers : NumbersCarryValues (twoErrors.takeWhile Cursor.isBeforeEnd) := by
    unfold NumbersCarryValues
    decide
  have hsize : (ofTokens twoErrors false).parse.2.reporter.errors.size = 2 := by decide +kernel
  have hpos : 0 < (ofTokens twoErrors false).parse.2.reporter.errors.size := by omega
  have hfirst := Array.getElem?_eq_getElem hpos
  rcases (parse_failFast hnumbers).2.2 _ hfirst with ⟨s, hparse, hall, hpending, -, -⟩
  exact ⟨hsize, by decide +kernel, _, s, hfirst, hparse, hall, hpending⟩

end ScriptCheck.Session
