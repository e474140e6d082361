import ScriptCheck.Proofs.Grammar.Locality
import ScriptCheck.Proofs.Program.Reading
import ScriptCheck.Proofs.Statement.Unfinished

/-!
# The first error is at the first token that is wrong

A parse that fails fast has the correct-prefix property (`Session.parse_prefix`). The tokens in
front of the place where it stops are the beginning of a program, and with the token at the place
they are not: whatever comes behind that token, the parse reports the same error first.

The tokens in front are declarations, which are complete, and the beginning of one more, which
others complete. They need no more of the nesting budget than there is, unless it is used up where
a body has to follow.
-/

namespace ScriptCheck

open ScriptCheck.Rule

namespace Session

variable {tokens : List Token} {s : Session} {e : SyntaxError}

/-! ## Where a parse stops -/

section

variable [Stack]

/-- A session that fails fast and ends with an error has read declarations one after another, and
then failed to read one. -/
theorem exists_failure (read : Array Node) (hfast : s.failFast = true)
    (hs : s.andSeparates = false) (hpending : s.pendingEnds = 0)
    (herr : (s.parseAfter read).1 = .error (.invalid e)) :
    ∃ d need ns failure,
      Sequence (Forms .declaration) (nextKind d.ahead) 0 s.cursor.ahead d.ahead need ns ∧
      need ≤ Nesting.limit ∧ s.cursor.Reaches d ∧
      (Grammar.declaration false Nesting.limit).run d =
        .failed failure (s.parseAfter read).2.cursor ∧
      failure.cause.syntaxError? (s.parseAfter read).2.cursor = some e := by
  generalize hn : s.cursor.remaining = n
  induction n using Nat.strongRecOn generalizing read s with
  | ind n ih =>
    by_cases hend : s.cursor.ahead = []
    · rw [parseAfter_of_end hend] at herr
      cases herr
    · have hno : ¬ s.OwesNext := fun howes => howes.1 hpending
      cases hrun : (Grammar.declaration false Nesting.limit).run s.cursor with
      | done n₀ d₀ =>
        rcases step_accepted hs hno hrun with ⟨d, hstep, hd, hreaches⟩
        have hprogress := step_progress (s := s) (by simp [Cursor.atEnd, hend])
          (by rw [hstep]; simp)
        rw [hstep] at hprogress
        rw [parseAfter_of_step hend hstep] at herr ⊢
        rcases ih _ (by rw [← hn]; exact hprogress) (read.push n₀) (s := { s with cursor := d })
          hfast hs hpending herr rfl
          with ⟨d', need, ns, failure, hsequence, hneed, hreaches', hfailed, he⟩
        rcases Grammar.ofLevel_done Nesting.limit .declaration _ _ _ hrun with ⟨a, ha, hforms⟩
        change Sequence _ _ _ d.ahead _ _ _ at hsequence
        rw [hd] at hsequence
        exact ⟨d', _, _, failure, .next hforms hsequence, by omega, hreaches.trans hreaches',
          hfailed, he⟩
      | failed failure d₀ =>
        cases he : failure.cause.syntaxError? d₀ with
        | none =>
          -- The parse would have been given up without a syntax error.
          have hstep := step_givenUp hs hno hrun he
          cases hboth : s.step with
          | mk turn s' =>
            rw [hboth] at hstep
            subst hstep
            rw [parseAfter_of_step hend hboth] at herr
            have hcause : failure.cause = .invalid e := by simpa using herr
            rw [hcause] at he
            cases he
        | some e' =>
          rcases step_stopped hfast hs hno hrun he with ⟨s', hstep, rfl⟩
          rw [parseAfter_of_step hend hstep] at herr ⊢
          have hsame : e' = e := by simpa using herr
          subst hsame
          exact ⟨s.cursor, 0, [], failure, .done rfl, Nat.zero_le _, .refl _, hrun, he⟩

end

end Session

end ScriptCheck
