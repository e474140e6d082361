import ScriptCheck.Event
import ScriptCheck.Grammar.Rule

/-!
# The state of a parse

A session is a parse in progress: the place that it has come to, what it has entered and not left,
what it owes, and the errors that it has reported. A rule of the grammar looks at the place alone,
and what a session is after reading with one is a matter of where the rule ends and of the blocks
that a failure leaves open (`Session.run`).
-/

namespace ScriptCheck

/-- A parse in progress. -/
structure Session where
  cursor : Cursor
  /-- Whether the first error ends the parse. -/
  failFast : Bool := false
  /-- Whether `and` separates the clauses of a `for` in what is read next. -/
  andSeparates : Bool := false
  /-- The blocks that the declaration being read has entered and not left. -/
  openBlocks : Nat := 0
  /-- The `end`s that are owed to blocks abandoned by earlier errors. -/
  pendingEnds : Nat := 0
  reporter : Reporter := {}
  log : Array Event := #[]

namespace Session

variable {α β : Type}

/-- The session at the start of a sequence of tokens. -/
def ofTokens (tokens : List Token) (failFast : Bool) : Session where
  cursor := .ofTokens tokens
  failFast := failFast

/-- Read with a rule from the place of the session. The blocks that a failure leaves open join those
that are open already. -/
def run (r : Rule α) (s : Session) : Except Cause α × Session :=
  match r.run s.cursor with
  | .done a place => (.ok a, { s with cursor := place })
  | .failed failure place =>
    (.error failure.cause,
      { s with cursor := place, openBlocks := s.openBlocks + failure.unclosed })

theorem run_bind (r : Rule α) (next : α → Rule β) (s : Session) :
    s.run (r >>= next) =
      match s.run r with
      | (.ok a, s') => s'.run (next a)
      | (.error cause, s') => (.error cause, s') := by
  unfold run
  rw [Rule.run_bind]
  cases r.run s.cursor <;> rfl

/-- Reading with a rule leaves the way to read `and` as it was. -/
@[simp] theorem andSeparates_run (r : Rule α) (s : Session) :
    (s.run r).2.andSeparates = s.andSeparates := by
  unfold run
  split <;> rfl

theorem reaches_run (r : Rule α) (s : Session) : s.cursor.Reaches (s.run r).2.cursor := by
  have hforward := r.forward s.cursor
  unfold run
  split <;> next h => rw [h] at hforward; exact hforward

end Session

end ScriptCheck
