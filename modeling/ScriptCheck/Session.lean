import ScriptCheck.Grammar.Progress
import ScriptCheck.Parser.Reads

/-!
# Parsing with recovery

A session is a parse in progress. It reads one declaration after another; when one fails, the error
is reported and reading resumes at the next place where a statement may start, so that a malformed
line gives one diagnostic. The blocks that a failed declaration leaves open are remembered: their
`end`s are still to come, and each of them is passed over when its turn comes. In a session that
fails fast the first error ends the parse instead.

`Session.step` is one turn of this, and `Session.step_progress` the reason why the turns end.
-/

namespace ScriptCheck

/-- The error that the nesting is too deep at a token. -/
def SyntaxError.nestingTooDeep (t : Token) : SyntaxError :=
  .atToken .nestingTooDeep "expression nested too deeply" t none none

/-- The syntax error that a cause amounts to at the place where it arose. A number token that
denotes no number is no matter of syntax. -/
def Cause.syntaxError? (place : Cursor) : Cause → Option SyntaxError
  | invalid e => some e
  | tooDeep => some (.nestingTooDeep place.peek)
  | numeral _ => none

namespace Session

/-- Pass over ends of line. -/
def skipNewlines (s : Session) : Session :=
  (s.run Grammar.skipNewlines).2

/-- Read an expression that takes the whole input. Nesting that is too deep is a syntax error
here. -/
def parseExpression [Stack] (s : Session) : Except Cause Node × Session :=
  match (Parser.wholeExpression Nesting.limit).run s with
  | (.ok e, s') => (.ok e, s')
  | (.error cause, s') =>
    match cause.syntaxError? s'.cursor with
    | some e => (.error (.invalid e), s')
    | none => (.error cause, s')

/-! ## Recovery -/

/-- The session with an error reported. -/
def report (e : SyntaxError) (s : Session) : Session :=
  { s with reporter := s.reporter.report e, log := s.log.push (.recorded e) }

/-- The number of tokens of the given kind. -/
def countKind (kind : Kind) (tokens : List Token) : Nat :=
  tokens.countP (·.kind == kind)

/-- Go to the next place where reading may resume. The blocks that are open, and those opened by the
tokens passed over, owe their `end`s, and those passed over are settled. -/
def resume (s : Session) : Session :=
  let place := s.cursor.synchronize
  let skipped := s.cursor.ahead.take (Cursor.resumeDistance s.cursor.ahead)
  let opened := countKind (.keyword .do_) skipped
  let closed := countKind (.keyword .end_) skipped
  { s with
    cursor := place
    pendingEnds := s.pendingEnds + s.openBlocks + opened - closed
    openBlocks := 0
    log := if place.atEnd then s.log else s.log.push (.resuming place.peek) }

/-- Report an error, and then either resume or, in a session that fails fast, give up with it. -/
def recover (e : SyntaxError) (s : Session) : Except Cause Unit × Session :=
  let s := s.report e
  if s.failFast then (.error (.invalid e), s) else (.ok (), s.resume)

/-! ## Declarations -/

/-- What a turn of the parse comes to. -/
inductive Turn where
  /-- A declaration has been read. -/
  | accepted (statement : Node)
  /-- An `end` that was owed has been passed over. -/
  | settled
  /-- An error has been reported and reading resumed. -/
  | recovered
  /-- The parse is given up. -/
  | stopped (cause : Cause)

/-- One turn of the parse, away from the end of the input: an owed `end`, or a declaration, and the
ends of line behind it. -/
def step [Stack] (s : Session) : Turn × Session :=
  if s.pendingEnds ≠ 0 ∧ s.cursor.peek.kind = .keyword .end_ then
    (.settled,
      { s with cursor := s.cursor.advance, pendingEnds := s.pendingEnds - 1 }.skipNewlines)
  else
    match (Parser.declaration Nesting.limit).run s with
    | (.ok statement, s') => (.accepted statement, s'.skipNewlines)
    | (.error cause, s') =>
      match cause.syntaxError? s'.cursor with
      | none => (.stopped cause, s')
      | some e =>
        match s'.recover e with
        | (.ok (), s'') => (.recovered, s''.skipNewlines)
        | (.error cause, s'') => (.stopped cause, s'')

/-! ## In terms of the grammar -/

theorem parseExpression_eq_run [Stack] (s : Session) :
    s.parseExpression =
      match s.run (Grammar.wholeExpression s.andSeparates Nesting.limit) with
      | (.ok e, s') => (.ok e, s')
      | (.error cause, s') =>
        match cause.syntaxError? s'.cursor with
        | some e => (.error (.invalid e), s')
        | none => (.error cause, s') := by
  unfold parseExpression
  rw [Parser.wholeExpression_reads]

theorem step_eq_run [Stack] (s : Session) :
    s.step =
      if s.pendingEnds ≠ 0 ∧ s.cursor.peek.kind = .keyword .end_ then
        (.settled,
          { s with cursor := s.cursor.advance, pendingEnds := s.pendingEnds - 1 }.skipNewlines)
      else
        match s.run (Grammar.declaration s.andSeparates Nesting.limit) with
        | (.ok statement, s') => (.accepted statement, s'.skipNewlines)
        | (.error cause, s') =>
          match cause.syntaxError? s'.cursor with
          | none => (.stopped cause, s')
          | some e =>
            match s'.recover e with
            | (.ok (), s'') => (.recovered, s''.skipNewlines)
            | (.error cause, s'') => (.stopped cause, s'') := by
  unfold step
  rw [Parser.declaration_reads]

/-! ## Progress -/

theorem remaining_skipNewlines_le (s : Session) :
    s.skipNewlines.cursor.remaining ≤ s.cursor.remaining := by
  have hforward := (Grammar.skipNewlines.forward s.cursor).remaining_le
  unfold skipNewlines run
  split <;> next h => rw [h] at hforward; exact hforward

theorem remaining_resume_lt {s : Session} (h : s.cursor.atEnd = false) :
    s.resume.cursor.remaining < s.cursor.remaining :=
  Cursor.remaining_synchronize_lt h

/-- Wherever an error leaves a session, resuming from it leaves less than a place away from the end
of the input that led there. -/
theorem remaining_resume_lt_of_le {s : Session} {n : Nat} (hle : s.cursor.remaining ≤ n)
    (hn : n ≠ 0) : s.resume.cursor.remaining < n := by
  cases h : s.cursor.atEnd with
  | false => exact Nat.lt_of_lt_of_le (remaining_resume_lt h) hle
  | true =>
    rw [Cursor.atEnd_iff] at h
    have hskip : s.resume.cursor.remaining ≤ s.cursor.remaining :=
      (Cursor.reaches_skip _ s.cursor).remaining_le
    omega

variable [Stack]

/-- Every turn takes a token, or else the parse is given up. -/
theorem step_progress {s : Session} (hend : s.cursor.atEnd = false)
    (hgo : ∀ cause, s.step.1 ≠ .stopped cause) :
    s.step.2.cursor.remaining < s.cursor.remaining := by
  have hne := (Cursor.atEnd_eq_false_iff s.cursor).mp hend
  rw [step_eq_run] at hgo ⊢
  split
  · exact Nat.lt_of_le_of_lt (remaining_skipNewlines_le _) (Cursor.remaining_advance_lt hend)
  · next hno =>
    rw [if_neg hno] at hgo
    have hforward :=
      ((Grammar.declaration s.andSeparates Nesting.limit).forward s.cursor).remaining_le
    unfold run at hgo ⊢
    cases hrun : (Grammar.declaration s.andSeparates Nesting.limit).run s.cursor with
    | done statement place =>
      simp only [hrun] at hgo ⊢
      refine Nat.lt_of_le_of_lt (remaining_skipNewlines_le _) ?_
      exact Grammar.declaration_takes _ _ _ _ _ hrun
    | failed failure place =>
      simp only [hrun] at hgo ⊢
      rw [hrun] at hforward
      cases hcause : failure.cause.syntaxError? place with
      | none =>
        simp only [hcause] at hgo
        exact absurd rfl (hgo _)
      | some e =>
        simp only [hcause] at hgo ⊢
        unfold recover at hgo ⊢
        dsimp only at hgo ⊢
        split
        · next hfast =>
          split at hfast
          · simp at hfast
          · obtain rfl := (Prod.mk.inj hfast).2
            refine Nat.lt_of_le_of_lt (remaining_skipNewlines_le _) ?_
            exact remaining_resume_lt_of_le hforward hne
        · next cause s'' hfast =>
          rw [hfast] at hgo
          exact absurd rfl (hgo cause)

/-! ## Whole programs -/

/-- Take turns up to the end of the input, after the statements in `read`. -/
def parseAfter (read : Array Node) (s : Session) : Except Cause Node × Session :=
  if hend : s.cursor.atEnd then
    (.ok (.program 1 read.toList),
      { s with log := s.log.push (.parsed read.size s.reporter.errorCount) })
  else
    match hstep : s.step with
    | (.stopped cause, s') => (.error cause, s')
    | (.accepted statement, s') =>
      have : s'.cursor.remaining < s.cursor.remaining := by
        have h := step_progress (by simpa using hend) (s := s) (by simp [hstep])
        rwa [hstep] at h
      parseAfter (read.push statement) s'
    | (.settled, s') =>
      have : s'.cursor.remaining < s.cursor.remaining := by
        have h := step_progress (by simpa using hend) (s := s) (by simp [hstep])
        rwa [hstep] at h
      parseAfter read s'
    | (.recovered, s') =>
      have : s'.cursor.remaining < s.cursor.remaining := by
        have h := step_progress (by simpa using hend) (s := s) (by simp [hstep])
        rwa [hstep] at h
      parseAfter read s'
termination_by s.cursor.remaining

/-- Parse a program up to the end of the input. -/
def parse (s : Session) : Except Cause Node × Session :=
  s.skipNewlines.parseAfter #[]

end Session

end ScriptCheck
