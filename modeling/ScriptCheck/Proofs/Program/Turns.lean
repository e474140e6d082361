import ScriptCheck.Session
import ScriptCheck.Proofs.Grammar.Failure
import ScriptCheck.Proofs.Statement.Reading

/-!
# The turns of a parse

A session that recovers takes turns until no token is left. What one turn does is said once, for
each of the three ways in which it may go: it passes over an owed `end` (`step_settled`), reads a
declaration (`step_accepted`), or reports an error and resumes (`step_recovered`). One of them
always is the case, so there is an induction on parses with one case for each
(`parseAfter_induct`), and everything about whole parses follows from it.
-/

namespace ScriptCheck

open ScriptCheck.Rule

/-- A failure that blames its place gives an error at the token there. -/
theorem Failure.BlamesPlace.exists_error {failure : Failure} {d : Cursor}
    (h : failure.BlamesPlace d) :
    ∃ e, failure.cause.syntaxError? d = some e ∧ e.token = some d.peek ∧ e.line = d.peek.line := by
  rcases h with hcause | ⟨e, hcause, htoken, hline, -⟩
  · exact ⟨_, by rw [hcause]; rfl, rfl, rfl⟩
  · exact ⟨e, by rw [hcause]; rfl, htoken, hline⟩

/-- The error of any failure of a declaration is at the token where it fails, and on its line. -/
theorem Failure.HasReason.token_eq {failure : Failure} {d : Cursor} {i : List Token}
    {e : SyntaxError} (h : failure.HasReason d i) (he : failure.cause.syntaxError? d = some e) :
    e.token = some d.peek ∧ e.line = d.peek.line := by
  rcases h with hblames | ⟨⟨fault, hcause⟩, -⟩
  · rcases hblames.exists_error with ⟨e', he', hplace⟩
    rw [he] at he'
    cases he'
    exact hplace
  · rw [hcause] at he
    cases he

namespace Session

/-- A session between two declarations: it recovers from errors, `and` is an operator, and no block
is open. -/
structure Between (s : Session) : Prop where
  failFast_eq : s.failFast = false
  andSeparates_eq : s.andSeparates = false
  openBlocks_eq : s.openBlocks = 0

/-- Whether an `end` that is owed comes next. -/
def OwesNext (s : Session) : Prop :=
  s.pendingEnds ≠ 0 ∧ nextKind s.cursor.ahead = .keyword .end_

/-- The `end`s that are owed when reading resumes from a failure in front of `ahead`. -/
def owedAfter (pending unclosed : Nat) (ahead : List Token) : Nat :=
  let skipped := ahead.take (Cursor.resumeDistance ahead)
  pending + unclosed + countKind (.keyword .do_) skipped - countKind (.keyword .end_) skipped

/-- What is ahead when reading resumes from a failure in front of `ahead`. -/
def resumed (ahead : List Token) : List Token :=
  dropBlank (ahead.drop (Cursor.resumeDistance ahead))

variable {s : Session}

/-- Only the place changes when ends of line are passed. -/
theorem skipNewlines_eq (s : Session) :
    ∃ d, s.skipNewlines = { s with cursor := d } ∧ d.ahead = dropBlank s.cursor.ahead ∧
      s.cursor.Reaches d := by
  rcases Grammar.run_skipNewlines s.cursor with ⟨d, hrun, hd⟩
  have hforward := Grammar.skipNewlines.forward s.cursor
  rw [hrun] at hforward
  refine ⟨d, ?_, hd, hforward⟩
  unfold skipNewlines run
  rw [hrun]

theorem reporter_skipNewlines (s : Session) : s.skipNewlines.reporter = s.reporter := by
  rcases skipNewlines_eq s with ⟨d, heq, -⟩
  rw [heq]

theorem recover_eq (h : s.failFast = false) (e : SyntaxError) :
    s.recover e = (.ok (), (s.report e).resume) := by
  unfold recover
  dsimp only
  rw [if_neg]
  change ¬ s.failFast = true
  simp [h]

/-- In a session that fails fast an error is given up with. -/
theorem recover_of_failFast (h : s.failFast = true) (e : SyntaxError) :
    s.recover e = (.error (.invalid e), s.report e) := by
  unfold recover
  dsimp only
  rw [if_pos]
  exact h

/-- In any session an error is reported before anything else is done about it. -/
theorem reporter_recover (s : Session) (e : SyntaxError) :
    (s.recover e).2.reporter = s.reporter.report e := by
  cases h : s.failFast with
  | true => rw [recover_of_failFast h]; rfl
  | false => rw [recover_eq h]; rfl

theorem owesNext_iff :
    (s.pendingEnds ≠ 0 ∧ s.cursor.peek.kind = .keyword .end_) ↔ s.OwesNext := by
  rw [Cursor.kind_peek]
  rfl

/-! ## One turn -/

section

variable [Stack]

/-- An `end` that is owed is passed over. -/
theorem step_settled (h : s.OwesNext) :
    ∃ d, s.step = (.settled, { s with cursor := d, pendingEnds := s.pendingEnds - 1 }) ∧
      d.ahead = dropBlank (s.cursor.ahead.drop 1) ∧ s.cursor.Reaches d := by
  rcases skipNewlines_eq
    { s with cursor := s.cursor.advance, pendingEnds := s.pendingEnds - 1 }
    with ⟨d, heq, hd, hreaches⟩
  refine ⟨d, ?_, hd, (Cursor.reaches_skip 1 s.cursor).trans hreaches⟩
  rw [step_eq_run, if_pos (owesNext_iff.mpr h), heq]

/-- A declaration that can be read is accepted. -/
theorem step_accepted (hs : s.andSeparates = false) (h : ¬ s.OwesNext) {n : Node} {d₀ : Cursor}
    (hrun : (Grammar.declaration false Nesting.limit).run s.cursor = .done n d₀) :
    ∃ d, s.step = (.accepted n, { s with cursor := d }) ∧ d.ahead = dropBlank d₀.ahead ∧
      s.cursor.Reaches d := by
  have hforward := (Grammar.declaration false Nesting.limit).forward s.cursor
  rw [hrun] at hforward
  rcases skipNewlines_eq { s with cursor := d₀ } with ⟨d, heq, hd, hreaches⟩
  refine ⟨d, ?_, hd, hforward.trans hreaches⟩
  have hdeclaration :
      (Grammar.declaration s.andSeparates Nesting.limit).run s.cursor = .done n d₀ := by
    rw [hs]
    exact hrun
  rw [step_eq_run]
  unfold run
  rw [if_neg (fun howes => h (owesNext_iff.mp howes)), hdeclaration]
  exact congrArg (Prod.mk _) heq

/-- The session in which a declaration has failed at a place. -/
def failedAt (s : Session) (failure : Failure) (d₀ : Cursor) : Session :=
  { s with cursor := d₀, openBlocks := s.openBlocks + failure.unclosed }

/-- A declaration that cannot be read gives an error, and what becomes of it is up to the
session. -/
theorem step_failed (hs : s.andSeparates = false) (h : ¬ s.OwesNext) {failure : Failure}
    {d₀ : Cursor} {e : SyntaxError}
    (hrun : (Grammar.declaration false Nesting.limit).run s.cursor = .failed failure d₀)
    (he : failure.cause.syntaxError? d₀ = some e) {s' : Session} :
    (recover e (s.failedAt failure d₀) = (.ok (), s') →
        s.step = (.recovered, s'.skipNewlines)) ∧
      ∀ cause, recover e (s.failedAt failure d₀) = (.error cause, s') →
        s.step = (.stopped cause, s') := by
  have hdeclaration :
      (Grammar.declaration s.andSeparates Nesting.limit).run s.cursor = .failed failure d₀ := by
    rw [hs]
    exact hrun
  rw [step_eq_run]
  unfold failedAt run
  rw [if_neg (fun howes => h (owesNext_iff.mp howes)), hdeclaration]
  dsimp only
  rw [he]
  dsimp only
  constructor
  · intro hrecover
    rw [hrecover]
  · intro cause hrecover
    rw [hrecover]

/-- In a session that recovers, reading resumes after the error. -/
theorem step_recovered (hs : s.Between) (h : ¬ s.OwesNext) {failure : Failure} {d₀ : Cursor}
    {e : SyntaxError}
    (hrun : (Grammar.declaration false Nesting.limit).run s.cursor = .failed failure d₀)
    (he : failure.cause.syntaxError? d₀ = some e) :
    ∃ d log, s.step = (.recovered,
        { s with
          cursor := d
          pendingEnds := owedAfter s.pendingEnds failure.unclosed d₀.ahead
          reporter := s.reporter.report e
          log := log }) ∧
      d.ahead = resumed d₀.ahead ∧ s.cursor.Reaches d := by
  have hforward := (Grammar.declaration false Nesting.limit).forward s.cursor
  rw [hrun] at hforward
  -- The session as it resumes, in front of the ends of line.
  let s' : Session := (report e (s.failedAt failure d₀)).resume
  rcases skipNewlines_eq s' with ⟨d, heq, hd, hreaches⟩
  refine ⟨d, s'.log, ?_, hd, ?_⟩
  · have hrecover := recover_eq (s := s.failedAt failure d₀) hs.failFast_eq e
    rw [(step_failed hs.andSeparates_eq h hrun he).1 hrecover]
    change (Turn.recovered, s'.skipNewlines) = _
    rw [heq]
    have hopen := hs.openBlocks_eq
    simp only [s', failedAt, resume, report, owedAfter, hopen, Nat.zero_add]
  · exact hforward.trans ((Cursor.reaches_skip _ d₀).trans hreaches)

/-- In a session that fails fast, the parse is given up with the error. -/
theorem step_stopped (hfast : s.failFast = true) (hs : s.andSeparates = false) (h : ¬ s.OwesNext)
    {failure : Failure} {d₀ : Cursor} {e : SyntaxError}
    (hrun : (Grammar.declaration false Nesting.limit).run s.cursor = .failed failure d₀)
    (he : failure.cause.syntaxError? d₀ = some e) :
    ∃ s', s.step = (.stopped (.invalid e), s') ∧ s'.cursor = d₀ := by
  have hrecover := recover_of_failFast (s := s.failedAt failure d₀) hfast e
  exact ⟨_, (step_failed hs h hrun he).2 _ hrecover, rfl⟩

/-- A number token that denotes no number ends the parse of any session where it fails. -/
theorem step_eq_givenUp (hs : s.andSeparates = false) (h : ¬ s.OwesNext) {failure : Failure}
    {d₀ : Cursor}
    (hrun : (Grammar.declaration false Nesting.limit).run s.cursor = .failed failure d₀)
    (he : failure.cause.syntaxError? d₀ = none) :
    s.step = (.stopped failure.cause, s.failedAt failure d₀) := by
  have hdeclaration :
      (Grammar.declaration s.andSeparates Nesting.limit).run s.cursor = .failed failure d₀ := by
    rw [hs]
    exact hrun
  rw [step_eq_run]
  unfold run
  rw [if_neg (fun howes => h (owesNext_iff.mp howes)), hdeclaration]
  dsimp only
  rw [he]
  rfl

theorem step_givenUp (hs : s.andSeparates = false) (h : ¬ s.OwesNext) {failure : Failure}
    {d₀ : Cursor}
    (hrun : (Grammar.declaration false Nesting.limit).run s.cursor = .failed failure d₀)
    (he : failure.cause.syntaxError? d₀ = none) :
    s.step.1 = .stopped failure.cause := by
  rw [step_eq_givenUp hs h hrun he]

/-- In any session the error of a declaration that cannot be read is reported. -/
theorem errors_step_failed (hs : s.andSeparates = false) (h : ¬ s.OwesNext) {failure : Failure}
    {d₀ : Cursor} {e : SyntaxError}
    (hrun : (Grammar.declaration false Nesting.limit).run s.cursor = .failed failure d₀)
    (he : failure.cause.syntaxError? d₀ = some e) :
    s.step.2.reporter.errors.toList = s.reporter.errors.toList ++ [e] := by
  have hreporter := reporter_recover (s.failedAt failure d₀) e
  have hreported := Reporter.errors_report s.reporter e
  cases hrecover : recover e (s.failedAt failure d₀) with
  | mk result s' =>
    rw [hrecover] at hreporter
    change s'.reporter = s.reporter.report e at hreporter
    rw [← hreported, ← hreporter]
    cases result with
    | ok _ =>
      rw [(step_failed hs h hrun he).1 hrecover]
      exact congrArg (fun reporter : Reporter => reporter.errors.toList) (reporter_skipNewlines s')
    | error cause => rw [(step_failed hs h hrun he).2 cause hrecover]

end

theorem errors_prefix_of_reporter_eq {s s' : Session} (h : s'.reporter = s.reporter) :
    s.reporter.errors.toList <+: s'.reporter.errors.toList := by
  rcases s with ⟨⟩
  cases h
  exact List.prefix_refl _

section

variable [Stack]

/-- Errors that have been reported stay reported. -/
theorem errors_prefix_step (s : Session) :
    s.reporter.errors.toList <+: s.step.2.reporter.errors.toList := by
  rw [step_eq_run]
  unfold run
  split
  · exact errors_prefix_of_reporter_eq (reporter_skipNewlines _)
  · cases (Grammar.declaration s.andSeparates Nesting.limit).run s.cursor with
    | done n d₀ => exact errors_prefix_of_reporter_eq (reporter_skipNewlines _)
    | failed failure d₀ =>
      dsimp only
      cases failure.cause.syntaxError? d₀ with
      | none => exact List.prefix_refl _
      | some e =>
        have hreporter := reporter_recover (s.failedAt failure d₀) e
        unfold failedAt at hreporter
        dsimp only
        split
        · next s' hrecover =>
          rw [hrecover] at hreporter
          rw [reporter_skipNewlines, hreporter, Reporter.errors_report]
          exact List.prefix_append _ _
        · next cause s' hrecover =>
          rw [hrecover] at hreporter
          rw [hreporter, Reporter.errors_report]
          exact List.prefix_append _ _

/-- How a turn of a session between two declarations goes, away from the end of the input. -/
inductive Advances (s : Session) : Turn → Session → Prop where
  | settled {d : Cursor} : s.OwesNext → d.ahead = dropBlank (s.cursor.ahead.drop 1) →
      s.cursor.Reaches d →
      s.Advances .settled { s with cursor := d, pendingEnds := s.pendingEnds - 1 }
  | accepted {n : Node} {d₀ d : Cursor} : ¬ s.OwesNext →
      (Grammar.declaration false Nesting.limit).run s.cursor = .done n d₀ →
      d.ahead = dropBlank d₀.ahead → s.cursor.Reaches d →
      s.Advances (.accepted n) { s with cursor := d }
  | recovered {failure : Failure} {d₀ d : Cursor} {e : SyntaxError} {log : Array Event} :
      ¬ s.OwesNext → (Grammar.declaration false Nesting.limit).run s.cursor = .failed failure d₀ →
      failure.cause.syntaxError? d₀ = some e → e.token = some d₀.peek →
      d.ahead = resumed d₀.ahead → s.cursor.Reaches d →
      s.Advances .recovered
        { s with
          cursor := d
          pendingEnds := owedAfter s.pendingEnds failure.unclosed d₀.ahead
          reporter := s.reporter.report e
          log := log }

/-- Every turn goes in one of these ways, or else it comes to a number token without a value, and
the parse is given up with nothing reported. -/
theorem step_advances_or_givenUp (hs : s.Between) :
    (∃ turn s', s.step = (turn, s') ∧ s.Advances turn s') ∨
      ∃ fault s', s.step = (.stopped (.numeral fault), s') ∧ s'.reporter = s.reporter ∧
        ¬ NumbersCarryValues s.cursor.ahead := by
  by_cases howes : s.OwesNext
  · rcases step_settled howes with ⟨d, hstep, hd, hreaches⟩
    exact Or.inl ⟨_, _, hstep, .settled howes hd hreaches⟩
  · cases hrun : (Grammar.declaration false Nesting.limit).run s.cursor with
    | done n d₀ =>
      rcases step_accepted hs.andSeparates_eq howes hrun with ⟨d, hstep, hd, hreaches⟩
      exact Or.inl ⟨_, _, hstep, .accepted howes hrun hd hreaches⟩
    | failed failure d₀ =>
      rcases Grammar.declaration_hasReason hrun with hblames | ⟨⟨fault, hcause⟩, hno⟩
      · -- The token where the failure arose is to blame for it, so there is an error.
        rcases hblames.exists_error with ⟨e, he, htoken, -⟩
        rcases step_recovered hs howes hrun he with ⟨d, log, hstep, hd, hreaches⟩
        exact Or.inl ⟨_, _, hstep, .recovered howes hrun he htoken hd hreaches⟩
      · have hnone : failure.cause.syntaxError? d₀ = none := by rw [hcause]; rfl
        have hstep := step_eq_givenUp hs.andSeparates_eq howes hrun hnone
        rw [hcause] at hstep
        exact Or.inr ⟨fault, _, hstep, rfl, hno⟩

/-- A parse that goes on has advanced. -/
theorem advances_of_step (hs : s.Between) {turn : Turn} {s' : Session} (hstep : s.step = (turn, s'))
    (hgo : ∀ cause, turn ≠ .stopped cause) : s.Advances turn s' := by
  rcases step_advances_or_givenUp hs with ⟨turn', s'', hstep', hturn⟩ | ⟨fault, s'', hstep', -, -⟩
  · rw [hstep] at hstep'
    cases hstep'
    exact hturn
  · rw [hstep] at hstep'
    cases hstep'
    exact absurd rfl (hgo _)

/-- Where numbers carry their values, the parse is not given up. -/
theorem step_advances (hs : s.Between) (hnumbers : NumbersCarryValues s.cursor.ahead) :
    ∃ turn s', s.step = (turn, s') ∧ s.Advances turn s' := by
  rcases step_advances_or_givenUp hs with hadvances | ⟨-, -, -, -, hno⟩
  · exact hadvances
  · exact absurd hnumbers hno

end

namespace Advances

variable {s' : Session} {turn : Turn}

variable [Stack]

theorem reaches (h : s.Advances turn s') : s.cursor.Reaches s'.cursor := by
  cases h with
  | settled _ _ hreaches => exact hreaches
  | accepted _ _ _ hreaches => exact hreaches
  | recovered _ _ _ _ _ hreaches => exact hreaches

theorem between (h : s.Advances turn s') (hs : s.Between) : s'.Between := by
  cases h <;> exact ⟨hs.1, hs.2, hs.3⟩

theorem ne_stopped (h : s.Advances turn s') (cause : Cause) : turn ≠ .stopped cause := by
  cases h <;> simp

end Advances

/-! ## Whole parses -/

variable {read : Array Node}

theorem parseAfter_of_end [Stack] (h : s.cursor.ahead = []) (read : Array Node) :
    s.parseAfter read = (.ok (.program 1 read.toList),
      { s with log := s.log.push (.parsed read.size s.reporter.errorCount) }) := by
  rw [parseAfter, dif_pos]
  simp [Cursor.atEnd, h]

/-- A parse that goes on does so behind its first turn. -/
theorem parseAfter_of_step [Stack] (h : s.cursor.ahead ≠ []) {turn : Turn} {s' : Session}
    (hstep : s.step = (turn, s')) (read : Array Node) :
    s.parseAfter read =
      match turn with
      | .stopped cause => (.error cause, s')
      | .accepted n => s'.parseAfter (read.push n)
      | .settled | .recovered => s'.parseAfter read := by
  rw [parseAfter, dif_neg (by simp [Cursor.atEnd, h])]
  split <;> next hstep' => rw [hstep] at hstep'; cases hstep'; rfl

section

variable {P : Array Node → Session → Except Cause Node × Session → Prop}

/-- Induction on a parse that recovers: what holds at the end, and is handed back by each of the
three ways in which a turn may go, holds of the whole parse. -/
theorem parseAfter_induct [Stack]
    (ended : ∀ read s log, s.cursor.ahead = [] →
      P read s (.ok (.program 1 read.toList), { s with log := log }))
    (settled : ∀ read s d o, s.Between → s.cursor.ahead ≠ [] → s.OwesNext →
      d.ahead = dropBlank (s.cursor.ahead.drop 1) → s.cursor.Reaches d →
      P read { s with cursor := d, pendingEnds := s.pendingEnds - 1 } o → P read s o)
    (accepted : ∀ read s n d₀ d o, s.Between → s.cursor.ahead ≠ [] → ¬ s.OwesNext →
      (Grammar.declaration false Nesting.limit).run s.cursor = .done n d₀ →
      d.ahead = dropBlank d₀.ahead → s.cursor.Reaches d →
      P (read.push n) { s with cursor := d } o → P read s o)
    (recovered : ∀ read s failure d₀ e d log o, s.Between → s.cursor.ahead ≠ [] → ¬ s.OwesNext →
      (Grammar.declaration false Nesting.limit).run s.cursor = .failed failure d₀ →
      failure.cause.syntaxError? d₀ = some e → e.token = some d₀.peek →
      d.ahead = resumed d₀.ahead → s.cursor.Reaches d →
      P read
        { s with
          cursor := d
          pendingEnds := owedAfter s.pendingEnds failure.unclosed d₀.ahead
          reporter := s.reporter.report e
          log := log } o → P read s o)
    (read : Array Node) (s : Session) (hs : s.Between)
    (hnumbers : NumbersCarryValues s.cursor.ahead) : P read s (s.parseAfter read) := by
  generalize hn : s.cursor.remaining = n
  induction n using Nat.strongRecOn generalizing read s with
  | ind n ih =>
    by_cases hend : s.cursor.ahead = []
    · rw [parseAfter_of_end hend]
      exact ended read s _ hend
    · -- Away from the end every turn leaves less, so the parse that goes on is a shorter one.
      rcases step_advances hs hnumbers with ⟨turn, s', hstep, hturn⟩
      have hprogress := step_progress (s := s) (by simp [Cursor.atEnd, hend])
        (by rw [hstep]; exact hturn.ne_stopped)
      have hbetween := hturn.between hs
      have hnumbers' := hnumbers.of_suffix hturn.reaches.suffix
      rw [hstep, hn] at hprogress
      rw [parseAfter_of_step hend hstep]
      cases hturn with
      | settled howes hd hreaches =>
        exact settled read s _ _ hs hend howes hd hreaches
          (ih _ hprogress read _ hbetween hnumbers' rfl)
      | accepted howes hrun hd hreaches =>
        exact accepted read s _ _ _ _ hs hend howes hrun hd hreaches
          (ih _ hprogress _ _ hbetween hnumbers' rfl)
      | recovered howes hrun he htoken hd hreaches =>
        exact recovered read s _ _ _ _ _ _ hs hend howes hrun he htoken hd hreaches
          (ih _ hprogress read _ hbetween hnumbers' rfl)

end

end Session

end ScriptCheck
