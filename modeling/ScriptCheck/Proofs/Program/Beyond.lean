import ScriptCheck.Proofs.Grammar.Frame
import ScriptCheck.Proofs.Grammar.Locality
import ScriptCheck.Proofs.Program.Lines

/-!
# Behind the end of the input

No part of a parse leaves the tokens up to the first end of the input, whatever the session is: it
only moves forward (`Session.reaches_parse`), and it goes as it would with other tokens behind that
end (`Session.parse_followedBy`). Every construct of the grammar is read in this way, also those
whose rules take a word without looking at it and are run where there is none, since at the end of
the input nothing is taken.
-/

namespace ScriptCheck

open ScriptCheck.Rule

/-! ## Places -/

namespace Cursor

variable {c d : Cursor}

/-- The same place, with other tokens behind the end of the input. -/
def followedBy (tokens : List Token) (c : Cursor) : Cursor :=
  { c with beyond := tokens }

@[simp] theorem peek_followedBy (tokens : List Token) (c : Cursor) :
    (c.followedBy tokens).peek = c.peek := rfl

theorem Reaches.beyond_eq : c.Reaches d → d.beyond = c.beyond := by
  rintro ⟨n, rfl⟩
  rfl

/-- A place is given by the tokens around it. -/
theorem eq_of_parts (hbehind : d.behind = c.behind) (hahead : d.ahead = c.ahead)
    (hfinish : d.finish = c.finish) (hbeyond : d.beyond = c.beyond) : d = c := by
  have hposition : d.position = c.position := by
    rw [d.position_eq_length, c.position_eq_length, hbehind]
  cases c
  cases d
  cases hbehind
  cases hahead
  cases hfinish
  cases hbeyond
  cases hposition
  rfl

end Cursor

/-! ## Rules -/

namespace Rule

variable {α : Type}

/-- Accepting a token is looking at it and taking it or leaving it. -/
theorem accept_eq (wanted : Kind → Bool) :
    accept wanted = (do
      let t ← peek
      if wanted t.kind then
        let _ ← advance
        return some t
      else return none) := by
  refine ext fun c => ?_
  rw [run_peek_bind]
  unfold accept
  dsimp only
  split <;> rfl

/-- A token that is expected and not found is unexpected. -/
theorem expect_eq (kind : Kind) (message : String) :
    expect kind message = (do
      let t ← peek
      if t.kind = kind then advance else unexpected message (some kind)) := by
  refine ext fun c => ?_
  rw [run_peek_bind]
  unfold expect
  dsimp only
  split <;> rfl

end Rule

variable {α : Type}

/-- Taking the next token is a matter of what comes also where that is the end of the input: nothing
is taken there. -/
theorem always_local_advance : Always (Local [] []) Rule.advance := by
  intro c c' hc' _
  rcases Cursor.shares_nil_iff.mp hc' with ⟨hahead, hfinish⟩
  refine ⟨c'.advance, Cursor.shares_nil_iff.mpr ⟨?_, hfinish⟩, ?_⟩
  · exact congrArg (List.drop 1) hahead
  · change Outcome.done c'.peek c'.advance = _
    rw [hc'.peek_eq c.precedes_nil]
    rfl

/-- Any kinds of token may be accepted, the end of the input among them. -/
theorem always_local_accept (wanted : Kind → Bool) : Always (Local [] []) (accept wanted) := by
  have hclosed := closed_local [] []
  rw [accept_eq]
  intro c
  refine hclosed.look ?_
  split
  · exact hclosed.always_bind always_local_advance (fun _ => hclosed.always_pure _) c
  · exact hclosed.pure _ c

/-- Any kind of token may be expected, also the end of the input. -/
theorem always_local_expect (kind : Kind) (message : String) :
    Always (Local [] []) (expect kind message) := by
  have hclosed := closed_local [] []
  rw [expect_eq]
  intro c
  refine hclosed.look ?_
  split
  · exact always_local_advance c
  · exact hclosed.always_unexpected _ _ c

/-- The rules of all constructs go by what comes, whatever word that is: those that take a word
without looking at it may be run anywhere. -/
theorem always_local_construct (part : Grammar.Construct α) (s : Bool) (budget : Nat) :
    Always (Local [] []) (part.rule s budget) := by
  have hclosed := closed_local [] []
  have hstatement : ∀ rest < budget, Always (Local [] []) (Grammar.statement s rest) :=
    fun rest _ => (hclosed.levels s rest).2.1
  cases part with
  | declaration => exact (hclosed.levels s budget).1
  | function =>
    have hblock := (hclosed.levels s budget).2.2
    exact fun c => hclosed.functionDeclaration (always_local_advance c) hblock
  | statement => exact (hclosed.levels s budget).2.1
  | conditional => exact fun c => hclosed.ifStatement (always_local_advance c) hstatement
  | forLoop => exact fun c => hclosed.forStatement (always_local_advance c) hstatement
  | whileLoop => exact fun c => hclosed.whileStatement (always_local_advance c) hstatement
  | block => exact (hclosed.levels s budget).2.2
  | expression => exact hclosed.expression s budget
  | tier T => exact hclosed.ofTier budget T s
  | arguments => exact hclosed.arguments (hclosed.expression s budget)

/-- A rule that goes by what comes goes as it would with other tokens behind the end of the input,
and stays in front of them. -/
theorem run_followedBy {rule : Rule α} (h : Always (Local [] []) rule) (tokens : List Token)
    (c : Cursor) : rule.run (c.followedBy tokens) =
      (rule.run c).withPlace ((rule.run c).place.followedBy tokens) := by
  have hshares : c.Shares [] [] (c.followedBy tokens) := Cursor.shares_nil_iff.mpr ⟨rfl, rfl⟩
  rcases h c _ hshares (Cursor.precedes_nil _) with ⟨d, hd, hrun⟩
  rcases Cursor.shares_nil_iff.mp hd with ⟨hahead, hfinish⟩
  -- Movements lead to both places, and no movement changes what is behind the end.
  have hforward := rule.forward c
  have hforward' : (c.followedBy tokens).Reaches d := by
    have hreaches := rule.forward (c.followedBy tokens)
    rw [hrun] at hreaches
    cases hfirst : rule.run c <;> rwa [hfirst] at hreaches
  -- As the same is ahead of the two, the same has been taken.
  have hbehind : d.behind = (rule.run c).place.behind := by
    have hsame := hforward'.behind_append_ahead.trans hforward.behind_append_ahead.symm
    rw [hahead] at hsame
    exact List.reverse_inj.mp (List.append_cancel_right hsame)
  rw [hrun, Cursor.eq_of_parts (c := (rule.run c).place.followedBy tokens) hbehind hahead hfinish
    hforward'.beyond_eq]

/-! ## Moving forward -/

namespace Session

theorem reaches_skipNewlines (s : Session) : s.cursor.Reaches s.skipNewlines.cursor :=
  reaches_run Grammar.skipNewlines s

theorem reaches_recover (e : SyntaxError) (s : Session) :
    s.cursor.Reaches (s.recover e).2.cursor := by
  cases h : s.failFast with
  | true =>
    rw [recover_of_failFast h]
    exact .refl _
  | false =>
    rw [recover_eq h]
    exact Cursor.reaches_skip _ s.cursor

section

variable [Stack]

theorem reaches_step (s : Session) : s.cursor.Reaches s.step.2.cursor := by
  rw [step_eq_run]
  split
  · exact (Cursor.reaches_skip 1 s.cursor).trans (reaches_skipNewlines _)
  · have hread := reaches_run (Grammar.declaration s.andSeparates Nesting.limit) s
    split
    · next n t hrun =>
      rw [hrun] at hread
      exact hread.trans (reaches_skipNewlines t)
    · next cause t hrun =>
      rw [hrun] at hread
      split
      · exact hread
      · next e _ =>
        have hrecover := hread.trans (reaches_recover e t)
        split
        · next u hu =>
          rw [hu] at hrecover
          exact hrecover.trans (reaches_skipNewlines u)
        · next hu =>
          rw [hu] at hrecover
          exact hrecover

theorem reaches_parseAfter (read : Array Node) (s : Session) :
    s.cursor.Reaches (s.parseAfter read).2.cursor := by
  fun_induction parseAfter read s with
  | case1 read s hend => exact .refl _
  | case2 read s hend cause s' hstep =>
    -- The parse is given up where its last turn has led.
    have hturn := reaches_step s
    rwa [hstep] at hturn
  | case3 read s hend n s' hstep _ ih
  | case4 read s hend s' hstep _ ih
  | case5 read s hend s' hstep _ ih =>
    have hturn := reaches_step s
    rw [hstep] at hturn
    exact hturn.trans ih

/-- A parse moves forward, from whatever session it starts. -/
theorem reaches_parse (s : Session) : s.cursor.Reaches s.parse.2.cursor :=
  (reaches_skipNewlines s).trans (reaches_parseAfter _ _)

theorem reaches_parseExpression (s : Session) : s.cursor.Reaches s.parseExpression.2.cursor := by
  have hread := reaches_run (Grammar.wholeExpression s.andSeparates Nesting.limit) s
  rw [parseExpression_eq_run]
  split
  · next hrun => rwa [hrun] at hread
  · next hrun =>
    rw [hrun] at hread
    split <;> exact hread

end

/-! ## Other tokens behind the end -/

/-- The same session, with other tokens behind the end of the input. -/
def followedBy (tokens : List Token) (s : Session) : Session :=
  { s with cursor := s.cursor.followedBy tokens }

variable (tokens : List Token) (s : Session)

@[simp] theorem cursor_followedBy :
    (s.followedBy tokens).cursor = s.cursor.followedBy tokens := rfl

@[simp] theorem andSeparates_followedBy :
    (s.followedBy tokens).andSeparates = s.andSeparates := rfl

@[simp] theorem pendingEnds_followedBy :
    (s.followedBy tokens).pendingEnds = s.pendingEnds := rfl

theorem syntaxError?_followedBy (cause : Cause) :
    cause.syntaxError? (s.followedBy tokens).cursor = cause.syntaxError? s.cursor :=
  syntaxError?_congr (Cursor.peek_followedBy tokens s.cursor)

theorem run_followedBy {rule : Rule α} (h : Always (Local [] []) rule) :
    (s.followedBy tokens).run rule = ((s.run rule).1, (s.run rule).2.followedBy tokens) := by
  unfold run
  rw [cursor_followedBy, ScriptCheck.run_followedBy h]
  cases rule.run s.cursor <;> rfl

theorem skipNewlines_followedBy :
    (s.followedBy tokens).skipNewlines = s.skipNewlines.followedBy tokens := by
  unfold skipNewlines
  rw [run_followedBy tokens s (closed_local [] []).skipNewlines]

theorem recover_followedBy (e : SyntaxError) :
    (s.followedBy tokens).recover e = ((s.recover e).1, (s.recover e).2.followedBy tokens) := by
  cases h : s.failFast with
  | true =>
    rw [recover_of_failFast h, recover_of_failFast (s := s.followedBy tokens) h]
    rfl
  | false =>
    rw [recover_eq h, recover_eq (s := s.followedBy tokens) h]
    rfl

variable [Stack]

theorem step_followedBy : (s.followedBy tokens).step = (s.step.1, s.step.2.followedBy tokens) := by
  rw [step_eq_run, step_eq_run s, cursor_followedBy, andSeparates_followedBy,
    pendingEnds_followedBy, Cursor.peek_followedBy]
  split
  · rw [← skipNewlines_followedBy]
    rfl
  · -- The declaration ends alike, and what is done about a failure looks at the place only.
    have hdeclaration := ((closed_local [] []).levels s.andSeparates Nesting.limit).1
    rw [run_followedBy tokens s hdeclaration]
    rcases s.run (Grammar.declaration s.andSeparates Nesting.limit) with ⟨cause | n, t⟩
    · dsimp only
      rw [syntaxError?_followedBy]
      cases cause.syntaxError? t.cursor with
      | none => rfl
      | some e =>
        dsimp only
        rw [recover_followedBy]
        rcases t.recover e with ⟨cause | _, u⟩
        · rfl
        · dsimp only
          rw [skipNewlines_followedBy]
    · dsimp only
      rw [skipNewlines_followedBy]

theorem parseAfter_followedBy (read : Array Node) :
    (s.followedBy tokens).parseAfter read =
      ((s.parseAfter read).1, (s.parseAfter read).2.followedBy tokens) := by
  fun_induction parseAfter read s with
  | case1 read s hend =>
    have hnil : s.cursor.ahead = [] := by simpa [Cursor.atEnd] using hend
    rw [parseAfter_of_end (s := s.followedBy tokens) hnil]
    rfl
  | case2 read s hend cause s' hstep =>
    have hne : s.cursor.ahead ≠ [] := by simpa [Cursor.atEnd] using hend
    have hturn := step_followedBy tokens s
    rw [hstep] at hturn
    rw [parseAfter_of_step (s := s.followedBy tokens) hne hturn]
  | case3 read s hend n s' hstep _ ih
  | case4 read s hend s' hstep _ ih
  | case5 read s hend s' hstep _ ih =>
    have hne : s.cursor.ahead ≠ [] := by simpa [Cursor.atEnd] using hend
    have hturn := step_followedBy tokens s
    rw [hstep] at hturn
    rw [parseAfter_of_step (s := s.followedBy tokens) hne hturn]
    exact ih

/-- A parse goes as it would with other tokens behind the end of the input. -/
theorem parse_followedBy :
    (s.followedBy tokens).parse = (s.parse.1, s.parse.2.followedBy tokens) := by
  unfold parse
  rw [skipNewlines_followedBy, parseAfter_followedBy]

theorem parseExpression_followedBy :
    (s.followedBy tokens).parseExpression =
      (s.parseExpression.1, s.parseExpression.2.followedBy tokens) := by
  rw [parseExpression_eq_run, parseExpression_eq_run s, andSeparates_followedBy,
    run_followedBy tokens s ((closed_local [] []).wholeExpression _ _)]
  rcases s.run (Grammar.wholeExpression s.andSeparates Nesting.limit) with ⟨cause | n, t⟩
  · dsimp only
    rw [syntaxError?_followedBy]
    cases cause.syntaxError? t.cursor <;> rfl
  · rfl

end Session

end ScriptCheck
