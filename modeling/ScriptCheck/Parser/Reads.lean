import ScriptCheck.Parser.Statement

/-!
# What the parser does and what the grammar says

The actions of the parser change a session as they go: they set the way to read `and` and bring it
back, and they count the blocks that they enter and leave. The rules of the grammar do none of this.
They are told how `and` is read, and a failure tells how many blocks it leaves open. Both come to
the same: every action does to a session what reading with its rule does (`Action.Reads`), so in
particular it leaves the way to read `and` as it was, however it ends.
-/

namespace ScriptCheck

open ScriptCheck.Action

/-- Whether an action does to every session what reading with a rule does. The rule is told how the
session reads `and`. -/
def Action.Reads {α : Type} (m : Action α) (r : (andSeparates : Bool) → Rule α) : Prop :=
  ∀ s, m.run s = s.run (r s.andSeparates)

namespace Action

variable {α β : Type} {m : Action α} {r : Bool → Rule α}

/-! ## Sequences of actions -/

theorem reads_read (r : Rule α) : (read r).Reads fun _ => r :=
  fun _ => rfl

theorem reads_pure (a : α) : (pure a : Action α).Reads fun _ => pure a :=
  fun _ => rfl

theorem reads_bind {next : α → Action β} {next' : α → Bool → Rule β} (hm : m.Reads r)
    (hnext : ∀ a, (next a).Reads (next' a)) :
    (m >>= next).Reads fun b => r b >>= fun a => next' a b := by
  intro s
  rw [run_bind, Session.run_bind, hm s]
  have hsame := Session.andSeparates_run (r s.andSeparates) s
  cases hrun : s.run (r s.andSeparates) with
  | mk result s' =>
    rw [hrun] at hsame
    cases result with
    | ok a =>
      dsimp only at hsame ⊢
      rw [hnext a s', hsame]
    | error cause => rfl

theorem reads_unlessNext (hm : m.Reads r) (stop : Kind) :
    (unlessNext stop m).Reads fun b => Rule.unlessNext stop (r b) := by
  refine reads_bind (reads_read Rule.peek) fun t => ?_
  split
  · exact reads_pure _
  · exact reads_bind hm fun a => reads_pure _

theorem reads_deeper (way : Nesting) (budget : Nat)
    {inner : (rest : Nat) → rest < budget → Action α}
    {inner' : (rest : Nat) → rest < budget → Bool → Rule α}
    (h : ∀ rest hlt, (inner rest hlt).Reads (inner' rest hlt)) :
    (deeper way budget inner).Reads fun b =>
      Rule.deeper way budget fun rest hlt => inner' rest hlt b := by
  unfold deeper Rule.deeper
  split
  · exact h _ _
  · exact reads_read _

/-! ## What is entered and left -/

/-- However an action ends, `and` is then read as it was before: the rule has been told the other
way to read it, and nothing is left of that. -/
theorem reads_during (hm : m.Reads r) (separates : Bool) :
    (during separates m).Reads fun _ => r separates := by
  intro s
  unfold during
  simp only [hm { s with andSeparates := separates }, Session.run]
  cases (r separates).run s.cursor <;> rfl

/-- A block that is closed is as if it had not been entered. A failure finds it open. -/
theorem reads_insideBlock (hm : m.Reads r) :
    (insideBlock m).Reads fun b => Rule.insideBlock (r b) := by
  intro s
  unfold insideBlock
  simp only [hm { s with openBlocks := s.openBlocks + 1 }, Session.run, Rule.insideBlock]
  cases (r s.andSeparates).run s.cursor with
  | done a d => rfl
  | failed failure d =>
    dsimp only
    rw [Nat.add_right_comm, Nat.add_assoc]

/-! ## Repetition -/

/-- One turn of a repetition, and the rest of it. -/
theorem run_whileNext (wanted : Kind → Bool) (step : Token → α → Rule α) (a : α) (s : Session) :
    s.run (Rule.whileNext wanted step a) =
      if s.cursor.atEnd = false ∧ wanted s.cursor.peek.kind = true then
        match { s with cursor := s.cursor.advance }.run (step s.cursor.peek a) with
        | (.ok b, s') => s'.run (Rule.whileNext wanted step b)
        | (.error cause, s') => (.error cause, s')
      else (.ok a, s) := by
  rw [Session.run, Rule.run_whileNext]
  by_cases hgo : s.cursor.atEnd = false ∧ wanted s.cursor.peek.kind = true
  · rw [if_pos hgo, if_pos hgo]
    unfold Session.run
    cases (step s.cursor.peek a).run s.cursor.advance <;> rfl
  · rw [if_neg hgo, if_neg hgo]

theorem reads_whileNext (wanted : Bool → Kind → Bool) {step : Token → α → Action α}
    {step' : Token → α → Bool → Rule α} (hstep : ∀ t a, (step t a).Reads (step' t a)) (a : α) :
    (whileNext wanted step a).Reads fun b =>
      Rule.whileNext (wanted b) (fun t a => step' t a b) a := by
  intro s
  change whileNextFrom wanted step a s = _
  fun_induction whileNextFrom wanted step a s with
  | case1 a s h b s' hrun _ ih =>
    rw [hstep] at hrun
    have hsame := Session.andSeparates_run (step' s.cursor.peek a s.andSeparates)
      { s with cursor := s.cursor.advance }
    dsimp only at hrun hsame
    rw [hrun] at hsame
    rw [run_whileNext, if_pos h, hrun, ih, hsame]
  | case2 a s h cause s' hrun =>
    rw [hstep] at hrun
    dsimp only at hrun
    rw [run_whileNext, if_pos h, hrun]
  | case3 a s h =>
    rw [run_whileNext, if_neg h]

theorem run_untilNextAfter (stop : Kind → Bool) (item : Rule α) (read : Array α) (s : Session) :
    s.run (Rule.untilNextAfter stop item read) =
      if (s.cursor.atEnd || stop s.cursor.peek.kind) = true then (.ok read.toList, s)
      else
        match s.run item with
        | (.ok a, s') =>
          if s.cursor.position < s'.cursor.position then
            s'.run (Rule.untilNextAfter stop item (read.push a))
          else (.ok (read.push a).toList, s')
        | (.error cause, s') => (.error cause, s') := by
  rw [Session.run, Rule.run_untilNextAfter]
  by_cases hstop : (s.cursor.atEnd || stop s.cursor.peek.kind) = true
  · rw [if_pos hstop, if_pos hstop]
  · rw [if_neg hstop, if_neg hstop]
    unfold Session.run
    cases item.run s.cursor with
    | done a d => by_cases hmore : s.cursor.position < d.position <;> simp [hmore]
    | failed failure d => rfl

theorem reads_untilNext (stop : Kind → Bool) (hm : m.Reads r) :
    (untilNext stop m).Reads fun b => Rule.untilNext stop (r b) := by
  have hfrom : ∀ read s, untilNextFrom stop m read s =
      s.run (Rule.untilNextAfter stop (r s.andSeparates) read) := by
    intro read s
    fun_induction untilNextFrom stop m read s with
    | case1 read s hstop => rw [run_untilNextAfter, if_pos hstop]
    | case2 read s hgo a s' hitem hmore _ ih =>
      have hsame := Session.andSeparates_run (r s.andSeparates) s
      rw [hm] at hitem
      rw [hitem] at hsame
      rw [ih, run_untilNextAfter stop _ read, if_neg hgo, hitem]
      dsimp only at hsame ⊢
      rw [if_pos hmore, hsame]
    | case3 read s hgo a s' hitem hmore =>
      rw [hm] at hitem
      rw [run_untilNextAfter, if_neg hgo, hitem]
      dsimp only
      rw [if_neg hmore]
    | case4 read s hgo cause s' hitem =>
      rw [hm] at hitem
      rw [run_untilNextAfter, if_neg hgo, hitem]
  exact hfrom #[]

theorem reads_commaSeparated (hm : m.Reads r) :
    (commaSeparated m).Reads fun b => Rule.commaSeparated (r b) := by
  refine reads_bind hm fun first => reads_bind ?_ fun read => reads_pure _
  exact reads_whileNext _ (fun _ read => reads_bind hm fun a => reads_pure _) _

end Action

namespace Grammar

/-- The clauses of a `for`, without the parentheses around them. -/
def forClauses (andSeparates : Bool) (budget : Nat) :
    Rule (Option Node × Option Node × Option Node) := do
  let initializer ← Rule.unlessNext (.keyword .and_) (forInitializer andSeparates budget)
  let _ ← Rule.expect (.keyword .and_) "expected 'and' after loop initializer"
  let condition ← Rule.unlessNext (.keyword .and_) (expression andSeparates budget)
  let _ ← Rule.expect (.keyword .and_) "expected 'and' after loop condition"
  let increment ← Rule.unlessNext (.operator .rparen) (expression andSeparates budget)
  return (initializer, condition, increment)

/-- A `for` loop with its clauses taken together. -/
theorem forStatement_eq (andSeparates : Bool) (budget : Nat) :
    forStatement andSeparates budget = (do
      let start ← Rule.advance
      let _ ← Rule.expect (.operator .lparen) "expected '(' after 'for'"
      let (initializer, condition, increment) ← forClauses true budget
      let _ ← Rule.expect (.operator .rparen) "expected ')' after for clauses"
      skipNewlines
      let body ← Rule.deeper .body budget fun rest _ => statement andSeparates rest
      return forLoop start.line initializer condition increment body) := by
  rw [forStatement]
  simp only [forClauses, bind_assoc, pure_bind]

end Grammar

namespace Parser

/-! ## Expressions -/

theorem leftFold_reads {operand : Action Node} {rule : Bool → Rule Node} (h : operand.Reads rule)
    (operators : Bool → Kind → Bool) (join : Token → Node → Node → Node) :
    (leftFold operand operators join).Reads fun b =>
      Grammar.leftFold (rule b) (operators b) join := by
  refine reads_bind h fun first => reads_whileNext _ (fun op left => ?_) first
  exact reads_bind h fun right => reads_pure _

mutual

theorem expression_reads (budget : Nat) :
    (expression budget).Reads fun b => Grammar.expression b budget := by
  unfold expression Grammar.expression
  exact assignment_reads budget
termination_by 16 * budget + 11

theorem assignment_reads (budget : Nat) :
    (assignment budget).Reads fun b => Grammar.assignment b budget := by
  unfold assignment Grammar.assignment
  refine reads_bind (logicOr_reads budget) fun target => ?_
  refine reads_bind (reads_read _) fun t => ?_
  split
  · cases target with
    | var line name =>
      refine reads_bind (reads_read _) fun _ => ?_
      exact reads_bind (reads_deeper _ _ fun rest _ => assignment_reads rest) fun _ => reads_pure _
    | _ => exact reads_read _
  · exact reads_pure _
termination_by 16 * budget + 10

theorem logicOr_reads (budget : Nat) :
    (logicOr budget).Reads fun b => Grammar.logicOr b budget := by
  unfold logicOr Grammar.logicOr
  exact leftFold_reads (logicAnd_reads budget) _ _
termination_by 16 * budget + 9

theorem logicAnd_reads (budget : Nat) :
    (logicAnd budget).Reads fun b => Grammar.logicAnd b budget := by
  unfold logicAnd Grammar.logicAnd
  exact leftFold_reads (equality_reads budget) _ _
termination_by 16 * budget + 8

theorem equality_reads (budget : Nat) :
    (equality budget).Reads fun b => Grammar.equality b budget := by
  unfold equality Grammar.equality
  exact leftFold_reads (comparison_reads budget) _ _
termination_by 16 * budget + 7

theorem comparison_reads (budget : Nat) :
    (comparison budget).Reads fun b => Grammar.comparison b budget := by
  unfold comparison Grammar.comparison
  exact leftFold_reads (term_reads budget) _ _
termination_by 16 * budget + 6

theorem term_reads (budget : Nat) : (term budget).Reads fun b => Grammar.term b budget := by
  unfold term Grammar.term
  exact leftFold_reads (factor_reads budget) _ _
termination_by 16 * budget + 5

theorem factor_reads (budget : Nat) : (factor budget).Reads fun b => Grammar.factor b budget := by
  unfold factor Grammar.factor
  exact leftFold_reads (unary_reads budget) _ _
termination_by 16 * budget + 4

theorem unary_reads (budget : Nat) : (unary budget).Reads fun b => Grammar.unary b budget := by
  unfold unary Grammar.unary
  refine reads_bind (reads_read _) fun found => ?_
  cases found with
  | some op =>
    exact reads_bind (reads_deeper _ _ fun rest _ => unary_reads rest) fun _ => reads_pure _
  | none => exact call_reads budget
termination_by 16 * budget + 3

/-- Inside the parentheses of a call the arguments are read as they are by themselves. -/
theorem call_reads (budget : Nat) : (call budget).Reads fun _ => Grammar.call budget := by
  unfold call Grammar.call
  refine reads_bind (primary_reads budget) fun callee => ?_
  refine reads_whileNext _ (fun paren callee => ?_) callee
  have harguments :=
    reads_during (reads_deeper .argument budget fun rest _ => arguments_reads rest) false
  refine reads_bind harguments fun passed => ?_
  exact reads_bind (reads_read _) fun _ => reads_pure _
termination_by 16 * budget + 2

theorem arguments_reads (budget : Nat) :
    (arguments budget).Reads fun b => Grammar.arguments b budget := by
  unfold arguments Grammar.arguments
  refine reads_bind ?_ fun _ => reads_pure _
  exact reads_unlessNext (reads_commaSeparated (expression_reads budget)) _
termination_by 16 * budget + 12

theorem primary_reads (budget : Nat) : (primary budget).Reads fun _ => Grammar.primary budget := by
  unfold primary Grammar.primary
  refine reads_bind (reads_read _) fun t => ?_
  by_cases hnumber : t.kind = .number
  · rw [if_pos hnumber]
    simp only [hnumber]
    refine reads_bind (reads_read _) fun _ => ?_
    cases t.numberValue with
    | ok value => exact reads_pure _
    | error fault => exact reads_read _
  rw [if_neg hnumber]
  by_cases hopens : t.kind = .operator .lparen
  · have hnone : Grammar.literalValue? t = none := by simp [Grammar.literalValue?, hopens]
    simp only [hnone, hopens]
    refine reads_bind (reads_read _) fun _ => ?_
    have hinner :=
      reads_during (reads_deeper .grouping budget fun rest _ => expression_reads rest) false
    refine reads_bind hinner fun inner => ?_
    exact reads_bind (reads_read _) fun _ => reads_pure _
  by_cases hname : t.kind = .ident
  · have hnone : Grammar.literalValue? t = none := by simp [Grammar.literalValue?, hname]
    simp only [hnone, hname]
    exact reads_bind (reads_read _) fun _ => reads_pure _
  rw [if_neg hopens, if_neg hname]
  -- What is left are literals and what starts no expression.
  cases Grammar.literalValue? t with
  | some value =>
    dsimp only
    split
    · contradiction
    · contradiction
    · contradiction
    · exact reads_bind (reads_read _) fun _ => reads_pure _
  | none =>
    dsimp only
    split
    · contradiction
    · contradiction
    · contradiction
    · exact reads_read _
termination_by 16 * budget + 1

end

/-! ## Statements -/

theorem forInitializer_reads (budget : Nat) :
    (forInitializer budget).Reads fun b => Grammar.forInitializer b budget :=
  reads_bind (expression_reads budget) fun _ => reads_pure _

theorem forClauses_reads (budget : Nat) :
    (forClauses budget).Reads fun b => Grammar.forClauses b budget := by
  refine reads_bind (reads_unlessNext (forInitializer_reads budget) _) fun initializer => ?_
  refine reads_bind (reads_read _) fun _ => ?_
  refine reads_bind (reads_unlessNext (expression_reads budget) _) fun condition => ?_
  refine reads_bind (reads_read _) fun _ => ?_
  exact reads_bind (reads_unlessNext (expression_reads budget) _) fun increment => reads_pure _

/-- A word, an expression and the end of the statement. -/
theorem printStatement_reads (budget : Nat) :
    (printStatement budget).Reads fun b => Grammar.printStatement b budget := by
  refine reads_bind (reads_read _) fun start => ?_
  refine reads_bind (expression_reads budget) fun value => ?_
  exact reads_bind (reads_read _) fun _ => reads_pure _

theorem returnStatement_reads (budget : Nat) :
    (returnStatement budget).Reads fun b => Grammar.returnStatement b budget := by
  refine reads_bind (reads_read _) fun start => ?_
  refine reads_bind (expression_reads budget) fun value => ?_
  exact reads_bind (reads_read _) fun _ => reads_pure _

theorem expressionStatement_reads (budget : Nat) :
    (expressionStatement budget).Reads fun b => Grammar.expressionStatement b budget := by
  refine reads_bind (expression_reads budget) fun e => ?_
  exact reads_bind (reads_read _) fun _ => reads_pure _

mutual

theorem declaration_reads (budget : Nat) :
    (declaration budget).Reads fun b => Grammar.declaration b budget := by
  unfold declaration Grammar.declaration
  refine reads_bind (reads_read _) fun t => ?_
  split
  · exact functionDeclaration_reads budget
  · exact statement_reads budget
termination_by 16 * budget + 5

theorem functionDeclaration_reads (budget : Nat) :
    (functionDeclaration budget).Reads fun b => Grammar.functionDeclaration b budget := by
  unfold functionDeclaration Grammar.functionDeclaration
  refine reads_bind (reads_read _) fun start => ?_
  refine reads_bind (reads_read _) fun name => ?_
  refine reads_bind (reads_read _) fun _ => ?_
  refine reads_bind (reads_read _) fun params => ?_
  refine reads_bind (reads_read _) fun _ => ?_
  refine reads_bind (reads_read _) fun _ => ?_
  refine reads_bind (reads_read _) fun t => ?_
  split
  · exact reads_bind (block_reads budget) fun body => reads_pure _
  · exact reads_read _
termination_by 16 * budget + 3

theorem statement_reads (budget : Nat) :
    (statement budget).Reads fun b => Grammar.statement b budget := by
  unfold statement Grammar.statement
  refine reads_bind (reads_read _) fun t => ?_
  split
  · next hk =>
    simp only [hk]
    exact ifStatement_reads budget
  split
  · next hk =>
    simp only [hk]
    exact forStatement_reads budget
  split
  · next hk =>
    simp only [hk]
    exact printStatement_reads budget
  split
  · next hk =>
    simp only [hk]
    exact returnStatement_reads budget
  split
  · next hk =>
    simp only [hk]
    exact whileStatement_reads budget
  split
  · next hk =>
    simp only [hk]
    exact block_reads budget
  -- No word that starts a statement is left.
  split
  all_goals first | contradiction | exact expressionStatement_reads budget
termination_by 16 * budget + 4

theorem ifStatement_reads (budget : Nat) :
    (ifStatement budget).Reads fun b => Grammar.ifStatement b budget := by
  unfold ifStatement Grammar.ifStatement
  refine reads_bind (reads_read _) fun start => ?_
  refine reads_bind (expression_reads budget) fun condition => ?_
  refine reads_bind (reads_read _) fun _ => ?_
  refine reads_bind (reads_deeper _ _ fun rest _ => statement_reads rest) fun thenBranch => ?_
  refine reads_bind (reads_read _) fun _ => ?_
  refine reads_bind (reads_read _) fun found => ?_
  cases found with
  | some _ =>
    refine reads_bind (reads_read _) fun _ => ?_
    refine reads_bind (reads_deeper _ _ fun rest _ => statement_reads rest) fun elseBranch => ?_
    exact reads_pure _
  | none => exact reads_pure _
termination_by 16 * budget + 3

/-- The clauses are read with `and` between them, and the body as what stands around the loop is. -/
theorem forStatement_reads (budget : Nat) :
    (forStatement budget).Reads fun b => Grammar.forStatement b budget := by
  unfold forStatement
  simp only [Grammar.forStatement_eq]
  refine reads_bind (reads_read _) fun start => ?_
  refine reads_bind (reads_read _) fun _ => ?_
  refine reads_bind (reads_during (forClauses_reads budget) true) fun clauses => ?_
  refine reads_bind (reads_read _) fun _ => ?_
  refine reads_bind (reads_read _) fun _ => ?_
  exact reads_bind (reads_deeper _ _ fun rest _ => statement_reads rest) fun body => reads_pure _
termination_by 16 * budget + 3

theorem whileStatement_reads (budget : Nat) :
    (whileStatement budget).Reads fun b => Grammar.whileStatement b budget := by
  unfold whileStatement Grammar.whileStatement
  refine reads_bind (reads_read _) fun start => ?_
  refine reads_bind (reads_read _) fun _ => ?_
  refine reads_bind (expression_reads budget) fun condition => ?_
  refine reads_bind (reads_read _) fun _ => ?_
  refine reads_bind (reads_read _) fun _ => ?_
  exact reads_bind (reads_deeper _ _ fun rest _ => statement_reads rest) fun body => reads_pure _
termination_by 16 * budget + 3

theorem block_reads (budget : Nat) : (block budget).Reads fun b => Grammar.block b budget := by
  unfold block Grammar.block
  refine reads_bind (reads_read _) fun opening => reads_insideBlock ?_
  refine reads_bind (reads_read _) fun _ => ?_
  refine reads_bind (reads_untilNext _ ?_) fun body => ?_
  · refine reads_bind (reads_deeper _ _ fun rest _ => declaration_reads rest) fun d => ?_
    exact reads_bind (reads_read _) fun _ => reads_pure _
  · refine reads_bind (reads_read _) fun found => ?_
    cases found with
    | some _ => exact reads_pure _
    | none => exact reads_read _
termination_by 16 * budget + 2

end

theorem wholeExpression_reads (budget : Nat) :
    (wholeExpression budget).Reads fun b => Grammar.wholeExpression b budget := by
  refine reads_bind (reads_read _) fun _ => ?_
  refine reads_bind (expression_reads budget) fun e => ?_
  refine reads_bind (reads_read _) fun _ => ?_
  refine reads_bind (reads_read _) fun t => ?_
  split
  · exact reads_pure _
  · exact reads_read _

end Parser

end ScriptCheck
