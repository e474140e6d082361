import ScriptCheck.Proofs.Grammar.Closure

/-!
# The budget decides only whether the nesting is too deep

A rule that is read with less of the nesting budget ends as it does with more, value, failure and
place included, or else it gives up because the nesting is too deep. `Rule.Below` says so of two
rules; every way to build rules keeps it, and so it holds of the rules of the grammar with any two
budgets (`Grammar.ofLevel_below`).
-/

namespace ScriptCheck

open ScriptCheck.Rule

namespace Rule

variable {α β : Type}

/-- Wherever it is read, the rule `r` ends as `r'` does, unless it finds the nesting too deep. -/
def Below (r r' : Rule α) : Prop :=
  ∀ c, (r.run c).TooDeep ∨ r.run c = r'.run c

namespace Below

theorem refl (r : Rule α) : Below r r :=
  fun _ => Or.inr rfl

section

variable {r r' : Rule α} (h : Below r r')

include h

/-- What a rule ends with, it ends with on a greater budget. -/
theorem done {c d : Cursor} {a : α} (hrun : r.run c = .done a d) : r'.run c = .done a d := by
  rcases h c with ⟨failure, e, hfailed, -⟩ | hsame
  · rw [hrun] at hfailed
    cases hfailed
  · rw [← hsame, hrun]

/-- It fails there as it does here, or it fails here because the budget is too small. -/
theorem failed {c d : Cursor} {failure : Failure} (hrun : r.run c = .failed failure d) :
    failure.cause = .tooDeep ∨ r'.run c = .failed failure d := by
  rcases h c with ⟨failure', e, hfailed, hcause⟩ | hsame
  · rw [hrun] at hfailed
    cases hfailed
    exact Or.inl hcause
  · right
    rw [← hsame, hrun]

/-! ## The ways to build rules -/

theorem bind {next next' : α → Rule β} (hnext : ∀ a, Below (next a) (next' a)) :
    Below (r >>= next) (r' >>= next') := by
  intro c
  rw [run_bind, run_bind]
  cases hrun : r.run c with
  | done a d =>
    rw [h.done hrun]
    exact hnext a d
  | failed failure d =>
    rcases h.failed hrun with hcause | hrun'
    · exact Or.inl ⟨failure, d, rfl, hcause⟩
    · rw [hrun']
      exact Or.inr rfl

theorem before (next : α → Rule β) : Below (r >>= next) (r' >>= next) :=
  h.bind fun a => refl (next a)

theorem insideBlock : Below (Rule.insideBlock r) (Rule.insideBlock r') := by
  intro c
  simp only [Rule.insideBlock]
  rcases h c with ⟨failure, d, hrun, hcause⟩ | hsame
  · rw [hrun]
    exact Or.inl ⟨_, d, rfl, hcause⟩
  · rw [hsame]
    exact Or.inr rfl

theorem untilNext (stop : Kind → Bool) :
    Below (Rule.untilNext stop r) (Rule.untilNext stop r') := by
  intro c
  change (untilNextFrom stop r #[] c).TooDeep ∨
    untilNextFrom stop r #[] c = untilNextFrom stop r' #[] c
  generalize (#[] : Array α) = read
  fun_induction untilNextFrom stop r read c with
  | case1 read c hend =>
    rw [untilNextFrom, if_pos hend]
    exact Or.inr rfl
  | case2 read c hgo a d hrun _ hlt ih =>
    rcases untilNextFrom_goesOn hgo with ⟨hne, hstop⟩
    rw [untilNextFrom_go hne hstop (h.done hrun) hlt]
    exact ih
  | case3 read c hgo a d hrun hmore =>
    -- The item has taken nothing, so neither repetition goes on.
    rcases untilNextFrom_goesOn hgo with ⟨hne, hstop⟩
    have hsame : ¬ d.remaining < c.remaining := fun hlt => hmore ((position_lt_iff hrun).mpr hlt)
    rw [untilNextFrom_last hne hstop (h.done hrun) hsame]
    exact Or.inr rfl
  | case4 read c hgo failure d hrun =>
    rcases h.failed hrun with hcause | hrun'
    · exact Or.inl ⟨failure, d, rfl, hcause⟩
    · rcases untilNextFrom_goesOn hgo with ⟨hne, hstop⟩
      rw [untilNextFrom_failed hne hstop hrun']
      exact Or.inr rfl

end

/-- Behind a rule that does not depend on the budget, only what follows does. -/
theorem behind (r : Rule α) {next next' : α → Rule β} (hnext : ∀ a, Below (next a) (next' a)) :
    Below (r >>= next) (r >>= next') :=
  (refl r).bind hnext

theorem ite {p : Prop} [Decidable p] {r r' q q' : Rule α} (hr : Below r r') (hq : Below q q') :
    Below (if p then r else q) (if p then r' else q') := by
  split
  · exact hr
  · exact hq

theorem unlessNext (stop : Kind) {r r' : Rule α} (h : Below r r') :
    Below (Rule.unlessNext stop r) (Rule.unlessNext stop r') :=
  behind peek fun _ => ite (refl _) (h.before _)

theorem whileNext (wanted : Kind → Bool) {step step' : Token → α → Rule α}
    (h : ∀ t a, Below (step t a) (step' t a)) (a : α) :
    Below (Rule.whileNext wanted step a) (Rule.whileNext wanted step' a) := by
  intro c
  change (whileNextFrom wanted step a c).TooDeep ∨
    whileNextFrom wanted step a c = whileNextFrom wanted step' a c
  fun_induction whileNextFrom wanted step a c with
  | case1 a c hgo b d hrun _ ih =>
    rcases Cursor.exists_ahead_of_atEnd hgo.1 with ⟨t, r, hc⟩
    rw [Cursor.peek_of_ahead hc] at hgo hrun
    rw [whileNextFrom_go hc hgo.2 a, (h t a).done hrun]
    exact ih
  | case2 a c hgo failure d hrun =>
    rcases Cursor.exists_ahead_of_atEnd hgo.1 with ⟨t, r, hc⟩
    rw [Cursor.peek_of_ahead hc] at hgo hrun
    rcases (h t a).failed hrun with hcause | hrun'
    · exact Or.inl ⟨failure, d, rfl, hcause⟩
    · rw [whileNextFrom_go hc hgo.2 a, hrun']
      exact Or.inr rfl
  | case3 a c hstop =>
    rw [whileNextFrom, dif_neg hstop]
    exact Or.inr rfl

theorem commaSeparated {item item' : Rule α} (h : Below item item') :
    Below (Rule.commaSeparated item) (Rule.commaSeparated item') :=
  h.bind fun _ => (whileNext _ (fun _ _ => h.before _) _).before _

/-- What stands inside something is read with what is left of either budget. -/
theorem deeper (way : Nesting) {budget budget' : Nat} (hle : budget ≤ budget')
    {inner : (rest : Nat) → rest < budget → Rule α}
    {inner' : (rest : Nat) → rest < budget' → Rule α}
    (h : ∀ rest rest' hrest hrest', rest ≤ rest' → Below (inner rest hrest) (inner' rest' hrest')) :
    Below (Rule.deeper way budget inner) (Rule.deeper way budget' inner') := by
  by_cases hfits : way.weight ≤ budget
  · rw [Rule.deeper, Rule.deeper, dif_pos hfits, dif_pos (Nat.le_trans hfits hle)]
    exact h _ _ _ _ (Nat.sub_le_sub_right hle _)
  · -- The smaller budget does not allow it, whatever the greater one does.
    intro c
    rw [Rule.deeper, dif_neg hfits]
    exact Or.inl ⟨_, c, rfl, rfl⟩

end Below

end Rule

namespace Grammar

/-! ## Expressions -/

/-- Whether the rules of the ladder, read with `budget`, end as they do with any greater one. -/
def TiersBelow (budget : Nat) : Prop :=
  ∀ T s budget', budget ≤ budget' → Below (ofTier T s budget) (ofTier T s budget')

section

variable {budget budget' : Nat} (ih : ∀ rest < budget, TiersBelow rest) (hle : budget ≤ budget')

theorem expression_below_of {rest rest' : Nat} (h : TiersBelow rest) (hle : rest ≤ rest')
    (s : Bool) : Below (expression s rest) (expression s rest') := by
  rw [expression, expression]
  exact h .assignment s rest' hle

include ih hle

theorem primary_below : Below (primary budget) (primary budget') := by
  rw [primary, primary]
  refine .behind _ fun t => ?_
  split
  · exact .refl _
  · have hinner : Below (deeper .grouping budget fun rest _ => expression false rest)
        (deeper .grouping budget' fun rest _ => expression false rest) :=
      .deeper _ hle fun rest _ hrest _ hle => expression_below_of (ih rest hrest) hle false
    exact .behind _ fun _ => hinner.before _
  · exact .refl _
  · exact .refl _

theorem call_below : Below (call budget) (call budget') := by
  rw [call_eq, call_eq]
  refine (primary_below ih hle).bind (.whileNext _ fun opening callee => Below.before ?_ _)
  refine .deeper _ hle fun rest rest' hrest _ hle => ?_
  rw [arguments, arguments]
  have hargument := expression_below_of (ih rest hrest) hle false
  exact (Below.unlessNext _ hargument.commaSeparated).before _

theorem unary_below (s : Bool) : Below (unary s budget) (unary s budget') := by
  rw [unary, unary]
  refine .behind _ fun found => ?_
  cases found with
  | some op =>
    have hoperand : Below (deeper .operand budget fun rest _ => unary s rest)
        (deeper .operand budget' fun rest _ => unary s rest) :=
      .deeper _ hle fun rest rest' hrest _ hle => ih rest hrest .unary s rest' hle
    exact hoperand.before _
  | none => exact call_below ih hle

omit ih hle in
theorem infix_below {T : Tier} (hT : T.isInfix = true) {s : Bool}
    (h : Below (ofTier T.tighter s budget) (ofTier T.tighter s budget')) :
    Below (ofTier T s budget) (ofTier T s budget') := by
  rw [ofTier_eq_leftFold hT, ofTier_eq_leftFold hT]
  exact h.bind (.whileNext _ fun _ _ => h.before _)

theorem assignment_below {s : Bool}
    (h : Below (ofTier .logicOr s budget) (ofTier .logicOr s budget')) :
    Below (assignment s budget) (assignment s budget') := by
  rw [assignment_eq, assignment_eq]
  refine h.bind fun target => .behind _ fun t => .ite ?_ (.refl _)
  cases target with
  | var line name =>
    have hvalue : Below (deeper .assigned budget fun rest _ => assignment s rest)
        (deeper .assigned budget' fun rest _ => assignment s rest) :=
      .deeper _ hle fun rest rest' hrest _ hle => ih rest hrest .assignment s rest' hle
    exact .behind _ fun _ => hvalue.before _
  | _ => exact .refl _

end

/-- Read with less of the budget, an expression is the same or nested too deeply. -/
theorem ofTier_below (budget : Nat) : TiersBelow budget := by
  induction budget using Nat.strongRecOn with
  | ind budget ih =>
    -- What stands inside something is read with a smaller budget, and what has no brackets around
    -- it belongs to a tighter tier.
    intro T s budget' hle
    induction T using Tier.induct with
    | primary => exact primary_below ih hle
    | call _ => exact call_below ih hle
    | unary _ => exact unary_below ih hle s
    | operation hT hnext => exact infix_below hT hnext
    | assignment hor => exact assignment_below ih hle hor

theorem expression_below {budget budget' : Nat} (hle : budget ≤ budget') (s : Bool) :
    Below (expression s budget) (expression s budget') :=
  expression_below_of (ofTier_below budget) hle s

/-! ## Statements -/

/-- The same of the rules of all levels. -/
def LevelsBelow (budget : Nat) : Prop :=
  ∀ L budget', budget ≤ budget' → Below (ofLevel L budget) (ofLevel L budget')

section

variable {budget budget' : Nat} (ih : ∀ rest < budget, LevelsBelow rest) (hle : budget ≤ budget')

theorem simple_below (hle : budget ≤ budget') (make : Node → Node) (message : String) :
    Below (simple budget make message) (simple budget' make message) :=
  (expression_below hle false).before _

include ih hle

theorem body_below : Below (deeper .body budget fun rest _ => statement false rest)
    (deeper .body budget' fun rest _ => statement false rest) :=
  .deeper _ hle fun rest rest' hrest _ hle => ih rest hrest .statement rest' hle

theorem block_below : Below (block false budget) (block false budget') := by
  rw [block_eq, block_eq]
  have hitem : Below (blockItem budget) (blockItem budget') := by
    refine Below.before ?_ _
    exact .deeper _ hle fun rest rest' hrest _ hle => ih rest hrest .declaration rest' hle
  exact .behind _ fun _ => Below.insideBlock (.behind _ fun _ => (hitem.untilNext _).before _)

theorem functionDeclaration_below :
    Below (functionDeclaration false budget) (functionDeclaration false budget') := by
  rw [functionDeclaration, functionDeclaration]
  refine .behind _ fun _ => .behind _ fun _ => .behind _ fun _ => .behind _ fun _ => ?_
  refine .behind _ fun _ => .behind _ fun _ => .behind _ fun _ => .ite ?_ (.refl _)
  exact (block_below ih hle).before _

theorem ifStatement_below :
    Below (ifStatement false budget) (ifStatement false budget') := by
  rw [ifStatement, ifStatement]
  refine .behind _ fun _ => (expression_below hle false).bind fun _ => .behind _ fun _ => ?_
  refine (body_below ih hle).bind fun _ => .behind _ fun _ => .behind _ fun found => ?_
  cases found with
  | some _ => exact .behind _ fun _ => (body_below ih hle).before _
  | none => exact .refl _

theorem forStatement_below :
    Below (forStatement false budget) (forStatement false budget') := by
  rw [forStatement, forStatement]
  have hclause := expression_below hle true
  have hinitializer : Below (forInitializer true budget) (forInitializer true budget') :=
    hclause.before _
  refine .behind _ fun _ => .behind _ fun _ => ?_
  refine (Below.unlessNext _ hinitializer).bind fun _ => .behind _ fun _ => ?_
  refine (Below.unlessNext _ hclause).bind fun _ => .behind _ fun _ => ?_
  refine (Below.unlessNext _ hclause).bind fun _ => .behind _ fun _ => .behind _ fun _ => ?_
  exact (body_below ih hle).before _

theorem whileStatement_below :
    Below (whileStatement false budget) (whileStatement false budget') := by
  rw [whileStatement, whileStatement]
  refine .behind _ fun _ => .behind _ fun _ => (expression_below hle false).bind fun _ => ?_
  exact .behind _ fun _ => .behind _ fun _ => (body_below ih hle).before _

theorem statement_below : Below (statement false budget) (statement false budget') := by
  rw [statement, statement]
  refine .behind _ fun t => ?_
  split
  · exact ifStatement_below ih hle
  · exact forStatement_below ih hle
  · exact .behind _ fun start => simple_below hle (.print start.line) _
  · exact .behind _ fun start => simple_below hle (.return_ start.line) _
  · exact whileStatement_below ih hle
  · exact block_below ih hle
  · exact simple_below hle (fun e => .expression e.line e) _

end

/-- Read with less of the budget, a declaration, a statement or a block ends as it does with more,
unless the nesting is too deep. -/
theorem ofLevel_below (budget : Nat) : LevelsBelow budget := by
  induction budget using Nat.strongRecOn with
  | ind budget ih =>
    intro L budget' hle
    cases L with
    | declaration =>
      change Below (declaration false budget) (declaration false budget')
      rw [declaration, declaration]
      exact .behind _ fun _ =>
        .ite (functionDeclaration_below ih hle) (statement_below ih hle)
    | statement => exact statement_below ih hle
    | block => exact block_below ih hle

end Grammar

end ScriptCheck
