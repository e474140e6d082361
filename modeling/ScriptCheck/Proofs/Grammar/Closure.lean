import ScriptCheck.Proofs.Expression.Ladder
import ScriptCheck.Proofs.Statement.Reading

/-!
# Properties of all rules

What holds of the ways to build rules holds of every rule of the grammar. `Closed Q` asks for one
closure clause for each way to build a rule, and `Closed.ofTier` and `Closed.levels` carry `Q` over
to the grammar, by induction on the budget. The property is one of a rule at a place, so that a
clause may use what is next there.
-/

namespace ScriptCheck

open ScriptCheck.Rule

/-- Whether an error always blames the token that it is made of, and is of a special class that has
nothing to do with nesting. -/
def Blames (error : Token → SyntaxError) : Prop :=
  ∀ t, (error t).token = some t ∧ (error t).line = t.line ∧ (error t).category ≠ .general ∧
    (error t).category ≠ .nestingTooDeep

theorem blames_atToken {category : Category} (hgeneral : category ≠ .general)
    (hdeep : category ≠ .nestingTooDeep) (message : String) (expected : Option Kind)
    (note : Token → Option String) :
    Blames fun t => .atToken category message t expected (note t) :=
  fun _ => ⟨rfl, rfl, hgeneral, hdeep⟩

/-- Whether a property of rules at places is closed under the ways to build rules. -/
structure Closed (Q : (α : Type) → Rule α → Cursor → Prop) : Prop where
  pure : ∀ {α : Type} (a : α) (c : Cursor), Q _ (pure a) c
  bind : ∀ {α β : Type} {r : Rule α} {next : α → Rule β} {c : Cursor}, Q _ r c →
    (∀ a d, r.run c = .done a d → Q _ (next a) d) → Q _ (r >>= next) c
  look : ∀ {β : Type} {next : Token → Rule β} {c : Cursor}, Q _ (next c.peek) c →
    Q _ (peek >>= next) c
  advance : ∀ {c : Cursor}, c.peek.kind ≠ .eof → Q _ advance c
  accept : ∀ {wanted : Kind → Bool} (c : Cursor), wanted .eof = false → Q _ (accept wanted) c
  expect : ∀ {kind : Kind} (message : String) (c : Cursor), kind ≠ .eof →
    Q _ (expect kind message) c
  tooDeep : ∀ {α : Type} (c : Cursor), Q α (fail fun _ => .tooDeep) c
  invalid : ∀ {α : Type} {error : Token → SyntaxError} (c : Cursor), Blames error →
    Q α (invalid error) c
  /-- A number token that denotes no number is found out when it has been taken. -/
  numeral : ∀ {α : Type} {c : Cursor} {fault : Numeral.Fault}, c.peek.kind = .number →
    c.peek.numberValue = .error fault →
    Q α (Rule.advance >>= fun _ => fail fun _ => .numeral fault) c
  insideBlock : ∀ {α : Type} {r : Rule α} {c : Cursor}, Q _ r c → Q _ (insideBlock r) c
  whileNext : ∀ {α : Type} {wanted : Kind → Bool} {step : Token → α → Rule α},
    wanted .eof = false → (∀ t a c, Q _ (step t a) c) → ∀ a c, Q _ (whileNext wanted step a) c
  untilNext : ∀ {α : Type} {stop : Kind → Bool} {item : Rule α}, (∀ c, Q _ item c) →
    ∀ c, Q _ (untilNext stop item) c

/-- Whether a property of rules at places holds of a rule everywhere. -/
def Always (Q : (α : Type) → Rule α → Cursor → Prop) {α : Type} (r : Rule α) : Prop :=
  ∀ c, Q _ r c

namespace Closed

variable {Q : (α : Type) → Rule α → Cursor → Prop} (hQ : Closed Q) {α β : Type} {budget : Nat}

include hQ

theorem always_pure (a : α) : Always Q (Pure.pure a : Rule α) :=
  hQ.pure a

theorem always_bind {r : Rule α} {next : α → Rule β} (hr : Always Q r)
    (hnext : ∀ a, Always Q (next a)) : Always Q (r >>= next) :=
  fun c => hQ.bind (hr c) fun a d _ => hnext a d

theorem always_expect {kind : Kind} (hkind : kind ≠ .eof) (message : String) :
    Always Q (Rule.expect kind message) :=
  fun c => hQ.expect message c hkind

theorem always_unexpected (message : String) (expected : Option Kind) :
    Always Q (Rule.unexpected message expected : Rule α) :=
  fun c => hQ.invalid c (blames_atToken (by decide) (by decide) _ _ _)

theorem always_unlessNext (stop : Kind) {r : Rule α} (hr : Always Q r) :
    Always Q (Rule.unlessNext stop r) := by
  intro c
  refine hQ.look ?_
  split
  · exact hQ.pure _ c
  · exact hQ.always_bind hr (fun a => hQ.always_pure _) c

theorem always_commaSeparated {item : Rule α} (hitem : Always Q item) :
    Always Q (Rule.commaSeparated item) := by
  refine hQ.always_bind hitem fun first => hQ.always_bind ?_ fun read => hQ.always_pure _
  refine hQ.whileNext (by decide) (fun _ read => ?_) _
  exact hQ.always_bind hitem fun a => hQ.always_pure _

theorem always_deeper (way : Nesting) {inner : (rest : Nat) → rest < budget → Rule α}
    (hinner : ∀ rest h, Always Q (inner rest h)) : Always Q (Rule.deeper way budget inner) := by
  intro c
  rw [Rule.deeper]
  split
  · exact hinner _ _ c
  · exact hQ.tooDeep c

/-! ## Expressions -/

theorem primary (ih : ∀ rest < budget, ∀ s, Always Q (Grammar.expression s rest)) :
    Always Q (Grammar.primary budget) := by
  intro c
  rw [Grammar.primary]
  refine hQ.look ?_
  split
  · next hk =>
    cases hv : c.peek.numberValue with
    | ok v => exact hQ.bind (hQ.advance (by simp [hk])) fun _ d _ => hQ.pure _ d
    | error fault => exact hQ.numeral hk hv
  · next hk =>
    refine hQ.bind (hQ.advance (by simp [hk])) fun _ d _ => ?_
    refine hQ.always_bind (hQ.always_deeper _ fun rest h => ih rest h _) (fun inner => ?_) d
    exact hQ.always_bind (hQ.always_expect (by decide) _) fun _ => hQ.always_pure _
  · next hk => exact hQ.bind (hQ.advance (by simp [hk])) fun _ d _ => hQ.pure _ d
  · split
    · next v hv =>
      have hne := Grammar.ne_eof_of_literalValue? hv
      exact hQ.bind (hQ.advance hne) fun _ d _ => hQ.pure _ d
    · exact hQ.invalid c (blames_atToken (by decide) (by decide) _ _ _)

theorem arguments {s : Bool} {rest : Nat} (h : Always Q (Grammar.expression s rest)) :
    Always Q (Grammar.arguments s rest) := by
  rw [Grammar.arguments]
  exact hQ.always_bind (hQ.always_unlessNext _ (hQ.always_commaSeparated h))
    fun _ => hQ.always_pure _

theorem call (ih : ∀ rest < budget, ∀ s, Always Q (Grammar.expression s rest)) :
    Always Q (Grammar.call budget) := by
  rw [Grammar.call_eq]
  refine hQ.always_bind (hQ.primary ih) (hQ.whileNext (by decide) fun opening callee => ?_)
  refine hQ.always_bind (hQ.always_deeper _ fun rest h => hQ.arguments (ih rest h _)) fun _ => ?_
  exact hQ.always_bind (hQ.always_expect (by decide) _) fun _ => hQ.always_pure _

theorem unary (ih : ∀ rest < budget, ∀ s, Always Q (Grammar.expression s rest))
    (ihUnary : ∀ rest < budget, ∀ s, Always Q (Grammar.unary s rest)) (s : Bool) :
    Always Q (Grammar.unary s budget) := by
  rw [Grammar.unary]
  refine hQ.always_bind (fun c => hQ.accept c (by decide)) fun found => ?_
  cases found with
  | some op =>
    exact hQ.always_bind (hQ.always_deeper _ fun rest h => ihUnary rest h s)
      fun _ => hQ.always_pure _
  | none => exact hQ.call ih

theorem infixTier {T : Tier} (hT : T.isInfix = true) {s : Bool}
    (h : Always Q (Grammar.ofTier T.tighter s budget)) : Always Q (Grammar.ofTier T s budget) := by
  rw [Grammar.ofTier_eq_leftFold hT, Grammar.leftFold]
  have heof : T.operators s .eof = false := by
    cases T <;> rfl
  refine hQ.always_bind h fun _ => hQ.whileNext heof (fun op left => ?_) _
  exact hQ.always_bind h fun _ => hQ.always_pure _

theorem assignment (ih : ∀ rest < budget, ∀ s, Always Q (Grammar.assignment s rest)) {s : Bool}
    (h : Always Q (Grammar.ofTier .logicOr s budget)) : Always Q (Grammar.assignment s budget) := by
  rw [Grammar.assignment_eq]
  refine hQ.always_bind h fun target => ?_
  intro c
  unfold Grammar.assignTo
  refine hQ.look ?_
  split
  · next hk =>
    split
    · refine hQ.bind (hQ.advance (by simp [hk])) fun _ d _ => ?_
      exact hQ.always_bind (hQ.always_deeper _ fun rest h => ih rest h s)
        (fun _ => hQ.always_pure _) d
    · exact hQ.invalid c (blames_atToken (by decide) (by decide) _ _ _)
  · exact hQ.pure _ c

theorem ofTier (budget : Nat) : ∀ T s, Always Q (Grammar.ofTier T s budget) := by
  induction budget using Nat.strongRecOn with
  | ind budget ih =>
    have hexpression : ∀ rest < budget, ∀ s, Always Q (Grammar.expression s rest) := by
      intro rest hlt s
      rw [Grammar.expression]
      exact ih rest hlt .assignment s
    intro T s
    induction T using Tier.induct with
    | primary => exact hQ.primary hexpression
    | call _ => exact hQ.call hexpression
    | unary _ => exact hQ.unary hexpression (fun rest hlt s => ih rest hlt .unary s) s
    | operation hT hnext => exact hQ.infixTier hT hnext
    | assignment hor => exact hQ.assignment (fun rest hlt s => ih rest hlt .assignment s) hor

theorem expression (s : Bool) (budget : Nat) : Always Q (Grammar.expression s budget) := by
  rw [Grammar.expression]
  exact hQ.ofTier budget .assignment s

/-! ## Statements -/

theorem skipNewlines : Always Q Grammar.skipNewlines :=
  hQ.whileNext (by decide) (fun _ _ => hQ.always_pure _) ()

theorem endStatement (message : String) : Always Q (Grammar.endStatement message) := by
  rw [Grammar.endStatement]
  refine hQ.always_bind (fun c => hQ.accept c (by decide)) fun found => ?_
  cases found with
  | some _ => exact hQ.always_pure _
  | none =>
    intro c
    refine hQ.look ?_
    split
    · exact hQ.pure _ c
    · exact hQ.always_unexpected _ _ c

/-- What a simple statement is behind the word that it starts with, if it starts with one. -/
theorem simple (s : Bool) (make : Node → Node) (message : String) :
    Always Q (Grammar.expression s budget >>= fun e =>
      Grammar.endStatement message >>= fun _ => (Pure.pure (make e) : Rule Node)) :=
  hQ.always_bind (hQ.expression _ _) fun _ => hQ.always_bind (hQ.endStatement _)
    fun _ => hQ.always_pure _

variable {s : Bool}

theorem forInitializer : Always Q (Grammar.forInitializer s budget) :=
  hQ.always_bind (hQ.expression _ _) fun _ => hQ.always_pure _

theorem block (ih : ∀ rest < budget, Always Q (Grammar.declaration s rest)) :
    Always Q (Grammar.block s budget) := by
  rw [Grammar.block]
  refine hQ.always_bind (hQ.always_expect (by decide) _) fun opening c => hQ.insideBlock ?_
  refine hQ.always_bind hQ.skipNewlines (fun _ => ?_) c
  refine hQ.always_bind (hQ.untilNext ?_) fun body => ?_
  · exact hQ.always_bind (hQ.always_deeper _ fun rest h => ih rest h) fun _ =>
      hQ.always_bind hQ.skipNewlines fun _ => hQ.always_pure _
  · refine hQ.always_bind (fun c => hQ.accept c (by decide)) fun found => ?_
    cases found with
    | some _ => exact hQ.always_pure _
    | none => exact fun c => hQ.invalid c (blames_atToken (by decide) (by decide) _ _ _)

theorem body (ih : ∀ rest < budget, Always Q (Grammar.statement s rest)) :
    Always Q (Rule.deeper .body budget fun rest _ => Grammar.statement s rest) :=
  hQ.always_deeper _ fun rest h => ih rest h

/-! The rules of statements that start with a word take it without looking at it, so they are run at
any place where a token may be taken. -/

section

variable {c : Cursor} (hc : Q _ Rule.advance c)

include hc

theorem functionDeclaration (hblock : Always Q (Grammar.block s budget)) :
    Q _ (Grammar.functionDeclaration s budget) c := by
  rw [Grammar.functionDeclaration]
  refine hQ.bind hc fun start d _ => ?_
  refine hQ.always_bind (hQ.always_expect (by decide) _) (fun name => ?_) d
  refine hQ.always_bind (hQ.always_expect (by decide) _) fun _ => ?_
  have hparameter : Always Q Grammar.parameter :=
    hQ.always_bind (hQ.always_expect (by decide) _) fun _ => hQ.always_pure _
  have hparameters : Always Q Grammar.parameters :=
    hQ.always_bind (hQ.always_unlessNext _ (hQ.always_commaSeparated hparameter))
      fun _ => hQ.always_pure _
  refine hQ.always_bind hparameters fun params => ?_
  refine hQ.always_bind (hQ.always_expect (by decide) _) fun _ => ?_
  refine hQ.always_bind hQ.skipNewlines fun _ c => hQ.look ?_
  split
  · exact hQ.always_bind hblock (fun _ => hQ.always_pure _) c
  · exact hQ.always_unexpected _ _ c

theorem ifStatement (ih : ∀ rest < budget, Always Q (Grammar.statement s rest)) :
    Q _ (Grammar.ifStatement s budget) c := by
  rw [Grammar.ifStatement]
  refine hQ.bind hc fun start d _ => ?_
  refine hQ.always_bind (hQ.expression _ _) (fun condition => ?_) d
  refine hQ.always_bind hQ.skipNewlines fun _ => ?_
  refine hQ.always_bind (hQ.body ih) fun thenBranch => ?_
  refine hQ.always_bind hQ.skipNewlines fun _ => ?_
  refine hQ.always_bind (fun c => hQ.accept c (by decide)) fun found => ?_
  cases found with
  | some _ =>
    refine hQ.always_bind hQ.skipNewlines fun _ => ?_
    exact hQ.always_bind (hQ.body ih) fun _ => hQ.always_pure _
  | none => exact hQ.always_pure _

theorem forStatement (ih : ∀ rest < budget, Always Q (Grammar.statement s rest)) :
    Q _ (Grammar.forStatement s budget) c := by
  rw [Grammar.forStatement]
  refine hQ.bind hc fun start d _ => ?_
  refine hQ.always_bind (hQ.always_expect (by decide) _) (fun _ => ?_) d
  refine hQ.always_bind (hQ.always_unlessNext _ hQ.forInitializer) fun initializer => ?_
  refine hQ.always_bind (hQ.always_expect (by decide) _) fun _ => ?_
  refine hQ.always_bind (hQ.always_unlessNext _ (hQ.expression _ _)) fun condition => ?_
  refine hQ.always_bind (hQ.always_expect (by decide) _) fun _ => ?_
  refine hQ.always_bind (hQ.always_unlessNext _ (hQ.expression _ _)) fun increment => ?_
  refine hQ.always_bind (hQ.always_expect (by decide) _) fun _ => ?_
  refine hQ.always_bind hQ.skipNewlines fun _ => ?_
  exact hQ.always_bind (hQ.body ih) fun _ => hQ.always_pure _

theorem whileStatement (ih : ∀ rest < budget, Always Q (Grammar.statement s rest)) :
    Q _ (Grammar.whileStatement s budget) c := by
  rw [Grammar.whileStatement]
  refine hQ.bind hc fun start d _ => ?_
  refine hQ.always_bind (hQ.always_expect (by decide) _) (fun _ => ?_) d
  refine hQ.always_bind (hQ.expression _ _) fun condition => ?_
  refine hQ.always_bind (hQ.always_expect (by decide) _) fun _ => ?_
  refine hQ.always_bind hQ.skipNewlines fun _ => ?_
  exact hQ.always_bind (hQ.body ih) fun _ => hQ.always_pure _

theorem printStatement : Q _ (Grammar.printStatement s budget) c :=
  hQ.bind hc fun start d _ => hQ.simple s (.print start.line) _ d

theorem returnStatement : Q _ (Grammar.returnStatement s budget) c :=
  hQ.bind hc fun start d _ => hQ.simple s (.return_ start.line) _ d

end

theorem expressionStatement : Always Q (Grammar.expressionStatement s budget) :=
  hQ.simple s (fun e => .expression e.line e) _

theorem statement (ih : ∀ rest < budget, Always Q (Grammar.statement s rest))
    (hblock : Always Q (Grammar.block s budget)) : Always Q (Grammar.statement s budget) := by
  intro c
  rw [Grammar.statement]
  refine hQ.look ?_
  split
  · next hk => exact hQ.ifStatement (hQ.advance (by simp [hk])) ih
  · next hk => exact hQ.forStatement (hQ.advance (by simp [hk])) ih
  · next hk => exact hQ.printStatement (hQ.advance (by simp [hk]))
  · next hk => exact hQ.returnStatement (hQ.advance (by simp [hk]))
  · next hk => exact hQ.whileStatement (hQ.advance (by simp [hk])) ih
  · exact hblock c
  · exact hQ.expressionStatement c

/-- Whether `and` separates or not, declarations, statements and blocks are made of the ways to
build rules. -/
theorem levels (s : Bool) (budget : Nat) :
    Always Q (Grammar.declaration s budget) ∧ Always Q (Grammar.statement s budget) ∧
      Always Q (Grammar.block s budget) := by
  -- What is nested has less of the budget; a statement that is a block has as much as the block.
  induction budget using Nat.strongRecOn with
  | ind budget ih =>
    have hblock := hQ.block fun rest hlt => (ih rest hlt).1
    have hstatement := hQ.statement (fun rest hlt => (ih rest hlt).2.1) hblock
    refine ⟨fun c => ?_, hstatement, hblock⟩
    rw [Grammar.declaration]
    refine hQ.look ?_
    split
    · next hk => exact hQ.functionDeclaration (hQ.advance (by simp [hk])) hblock
    · exact hstatement c

theorem ofLevel (budget : Nat) (L : Level) : Always Q (Grammar.ofLevel L budget) := by
  rcases hQ.levels false budget with ⟨hdeclaration, hstatement, hblock⟩
  cases L with
  | declaration => exact hdeclaration
  | statement => exact hstatement
  | block => exact hblock

/-- What is closed under the ways to build rules holds of declarations. -/
theorem declaration (budget : Nat) : Always Q (Grammar.declaration false budget) :=
  hQ.ofLevel budget .declaration

/-- It holds of expressions that take the whole input, too. -/
theorem wholeExpression (s : Bool) (budget : Nat) :
    Always Q (Grammar.wholeExpression s budget) := by
  rw [Grammar.wholeExpression]
  refine hQ.always_bind hQ.skipNewlines fun _ => hQ.always_bind (hQ.expression _ _) fun e => ?_
  refine hQ.always_bind hQ.skipNewlines fun _ c => hQ.look ?_
  split
  · exact hQ.pure _ c
  · exact hQ.always_unexpected _ _ c

end Closed

end ScriptCheck
