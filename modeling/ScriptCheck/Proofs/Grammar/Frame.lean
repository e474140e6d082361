import ScriptCheck.Proofs.Program.Owed

/-!
# What parsing a construct leaves as it was

The parser sets and brings back the way to read `and` wherever a `for` header, parentheses or an
argument list are read, and it counts the blocks that it enters and leaves. A failure may come up in
the midst of any of these. Whatever it is, the way to read `and` is then what it was in front of the
construct, because each action does to a session what reading with its rule does.

Every rule of the grammar keeps account of the blocks that it enters. One that ends with a value has
left all of them, and one that fails says how many are still open: as many as there are more `do`s
than `end`s among the tokens that it has taken (`Rule.Accounts`). So with every construct that is
parsed, nothing else in a session changes (`Session.run_frame`).
-/

namespace ScriptCheck

open ScriptCheck.Rule

/-- The blocks that an outcome leaves open. -/
def Outcome.unclosed {α : Type} : Outcome α → Nat
  | .done _ _ => 0
  | .failed failure _ => failure.unclosed

/-- Whether a token of the kind neither opens nor closes a block. -/
def Kind.isQuiet (k : Kind) : Bool :=
  k != .keyword .do_ && k != .keyword .end_

theorem Token.isQuiet_of_kind {t : Token} (h : t.kind.isQuiet = true) : t.IsQuiet := by
  simpa [Kind.isQuiet, Token.IsQuiet] using h

theorem Kind.isQuiet_of_isInExpression {k : Kind} (h : k.isInExpression = true) :
    k.isQuiet = true := by
  simpa [Kind.isQuiet, Token.IsQuiet] using
    Token.IsQuiet.of_isInExpression (t := { placeholder with kind := k }) h

theorem Kind.isQuiet_of_beq {kind : Kind} (h : kind.isQuiet = true) :
    ∀ k, (k == kind) = true → k.isQuiet = true := by
  intro k hk
  rwa [eq_of_beq hk]

namespace Rule

variable {α β : Type} {c : Cursor}

/-- Whether a rule keeps account of blocks from a place: the tokens that it takes leave as many
blocks open as its outcome says. -/
def Accounts (r : Rule α) (c : Cursor) : Prop :=
  Opens (r.run c).unclosed c.ahead (r.run c).place.ahead

/-- A rule that is run inside a block and takes the word that closes it: with a value one block
fewer is open, and a failure says how many are open inside. -/
structure Closes (r : Rule α) (c : Cursor) : Prop where
  closed : ∀ a d, r.run c = .done a d → ∀ i k, Opens (k + 1) i c.ahead → Opens k i d.ahead
  failed : ∀ failure d, r.run c = .failed failure d → Opens failure.unclosed c.ahead d.ahead

/-! ## Sequences and single tokens -/

theorem accounts_pure (a : α) (c : Cursor) : (pure a : Rule α).Accounts c :=
  Opens.refl c.ahead

theorem accounts_bind {r : Rule α} {next : α → Rule β} (hr : r.Accounts c)
    (hnext : ∀ a d, r.run c = .done a d → (next a).Accounts d) : (r >>= next).Accounts c := by
  unfold Accounts at hr ⊢
  rw [run_bind]
  cases hrun : r.run c with
  | done a d =>
    rw [hrun] at hr
    exact Opens.through hr (hnext a d hrun)
  | failed failure d =>
    rw [hrun] at hr
    exact hr

theorem accounts_look {next : Token → Rule β} (h : (next c.peek).Accounts c) :
    (peek >>= next).Accounts c :=
  h

theorem accounts_fail (cause : Token → Cause) (c : Cursor) :
    (fail cause : Rule α).Accounts c :=
  Opens.refl c.ahead

theorem accounts_unexpected (message : String) (expected : Option Kind) (c : Cursor) :
    (unexpected message expected : Rule α).Accounts c :=
  accounts_fail (fun t => .invalid (.unexpected message t expected)) c

/-- Taking a token that is no bracket of a block opens none. At the end of the input no token is
taken. -/
theorem opens_advance (h : c.peek.kind.isQuiet = true) : Opens 0 c.ahead c.advance.ahead := by
  cases hc : c.ahead with
  | nil => simpa [Cursor.advance, Cursor.skip, hc] using Opens.refl []
  | cons t r =>
    rw [Cursor.peek_of_ahead hc] at h
    rw [Cursor.ahead_advance hc]
    exact .one (Token.isQuiet_of_kind h) r

theorem accounts_advance (h : c.peek.kind.isQuiet = true) : advance.Accounts c :=
  opens_advance h

theorem accounts_accept {wanted : Kind → Bool} (h : ∀ k, wanted k = true → k.isQuiet = true)
    (c : Cursor) : (accept wanted).Accounts c := by
  unfold Accounts accept
  dsimp only
  split
  · next hwanted => exact opens_advance (h _ hwanted)
  · exact Opens.refl c.ahead

theorem accounts_expect {kind : Kind} (h : kind.isQuiet = true) (message : String) (c : Cursor) :
    (expect kind message).Accounts c := by
  unfold Accounts expect
  dsimp only
  split
  · next hkind => exact opens_advance (hkind ▸ h)
  · exact Opens.refl c.ahead

theorem accounts_unlessNext {r : Rule α} (hr : r.Accounts c) (stop : Kind) :
    (unlessNext stop r).Accounts c := by
  refine accounts_look ?_
  split
  · exact accounts_pure _ c
  · exact accounts_bind hr fun a d _ => accounts_pure _ d

theorem accounts_deeper {way : Nesting} {budget : Nat}
    {inner : (rest : Nat) → rest < budget → Rule α}
    (h : ∀ rest hlt, (inner rest hlt).Accounts c) : (deeper way budget inner).Accounts c := by
  rw [deeper]
  split
  · exact h _ _
  · exact accounts_fail _ c

/-! ## Repetition -/

theorem accounts_whileNext {wanted : Kind → Bool} {step : Token → α → Rule α}
    (hwanted : ∀ k, wanted k = true → k.isQuiet = true) (hstep : ∀ t a c, (step t a).Accounts c)
    (a : α) (c : Cursor) : (whileNext wanted step a).Accounts c := by
  change Opens (whileNextFrom wanted step a c).unclosed c.ahead
    (whileNextFrom wanted step a c).place.ahead
  fun_induction whileNextFrom wanted step a c with
  | case1 a c hgo b d hrun _ ih =>
    have hturn := hstep c.peek a c.advance
    rw [Accounts, hrun] at hturn
    exact (opens_advance (hwanted _ hgo.2)).through (Opens.through hturn ih)
  | case2 a c hgo failure d hrun =>
    have hturn := hstep c.peek a c.advance
    rw [Accounts, hrun] at hturn
    exact (opens_advance (hwanted _ hgo.2)).through hturn
  | case3 a c hstop => exact .refl c.ahead

theorem accounts_untilNext {item : Rule α} (hitem : ∀ c, item.Accounts c) (stop : Kind → Bool)
    (c : Cursor) : (untilNext stop item).Accounts c := by
  have hfrom : ∀ read, Opens (untilNextFrom stop item read c).unclosed c.ahead
      (untilNextFrom stop item read c).place.ahead := by
    intro read
    fun_induction untilNextFrom stop item read c with
    | case1 read c hend => exact .refl c.ahead
    | case2 read c hgo a d hrun hmore _ ih =>
      have hturn := hitem c
      rw [Accounts, hrun] at hturn
      exact Opens.through hturn ih
    | case3 read c hgo a d hrun hmore =>
      have hturn := hitem c
      rwa [Accounts, hrun] at hturn
    | case4 read c hgo failure d hrun =>
      have hturn := hitem c
      rwa [Accounts, hrun] at hturn
  exact hfrom #[]

theorem accounts_commaSeparated {item : Rule α} (hitem : ∀ c, item.Accounts c) (c : Cursor) :
    (commaSeparated item).Accounts c := by
  refine accounts_bind (hitem c) fun first d _ => ?_
  refine accounts_bind (accounts_whileNext ?_ (fun _ read e => ?_) _ d) fun read e _ =>
    accounts_pure _ e
  · exact Kind.isQuiet_of_beq rfl
  · exact accounts_bind (hitem e) fun a e' _ => accounts_pure _ e'

/-! ## Blocks -/

theorem closes_bind {r : Rule α} {next : α → Rule β} (hr : r.Accounts c)
    (hnext : ∀ a d, r.run c = .done a d → (next a).Closes d) : (r >>= next).Closes c := by
  unfold Accounts at hr
  constructor
  · intro b e hrun i k hi
    rcases bind_done hrun with ⟨a, d, hfirst, hrun⟩
    rw [hfirst] at hr
    exact (hnext a d hfirst).closed b e hrun i k (hi.trans hr)
  · intro failure e hrun
    rcases bind_failed hrun with hfirst | ⟨a, d, hfirst, hrun⟩
    · rwa [hfirst] at hr
    · rw [hfirst] at hr
      exact Opens.through hr ((hnext a d hfirst).failed failure e hrun)

/-- A block: the word that opens it, and what closes it. -/
theorem accounts_block {inner : Token → Rule β} (hinner : ∀ opening c, (inner opening).Closes c)
    (message : String) (c : Cursor) :
    (expect (.keyword .do_) message >>= fun opening => insideBlock (inner opening)).Accounts c := by
  cases hrun : (expect (.keyword .do_) message >>= fun opening =>
      insideBlock (inner opening)).run c with
  | done b e =>
    rcases bind_done hrun with ⟨opening, d, hopen, hbody⟩
    rcases expect_done (by decide) hopen with ⟨hc, hkind⟩
    -- The block is the only one open in front of its inside, and that has closed it.
    have hclosed := (hinner opening d).closed b e (insideBlock_done hbody) c.ahead 0
    rw [Accounts, hrun]
    refine hclosed ?_
    rw [hc]
    exact .do_ hkind d.ahead
  | failed failure e =>
    rw [Accounts, hrun]
    rcases bind_failed hrun with hopen | ⟨opening, d, hopen, hbody⟩
    · rcases expect_failed hopen with ⟨rfl, hunclosed, -⟩
      rw [Outcome.unclosed, hunclosed]
      exact .refl e.ahead
    · -- What is left open inside joins the block itself.
      rcases expect_done (by decide) hopen with ⟨hc, hkind⟩
      rcases insideBlock_failed hbody with ⟨inside, hinside, -, hunclosed⟩
      have hopens := (Opens.do_ hkind d.ahead).trans ((hinner opening d).failed inside e hinside)
      rw [Outcome.unclosed, hunclosed, hc, Nat.add_comm]
      exact hopens

end Rule

namespace Grammar

variable {budget : Nat} {s : Bool}

/-! ## Expressions -/

theorem primary_accounts (ih : ∀ rest < budget, ∀ s c, (expression s rest).Accounts c)
    (c : Cursor) : (primary budget).Accounts c := by
  rw [primary]
  refine accounts_look ?_
  split
  · next hk =>
    refine accounts_bind (accounts_advance (by rw [hk]; rfl)) fun _ d _ => ?_
    split
    · exact accounts_pure _ d
    · exact accounts_fail _ d
  · next hk =>
    refine accounts_bind (accounts_advance (by rw [hk]; rfl)) fun _ d _ => ?_
    refine accounts_bind (accounts_deeper fun rest hlt => ih rest hlt false d) fun inner d' _ => ?_
    exact accounts_bind (accounts_expect rfl _ d') fun _ e _ => accounts_pure _ e
  · next hk =>
    exact accounts_bind (accounts_advance (by rw [hk]; rfl)) fun _ d _ => accounts_pure _ d
  · split
    · next v hv =>
      have hquiet := Kind.isQuiet_of_isInExpression
        (Kind.isInExpression_of_startsPrimary (Spells.startsPrimary_of_literalValue? hv))
      exact accounts_bind (accounts_advance hquiet) fun _ d _ => accounts_pure _ d
    · exact accounts_fail _ c

theorem arguments_accounts (h : ∀ c, (expression s budget).Accounts c) (c : Cursor) :
    (arguments s budget).Accounts c := by
  rw [arguments]
  exact accounts_bind (accounts_unlessNext (accounts_commaSeparated h c) _)
    fun _ d _ => accounts_pure _ d

theorem passArguments_accounts (ih : ∀ rest < budget, ∀ s c, (expression s rest).Accounts c)
    (opening : Token) (callee : Node) (c : Cursor) :
    (passArguments budget opening callee).Accounts c := by
  refine accounts_bind (accounts_deeper fun rest hlt =>
    arguments_accounts (ih rest hlt false) c) fun passed d _ => ?_
  exact accounts_bind (accounts_expect rfl _ d) fun _ e _ => accounts_pure _ e

theorem call_accounts (ih : ∀ rest < budget, ∀ s c, (expression s rest).Accounts c) (c : Cursor)
    (h : (primary budget).Accounts c) : (call budget).Accounts c := by
  rw [call_eq]
  exact accounts_bind h fun callee d _ =>
    accounts_whileNext (Kind.isQuiet_of_beq rfl) (passArguments_accounts ih) _ d

theorem unary_accounts (ih : ∀ rest < budget, ∀ c, (unary s rest).Accounts c)
    (h : ∀ c, (call budget).Accounts c) (c : Cursor) : (unary s budget).Accounts c := by
  rw [unary]
  have hunary : ∀ k : Kind, k.isUnary = true → k.isQuiet = true := fun k hk =>
    Kind.isQuiet_of_isInExpression (Kind.isInExpression_of_isUnary hk)
  refine accounts_bind (accounts_accept hunary c) fun found d _ => ?_
  cases found with
  | some op =>
    exact accounts_bind (accounts_deeper fun rest hlt => ih rest hlt d)
      fun _ e _ => accounts_pure _ e
  | none => exact h d

theorem infixTier_accounts {T : Tier} (hT : T.isInfix = true)
    (h : ∀ c, (ofTier T.tighter s budget).Accounts c) (c : Cursor) :
    (ofTier T s budget).Accounts c := by
  rw [ofTier_eq_leftFold hT, leftFold]
  refine accounts_bind (h c) fun first d _ => accounts_whileNext ?_ (fun op left e => ?_) _ d
  · intro k hk
    exact Kind.isQuiet_of_isInExpression (Kind.isInExpression_of_operators hT hk)
  · exact accounts_bind (h e) fun right e' _ => accounts_pure _ e'

theorem assignment_accounts (ih : ∀ rest < budget, ∀ c, (assignment s rest).Accounts c)
    (c : Cursor) (h : (logicOr s budget).Accounts c) : (assignment s budget).Accounts c := by
  rw [assignment_eq]
  refine accounts_bind h fun target d _ => ?_
  unfold assignTo
  refine accounts_look ?_
  split
  · next hk =>
    split
    · refine accounts_bind (accounts_advance (by rw [hk]; rfl)) fun _ e _ => ?_
      exact accounts_bind (accounts_deeper fun rest hlt => ih rest hlt e)
        fun _ e' _ => accounts_pure _ e'
    · exact accounts_fail _ d
  · exact accounts_pure _ d

/-- Expressions of all tiers keep account. -/
theorem ofTier_accounts (budget : Nat) : ∀ T s c, (ofTier T s budget).Accounts c := by
  induction budget using Nat.strongRecOn with
  | ind budget ih =>
    have hexpression : ∀ rest < budget, ∀ s c, (expression s rest).Accounts c := by
      intro rest hlt s
      rw [expression]
      exact ih rest hlt .assignment s
    intro T s
    induction T using Tier.induct with
    | primary => exact primary_accounts hexpression
    | call hprimary => exact fun c => call_accounts hexpression c (hprimary c)
    | unary hcall => exact unary_accounts (fun rest hlt => ih rest hlt .unary s) hcall
    | operation hT hnext => exact infixTier_accounts hT hnext
    | assignment hor =>
      exact fun c => assignment_accounts (fun rest hlt => ih rest hlt .assignment s) c (hor c)

theorem expression_accounts (s : Bool) (budget : Nat) (c : Cursor) :
    (expression s budget).Accounts c := by
  rw [expression]
  exact ofTier_accounts budget .assignment s c

/-! ## Statements -/

theorem skipNewlines_accounts (c : Cursor) : skipNewlines.Accounts c := by
  exact accounts_whileNext (Kind.isQuiet_of_beq rfl) (fun _ _ d => accounts_pure _ d) () c

theorem endStatement_accounts (message : String) (c : Cursor) :
    (endStatement message).Accounts c := by
  rw [endStatement]
  refine accounts_bind (accounts_accept (Kind.isQuiet_of_beq rfl) c) fun found d _ => ?_
  cases found with
  | some _ => exact accounts_pure _ d
  | none =>
    refine accounts_look ?_
    split
    · exact accounts_pure _ d
    · exact accounts_unexpected _ _ d

theorem parameters_accounts (c : Cursor) : parameters.Accounts c := by
  have hparameter : ∀ c, parameter.Accounts c := fun c =>
    accounts_bind (accounts_expect rfl _ c) fun _ d _ => accounts_pure _ d
  exact accounts_bind (accounts_unlessNext (accounts_commaSeparated hparameter c) _)
    fun _ d _ => accounts_pure _ d

/-- An expression and the end of the statement, and what they make. -/
theorem simple_accounts (message : String) (make : Node → Node) (c : Cursor) :
    (do
      let value ← expression s budget
      endStatement message
      return make value : Rule Node).Accounts c :=
  accounts_bind (expression_accounts s budget c) fun _ d _ =>
    accounts_bind (endStatement_accounts message d) fun _ e _ => accounts_pure _ e

theorem closeBlock_closes (opening : Token) (body : List Node) (c : Cursor) :
    (closeBlock opening body).Closes c := by
  unfold closeBlock
  constructor
  · intro n e hrun i k hi
    rcases bind_done hrun with ⟨found, d, hfound, hrest⟩
    rcases accept_done (by decide) hfound with ⟨t, rfl, hc, hend⟩ | ⟨rfl, -, -⟩
    · rcases pure_done hrest with ⟨-, rfl⟩
      rw [hc] at hi
      exact hi.close (eq_of_beq hend)
    · cases hrest
  · intro failure e hrun
    rcases bind_failed hrun with hfound | ⟨found, d, hfound, hrest⟩
    · exact absurd hfound accept_ne_failed
    · rcases accept_done (by decide) hfound with ⟨t, rfl, -, -⟩ | ⟨rfl, rfl, -⟩
      · exact absurd hrest pure_ne_failed
      · rcases invalid_failed hrest with ⟨rfl, hunclosed⟩
        rw [hunclosed]
        exact .refl e.ahead

theorem block_accounts (ih : ∀ rest < budget, ∀ c, (declaration s rest).Accounts c) (c : Cursor) :
    (block s budget).Accounts c := by
  rw [block]
  refine accounts_block (fun opening d => ?_) _ c
  refine closes_bind (skipNewlines_accounts d) fun _ e _ => ?_
  refine closes_bind (accounts_untilNext (fun c => ?_) _ e) fun body e' _ =>
    closeBlock_closes opening body e'
  refine accounts_bind (accounts_deeper fun rest hlt => ih rest hlt c) fun n d _ => ?_
  exact accounts_bind (skipNewlines_accounts d) fun _ d' _ => accounts_pure _ d'

theorem body_accounts (ih : ∀ rest < budget, ∀ c, (statement s rest).Accounts c) (c : Cursor) :
    (deeper .body budget fun rest _ => statement s rest).Accounts c :=
  accounts_deeper fun rest hlt => ih rest hlt c

/-- What a rule does behind the word that it starts with decides whether it keeps account. -/
theorem functionDeclaration_accounts (hblock : ∀ c, (block s budget).Accounts c) {c : Cursor}
    (hc : c.peek.kind.isQuiet = true) : (functionDeclaration s budget).Accounts c := by
  rw [functionDeclaration]
  refine accounts_bind (accounts_advance hc) fun start d _ => ?_
  refine accounts_bind (accounts_expect rfl _ d) fun name d _ => ?_
  refine accounts_bind (accounts_expect rfl _ d) fun _ d _ => ?_
  refine accounts_bind (parameters_accounts d) fun params d _ => ?_
  refine accounts_bind (accounts_expect rfl _ d) fun _ d _ => ?_
  refine accounts_bind (skipNewlines_accounts d) fun _ d _ => accounts_look ?_
  split
  · exact accounts_bind (hblock d) fun _ e _ => accounts_pure _ e
  · exact accounts_unexpected _ _ d

theorem ifStatement_accounts (ih : ∀ rest < budget, ∀ c, (statement s rest).Accounts c)
    {c : Cursor} (hc : c.peek.kind.isQuiet = true) : (ifStatement s budget).Accounts c := by
  rw [ifStatement]
  refine accounts_bind (accounts_advance hc) fun start d _ => ?_
  refine accounts_bind (expression_accounts s budget d) fun condition d _ => ?_
  refine accounts_bind (skipNewlines_accounts d) fun _ d _ => ?_
  refine accounts_bind (body_accounts ih d) fun thenBranch d _ => ?_
  refine accounts_bind (skipNewlines_accounts d) fun _ d _ => ?_
  refine accounts_bind (accounts_accept (Kind.isQuiet_of_beq rfl) d) fun found d _ => ?_
  cases found with
  | some _ =>
    refine accounts_bind (skipNewlines_accounts d) fun _ d _ => ?_
    exact accounts_bind (body_accounts ih d) fun _ e _ => accounts_pure _ e
  | none => exact accounts_pure _ d

theorem forStatement_accounts (ih : ∀ rest < budget, ∀ c, (statement s rest).Accounts c)
    {c : Cursor} (hc : c.peek.kind.isQuiet = true) : (forStatement s budget).Accounts c := by
  rw [forStatement]
  have hinitializer : ∀ c, (forInitializer true budget).Accounts c := fun c =>
    accounts_bind (expression_accounts true budget c) fun _ d _ => accounts_pure _ d
  refine accounts_bind (accounts_advance hc) fun start d _ => ?_
  refine accounts_bind (accounts_expect rfl _ d) fun _ d _ => ?_
  refine accounts_bind (accounts_unlessNext (hinitializer d) _) fun initializer d _ => ?_
  refine accounts_bind (accounts_expect rfl _ d) fun _ d _ => ?_
  refine accounts_bind (accounts_unlessNext (expression_accounts true budget d) _)
    fun condition d _ => ?_
  refine accounts_bind (accounts_expect rfl _ d) fun _ d _ => ?_
  refine accounts_bind (accounts_unlessNext (expression_accounts true budget d) _)
    fun increment d _ => ?_
  refine accounts_bind (accounts_expect rfl _ d) fun _ d _ => ?_
  refine accounts_bind (skipNewlines_accounts d) fun _ d _ => ?_
  exact accounts_bind (body_accounts ih d) fun _ e _ => accounts_pure _ e

theorem whileStatement_accounts (ih : ∀ rest < budget, ∀ c, (statement s rest).Accounts c)
    {c : Cursor} (hc : c.peek.kind.isQuiet = true) : (whileStatement s budget).Accounts c := by
  rw [whileStatement]
  refine accounts_bind (accounts_advance hc) fun start d _ => ?_
  refine accounts_bind (accounts_expect rfl _ d) fun _ d _ => ?_
  refine accounts_bind (expression_accounts s budget d) fun condition d _ => ?_
  refine accounts_bind (accounts_expect rfl _ d) fun _ d _ => ?_
  refine accounts_bind (skipNewlines_accounts d) fun _ d _ => ?_
  exact accounts_bind (body_accounts ih d) fun _ e _ => accounts_pure _ e

theorem statement_accounts (ih : ∀ rest < budget, ∀ c, (statement s rest).Accounts c)
    (hblock : ∀ c, (block s budget).Accounts c) (c : Cursor) :
    (statement s budget).Accounts c := by
  rw [statement]
  refine accounts_look ?_
  split
  · next hk => exact ifStatement_accounts ih (by rw [hk]; rfl)
  · next hk => exact forStatement_accounts ih (by rw [hk]; rfl)
  · next hk =>
    exact accounts_bind (accounts_advance (by rw [hk]; rfl)) fun start d _ =>
      simple_accounts _ (.print start.line) d
  · next hk =>
    exact accounts_bind (accounts_advance (by rw [hk]; rfl)) fun start d _ =>
      simple_accounts _ (.return_ start.line) d
  · next hk => exact whileStatement_accounts ih (by rw [hk]; rfl)
  · exact hblock c
  · exact simple_accounts _ (fun e => .expression e.line e) c

/-- Declarations, statements and blocks keep account. -/
theorem levels_account (s : Bool) (budget : Nat) : ∀ c,
    (declaration s budget).Accounts c ∧ (statement s budget).Accounts c ∧
      (block s budget).Accounts c := by
  -- What is nested has less of the budget; a statement that is a block has as much as the block.
  induction budget using Nat.strongRecOn with
  | ind budget ih =>
    have hblock : ∀ c, (block s budget).Accounts c :=
      block_accounts fun rest hlt c => (ih rest hlt c).1
    have hstatement : ∀ c, (statement s budget).Accounts c :=
      statement_accounts (fun rest hlt c => (ih rest hlt c).2.1) hblock
    refine fun c => ⟨?_, hstatement c, hblock c⟩
    rw [declaration]
    refine accounts_look ?_
    split
    · next hk => exact functionDeclaration_accounts hblock (by rw [hk]; rfl)
    · exact hstatement c

end Grammar

/-! ## Constructs -/

namespace Parser

/-- The action of the parser for a tier. -/
def ofTier : Tier → (budget : Nat) → Action Node
  | .assignment => assignment
  | .logicOr => logicOr
  | .logicAnd => logicAnd
  | .equality => equality
  | .comparison => comparison
  | .term => term
  | .factor => factor
  | .unary => unary
  | .call => call
  | .primary => primary

theorem ofTier_reads (T : Tier) (budget : Nat) :
    (ofTier T budget).Reads fun andSeparates => Grammar.ofTier T andSeparates budget := by
  cases T with
  | assignment => exact assignment_reads budget
  | logicOr => exact logicOr_reads budget
  | logicAnd => exact logicAnd_reads budget
  | equality => exact equality_reads budget
  | comparison => exact comparison_reads budget
  | term => exact term_reads budget
  | factor => exact factor_reads budget
  | unary => exact unary_reads budget
  | call => exact call_reads budget
  | primary => exact primary_reads budget

end Parser

namespace Grammar

/-- The constructs that the grammar has rules for, by the type of what the rules give. -/
inductive Construct : Type → Type where
  | declaration : Construct Node
  | function : Construct Node
  | statement : Construct Node
  | conditional : Construct Node
  | forLoop : Construct Node
  | whileLoop : Construct Node
  | block : Construct Node
  | expression : Construct Node
  | tier (T : Tier) : Construct Node
  | arguments : Construct (List Node)

namespace Construct

variable {α : Type}

/-- The rule of a construct. -/
def rule : Construct α → (andSeparates : Bool) → (budget : Nat) → Rule α
  | declaration => Grammar.declaration
  | function => functionDeclaration
  | statement => Grammar.statement
  | conditional => ifStatement
  | forLoop => forStatement
  | whileLoop => whileStatement
  | block => Grammar.block
  | expression => Grammar.expression
  | tier T => ofTier T
  | arguments => Grammar.arguments

/-- What the parser does to read a construct. -/
def action : Construct α → (budget : Nat) → Action α
  | declaration => Parser.declaration
  | function => Parser.functionDeclaration
  | statement => Parser.statement
  | conditional => Parser.ifStatement
  | forLoop => Parser.forStatement
  | whileLoop => Parser.whileStatement
  | block => Parser.block
  | expression => Parser.expression
  | tier T => Parser.ofTier T
  | arguments => Parser.arguments

/-- It does to a session what reading with the rule of the construct does. -/
theorem action_reads (part : Construct α) (budget : Nat) :
    (part.action budget).Reads fun andSeparates => part.rule andSeparates budget := by
  cases part with
  | declaration => exact Parser.declaration_reads budget
  | function => exact Parser.functionDeclaration_reads budget
  | statement => exact Parser.statement_reads budget
  | conditional => exact Parser.ifStatement_reads budget
  | forLoop => exact Parser.forStatement_reads budget
  | whileLoop => exact Parser.whileStatement_reads budget
  | block => exact Parser.block_reads budget
  | expression => exact Parser.expression_reads budget
  | tier T => exact Parser.ofTier_reads T budget
  | arguments => exact Parser.arguments_reads budget

/-- The word that a rule takes without looking at it. -/
def word? : Construct α → Option Keyword
  | function => some .fn
  | conditional => some .if_
  | forLoop => some .for_
  | whileLoop => some .while_
  | _ => none

/-- Whether the rule of a construct is read in front of a token of the kind: those that take a word
without looking at it are read in front of that word only. -/
def isReadAt (part : Construct α) (k : Kind) : Bool :=
  part.word?.all fun w => k == .keyword w

theorem rule_accounts (part : Construct α) (s : Bool) (budget : Nat) {c : Cursor}
    (h : part.isReadAt c.peek.kind = true) : (part.rule s budget).Accounts c := by
  have hstatement : ∀ rest < budget, ∀ c, (Grammar.statement s rest).Accounts c :=
    fun rest _ c => (levels_account s rest c).2.1
  have hword : ∀ w, part.word? = some w → (Kind.keyword w).isQuiet = true →
      c.peek.kind.isQuiet = true := by
    intro w hw hquiet
    rw [isReadAt, hw, Option.all_some, beq_iff_eq] at h
    rwa [h]
  cases part with
  | declaration => exact (levels_account s budget c).1
  | function =>
    exact functionDeclaration_accounts (fun c => (levels_account s budget c).2.2) (hword _ rfl rfl)
  | statement => exact (levels_account s budget c).2.1
  | conditional => exact ifStatement_accounts hstatement (hword _ rfl rfl)
  | forLoop => exact forStatement_accounts hstatement (hword _ rfl rfl)
  | whileLoop => exact whileStatement_accounts hstatement (hword _ rfl rfl)
  | block => exact (levels_account s budget c).2.2
  | expression => exact expression_accounts s budget c
  | tier T => exact ofTier_accounts budget T s c
  | arguments => exact arguments_accounts (expression_accounts s budget) c

end Construct

end Grammar

/-! ## Sessions -/

/-- The tokens from one place up to another. -/
def Cursor.between (c d : Cursor) : List Token :=
  (c.tokens.take d.position).drop c.position

/-- What a movement passes is what lies between the places. -/
theorem Cursor.Reaches.ahead_eq_between {c d : Cursor} (h : c.Reaches d) :
    c.ahead = c.between d ++ d.ahead := by
  rcases h.suffix with ⟨w, hw⟩
  have hbehind := h.behind_eq hw.symm
  have htokens : c.tokens = d.behind.reverse ++ (d.ahead ++ c.finish :: c.beyond) := by
    rw [tokens, hbehind, ← hw]
    simp
  rw [between, htokens, d.position_eq_length, List.take_left' (by simp), hbehind,
    c.position_eq_length, List.drop_left' (by simp), hw]

/-- However many blocks are open in front of tokens, if they are enough for the `end`s, the number
of those behind the tokens is a matter of counting. -/
theorem blockDepth_add_countKind {w : List Token} {start : Nat}
    (h : Session.countKind (.keyword .end_) w ≤ start) :
    blockDepth start w + Session.countKind (.keyword .end_) w =
      start + Session.countKind (.keyword .do_) w := by
  induction w generalizing start with
  | nil => rfl
  | cons t w ih =>
    rw [Session.countKind_cons] at h
    rw [blockDepth_cons, Session.countKind_cons, Session.countKind_cons, stepDepth]
    by_cases hdo : t.kind = .keyword .do_
    · simp only [hdo, if_true, reduceCtorEq, if_false, Kind.keyword.injEq] at h ⊢
      have hle : Session.countKind (.keyword .end_) w ≤ start + 1 := by omega
      have hrest := ih hle
      omega
    · by_cases hend : t.kind = .keyword .end_
      · simp only [hend, if_true, reduceCtorEq, if_false, Kind.keyword.injEq] at h ⊢
        have hle : Session.countKind (.keyword .end_) w ≤ start - 1 := by omega
        have hrest := ih hle
        omega
      · simp only [hdo, hend, if_false] at h ⊢
        exact ih h

/-- Tokens that leave blocks open hold as many `do`s more than `end`s. -/
theorem Opens.countKind_eq {k : Nat} {w r : List Token} (h : Opens k (w ++ r) r) :
    Session.countKind (.keyword .do_) w = Session.countKind (.keyword .end_) w + k := by
  rcases h with ⟨v, hv, hdepth⟩
  obtain rfl := List.append_cancel_right hv
  have hcount := blockDepth_add_countKind (Nat.le_refl (Session.countKind (.keyword .end_) w))
  rw [hdepth] at hcount
  omega

namespace Session

/-- Whether nothing but the place and the open blocks differs between two sessions. -/
structure Frames (s s' : Session) : Prop where
  andSeparates : s'.andSeparates = s.andSeparates
  pendingEnds : s'.pendingEnds = s.pendingEnds
  reporter : s'.reporter = s.reporter
  failFast : s'.failFast = s.failFast
  log : s'.log = s.log

theorem frames_run {α : Type} (r : Rule α) (s : Session) : s.Frames (s.run r).2 := by
  unfold run
  split <;> exact ⟨rfl, rfl, rfl, rfl, rfl⟩

/-- What does no more than reading with a rule leaves a session as reading does, however it ends. -/
theorem frames_of_reads {α : Type} {m : Action α} {r : Bool → Rule α} (h : m.Reads r)
    (s : Session) : s.Frames (m.run s).2 := by
  rw [h]
  exact frames_run _ s

/-- Parsing a construct changes nothing in a session but the place and, if it fails, the number of
open blocks, whatever the failure is: that number grows by what the `do`s among the tokens taken are
more than the `end`s. In a construct that is parsed to its end there are as many of both. -/
theorem run_frame {α : Type} (part : Grammar.Construct α) (budget : Nat) (s : Session)
    (h : part.isReadAt s.cursor.peek.kind = true) :
    match (part.action budget).run s with
    | (.ok _, s') =>
      s.Frames s' ∧ s'.openBlocks = s.openBlocks ∧
        countKind (.keyword .do_) (s.cursor.between s'.cursor) =
          countKind (.keyword .end_) (s.cursor.between s'.cursor)
    | (.error _, s') =>
      let opened := countKind (.keyword .do_) (s.cursor.between s'.cursor)
      let closed := countKind (.keyword .end_) (s.cursor.between s'.cursor)
      s.Frames s' ∧ closed ≤ opened ∧ s'.openBlocks = s.openBlocks + (opened - closed) := by
  have hframes := frames_of_reads (part.action_reads budget) s
  have haccounts := part.rule_accounts s.andSeparates budget h
  have hforward := (part.rule s.andSeparates budget).forward s.cursor
  unfold Rule.Accounts at haccounts
  rw [part.action_reads budget s] at hframes ⊢
  unfold run at hframes ⊢
  cases hrun : (part.rule s.andSeparates budget).run s.cursor with
  | done a d =>
    rw [hrun] at haccounts hforward hframes
    rw [hforward.ahead_eq_between] at haccounts
    exact ⟨hframes, rfl, haccounts.countKind_eq⟩
  | failed failure d =>
    rw [hrun] at haccounts hforward hframes
    rw [hforward.ahead_eq_between] at haccounts
    have hcount := haccounts.countKind_eq
    refine ⟨hframes, ?_, ?_⟩
    · exact hcount ▸ Nat.le_add_right _ _
    · change s.openBlocks + failure.unclosed = _
      rw [show failure.unclosed = _ from (Nat.sub_eq_of_eq_add' hcount).symm]
      rfl

/-- With two blocks open and one `end` owed, a block follows in which a `for` header breaks inside
parentheses: `do do end for (i and (`. -/
def brokenHeader : Session where
  cursor := .ofTokens [Keyword.do_.token, Keyword.do_.token, Keyword.end_.token,
    Keyword.for_.token, Operator.lparen.token, Keyword.nil.token, Keyword.and_.token,
    Operator.lparen.token]
  openBlocks := 2
  pendingEnds := 1

/-- Of the two blocks one is still open, and `and` separates no more. -/
theorem run_frame_brokenHeader :
    Grammar.Construct.block.isReadAt brokenHeader.cursor.peek.kind = true ∧
      ∃ cause s', (Parser.block Nesting.limit).run brokenHeader = (.error cause, s') ∧
        brokenHeader.Frames s' ∧ s'.openBlocks = 3 := by
  have hframe := run_frame .block Nesting.limit brokenHeader rfl
  have hfails : ((Parser.block Nesting.limit).run brokenHeader).1.isOk = false := by
    decide +kernel
  have hposition : ((Parser.block Nesting.limit).run brokenHeader).2.cursor.position = 8 := by
    decide +kernel
  have haction : Grammar.Construct.block.action Nesting.limit = Parser.block Nesting.limit := rfl
  rw [haction] at hframe
  refine ⟨rfl, ?_⟩
  cases hrun : (Parser.block Nesting.limit).run brokenHeader with
  | mk result s' =>
    rw [hrun] at hframe hfails hposition
    cases result with
    | ok n => cases hfails
    | error cause =>
      rcases hframe with ⟨hsame, -, hopen⟩
      refine ⟨cause, s', rfl, hsame, ?_⟩
      dsimp only at hposition
      rw [Cursor.between, hposition] at hopen
      exact hopen

end Session

end ScriptCheck
