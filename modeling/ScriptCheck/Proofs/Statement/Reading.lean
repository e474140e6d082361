import ScriptCheck.Proofs.Expression.Reading
import ScriptCheck.Proofs.Statement.Forming

/-!
# Statement rules read what tokens form

The rules for declarations, statements and blocks end with a tree exactly when the tokens ahead form
it, and where `Forms` says that it ends. As for expressions there are two directions:
`Grammar.ofLevel_done` by induction on the budget, and `Forms.readAs` by induction on what is
formed, with the nesting accounted for in both.
-/

namespace ScriptCheck

open ScriptCheck.Rule

namespace Grammar

/-- The rule of a level, where `and` is an operator. -/
def ofLevel : Level → (budget : Nat) → Rule Node
  | .declaration => declaration false
  | .statement => statement false
  | .block => block false

/-- What the rules of the simple statements do behind the word in front, if there is one: they read
an expression and the end of the statement. -/
def simple (budget : Nat) (make : Node → Node) (message : String) : Rule Node := do
  let value ← expression false budget
  endStatement message
  return make value

/-- What a block reads again and again: a declaration and the ends of line behind it. -/
def blockItem (budget : Nat) : Rule Node := do
  let d ← deeper .block budget fun rest _ => declaration false rest
  skipNewlines
  return d

/-- What follows the declarations of a block: the word that closes it. -/
def closeBlock (opening : Token) (body : List Node) : Rule Node := do
  match ← accept (· == .keyword .end_) with
  | some _ => return .block opening.line body
  | none => invalid (unterminatedBlock opening)

theorem block_eq (budget : Nat) :
    block false budget = expect (.keyword .do_) "expected 'do' to open block" >>= fun opening =>
      insideBlock (skipNewlines >>= fun _ =>
        untilNext (· == .keyword .end_) (blockItem budget) >>= closeBlock opening) :=
  block.eq_1 false budget

theorem blockItem_takes (budget : Nat) : (blockItem budget).Takes := by
  refine Takes.bind_left ?_ _
  intro c n d h
  rcases deeper_done h with ⟨_, _, hrun⟩
  exact declaration_takes _ _ _ _ _ hrun

/-! ## Ends of line and ends of statements -/

/-- Ends of line are passed, and nothing else. -/
theorem run_skipNewlines (c : Cursor) :
    ∃ d, skipNewlines.run c = .done () d ∧ d.ahead = dropBlank c.ahead := by
  generalize hi : c.ahead = i
  induction i generalizing c with
  | nil =>
    refine ⟨c, ?_, hi⟩
    exact whileNextFrom_stop (by simp [hi]) ()
  | cons t r ih =>
    by_cases ht : t.kind = .eol
    · rcases ih c.advance (Cursor.ahead_advance hi) with ⟨d, hd, hahead⟩
      refine ⟨d, ?_, by rw [hahead, dropBlank_cons_eol ht]⟩
      change whileNextFrom _ _ _ c = _
      rw [whileNextFrom_go hi (by simp [ht])]
      exact hd
    · refine ⟨c, ?_, ?_⟩
      · exact whileNextFrom_stop (by simpa [hi] using ht) ()
      · rw [hi, dropBlank_of_nextKind_ne (by simpa using ht)]

variable {α : Type}

/-- Behind the ends of line, a sequence goes on. -/
theorem run_skipNewlines_bind (next : Unit → Rule α) (c : Cursor) :
    ∃ d, (skipNewlines >>= next).run c = (next ()).run d ∧ d.ahead = dropBlank c.ahead := by
  rcases run_skipNewlines c with ⟨d, hrun, hd⟩
  exact ⟨d, run_bind_of_done hrun _, hd⟩

/-- What ended well behind the ends of line ran from there. -/
theorem skipNewlines_bind_done {next : Unit → Rule α} {c e : Cursor} {a : α}
    (h : (skipNewlines >>= next).run c = .done a e) :
    ∃ d, (next ()).run d = .done a e ∧ d.ahead = dropBlank c.ahead := by
  rcases run_skipNewlines_bind next c with ⟨d, hrun, hd⟩
  exact ⟨d, hrun ▸ h, hd⟩

theorem endStatement_done {message : String} {c d : Cursor} {u : Unit}
    (h : (endStatement message).run c = .done u d) : Terminated c.ahead d.ahead := by
  rw [endStatement] at h
  rcases bind_done h with ⟨found, d₁, hfound, hrest⟩
  rcases accept_done (by decide) hfound with ⟨t, rfl, hc, ht⟩ | ⟨rfl, rfl, -⟩
  · rcases pure_done hrest with ⟨-, rfl⟩
    rw [hc]
    exact .line (by simpa using ht)
  · dsimp only at hrest
    rw [run_peek_bind] at hrest
    split at hrest
    · next hcloses =>
      rcases pure_done hrest with ⟨-, rfl⟩
      rw [Cursor.kind_peek] at hcloses
      exact .closed hcloses
    · simp [unexpected, invalid, fail] at hrest

theorem run_endStatement {i r : List Token} (h : Terminated i r) (message : String) {c : Cursor}
    (hc : c.ahead = i) : ∃ d, d.ahead = r ∧ (endStatement message).run c = .done () d := by
  rw [endStatement]
  cases h with
  | line ht =>
    refine ⟨c.advance, Cursor.ahead_advance hc, ?_⟩
    rw [run_bind_of_done (run_accept_of_true hc (by simp [ht]))]
    rfl
  | closed hcloses =>
    refine ⟨c, hc, ?_⟩
    have hne : (nextKind c.ahead == .eol) = false := by
      rw [hc]
      revert hcloses
      unfold Kind.closesStatement
      split <;> simp_all
    have hno : (accept (· == .eol)).run c = .done none c := run_accept_of_false hne
    rw [run_bind_of_done hno]
    dsimp only
    rw [run_peek_bind, Cursor.kind_peek, hc, if_pos hcloses]
    rfl

/-! ## What is read is formed -/

/-- What a rule that ends with a tree has read: tokens that form it, within the budget. -/
def FormsOf (L : Level) (budget : Nat) : Prop :=
  ∀ c n d, (ofLevel L budget).run c = .done n d →
    ∃ need ≤ budget, Forms L c.ahead d.ahead need n

variable {budget : Nat}

/-- What a block reads in one turn is a declaration, and it goes on behind the ends of line. -/
theorem blockItem_reads (ih : ∀ rest < budget, FormsOf .declaration rest) {c d : Cursor} {n : Node}
    (h : (blockItem budget).run c = .done n d) :
    ∃ need j, Nesting.weight .block + need ≤ budget ∧ Forms .declaration c.ahead j need n ∧
      d.ahead = dropBlank j := by
  rcases bind_done h with ⟨m, d₁, hm, h⟩
  rcases skipNewlines_bind_done h with ⟨d₂, h, hd₂⟩
  rcases pure_done h with ⟨rfl, rfl⟩
  rcases deeper_done hm with ⟨hweight, hlt, hm⟩
  rcases ih _ hlt _ _ _ hm with ⟨need, hneed, hforms⟩
  exact ⟨need, d₁.ahead, by omega, hforms, hd₂⟩

/-- Declarations that a block has read, in front of one more. -/
theorem sequence_next (ih : ∀ rest < budget, FormsOf .declaration rest) {c d e : Cursor}
    {n : Node} {ns : List Node} (h : (blockItem budget).run c = .done n d)
    (hrest : ∃ need ≤ budget, Sequence (Forms .declaration) (nextKind e.ahead)
      (Nesting.weight .block) d.ahead e.ahead need ns) :
    ∃ need ≤ budget, Sequence (Forms .declaration) (nextKind e.ahead)
      (Nesting.weight .block) c.ahead e.ahead need (n :: ns) := by
  rcases blockItem_reads ih h with ⟨a, j, ha, hforms, hd⟩
  rcases hrest with ⟨b, hb, hsequence⟩
  rw [hd] at hsequence
  exact ⟨max (Nesting.weight .block + a) b, by omega, .next hforms hsequence⟩

theorem blockItems_done (ih : ∀ rest < budget, FormsOf .declaration rest) {c d : Cursor}
    {ns : List Node}
    (h : (untilNext (· == .keyword .end_) (blockItem budget)).run c = .done ns d) :
    ∃ need ≤ budget, Sequence (Forms .declaration) (nextKind d.ahead) (Nesting.weight .block)
      c.ahead d.ahead need ns := by
  have hread := untilNextFrom_done
    (R := fun c d ns => ∃ need ≤ budget, Sequence (Forms .declaration) (nextKind d.ahead)
      (Nesting.weight .block) c.ahead d.ahead need ns)
    (blockItem_takes budget) (fun c => ⟨0, Nat.zero_le _, .done rfl⟩)
    (fun _ _ _ _ _ _ _ hitem hrest => sequence_next ih hitem hrest) h
  rcases hread with ⟨read, rfl, hread⟩
  simpa using hread

theorem block_reads (ih : ∀ rest < budget, FormsOf .declaration rest) :
    FormsOf .block budget := by
  intro c n d h
  change (block false budget).run c = .done n d at h
  rw [block_eq] at h
  rcases bind_done h with ⟨opening, d₁, hopening, h⟩
  rcases expect_done (by decide) hopening with ⟨hc, hopen⟩
  rcases skipNewlines_bind_done (insideBlock_done h) with ⟨d₂, h, hd₂⟩
  rcases bind_done h with ⟨ns, d₃, hitems, h⟩
  rcases bind_done h with ⟨found, d₄, hfound, hrest⟩
  rcases accept_done (by decide) hfound with ⟨closing, rfl, hd₃, hclose⟩ | ⟨rfl, rfl, -⟩
  · rcases pure_done hrest with ⟨rfl, rfl⟩
    have hclose : closing.kind = .keyword .end_ := by simpa using hclose
    rcases blockItems_done ih hitems with ⟨need, hneed, hsequence⟩
    rw [hd₂, hd₃, nextKind_cons, hclose] at hsequence
    rw [hc]
    exact ⟨need, hneed, .block hopen hsequence⟩
  · simp [invalid, fail] at hrest

theorem parameter_done {c d : Cursor} {name : String} (h : parameter.run c = .done name d) :
    IsParameter c.ahead d.ahead name := by
  rw [parameter] at h
  rcases bind_done h with ⟨t, d₁, ht, h⟩
  rcases expect_done (by decide) ht with ⟨hc, hkind⟩
  rcases pure_done h with ⟨rfl, rfl⟩
  exact ⟨t, hc, hkind, rfl⟩

theorem parameters_done {c d : Cursor} {names : List String}
    (h : parameters.run c = .done names d) (hclose : nextKind d.ahead = .operator .rparen) :
    Parameters c.ahead d.ahead names := by
  rw [parameters] at h
  rcases bind_done h with ⟨found, d₁, hfound, h⟩
  rcases pure_done h with ⟨rfl, rfl⟩
  rcases unlessNext_done hfound with ⟨rfl, rfl, hstop⟩ | ⟨names, rfl, -, hnames⟩
  · exact .none hstop
  · exact .some hclose (commaSeparated_done (fun _ _ _ h => parameter_done h) hnames)

theorem function_reads (hblock : FormsOf .block budget) {c d : Cursor} {n : Node}
    (hfn : c.peek.kind = .keyword .fn)
    (h : (functionDeclaration false budget).run c = .done n d) :
    ∃ need ≤ budget, Forms .declaration c.ahead d.ahead need n := by
  rcases Cursor.exists_ahead_of_peek hfn (by decide) with ⟨start, r, hc, -, hstart⟩
  rw [functionDeclaration, run_advance_bind hc] at h
  rcases bind_done h with ⟨name, d₁, hname, h⟩
  rcases expect_done (by decide) hname with ⟨hc₁, hname⟩
  rcases bind_done h with ⟨opening, d₂, hopening, h⟩
  rcases expect_done (by decide) hopening with ⟨hd₁, hopen⟩
  rcases bind_done h with ⟨params, d₃, hparams, h⟩
  rcases bind_done h with ⟨closing, d₄, hclosing, h⟩
  rcases expect_done (by decide) hclosing with ⟨hd₃, hclose⟩
  rcases skipNewlines_bind_done h with ⟨d₆, h, hd₆⟩
  rw [run_peek_bind] at h
  split at h
  · -- a body, which has to be a block
    rcases bind_done h with ⟨body, d₇, hbody, h⟩
    rcases pure_done h with ⟨rfl, rfl⟩
    rcases hblock _ _ _ hbody with ⟨need, hneed, hforms⟩
    have hparams := parameters_done hparams (by simp [hd₃, hclose])
    rw [Cursor.ahead_advance hc] at hc₁
    rw [hd₃] at hparams
    rw [hd₆] at hforms
    rw [hc, hc₁, hd₁]
    exact ⟨need, hneed, .function hstart hname hopen hparams hforms⟩
  · simp [unexpected, invalid, fail] at h

theorem expression_reads {s : Bool} {c d : Cursor} {e : Node}
    (h : (expression s budget).run c = .done e d) :
    Spells .assignment s c.ahead d.ahead e ∧ e.nesting ≤ budget ∧
      Tier.assignment.extendedBy s (nextKind d.ahead) = false := by
  rw [expression] at h
  exact ofTier_done budget .assignment s _ _ _ h

theorem simple_reads (make : Node → Node) {message : String} {c d : Cursor} {n : Node}
    (h : (simple budget make message).run c = .done n d) :
    ∃ e j, n = make e ∧ e.nesting ≤ budget ∧ Spells .assignment false c.ahead j e ∧
      Terminated j d.ahead := by
  rw [simple] at h
  rcases bind_done h with ⟨e, d₁, he, h⟩
  rcases bind_done h with ⟨_, d₂, hend, h⟩
  rcases pure_done h with ⟨rfl, rfl⟩
  rcases expression_reads he with ⟨hspells, hnesting, -⟩
  exact ⟨e, d₁.ahead, rfl, hnesting, hspells, endStatement_done hend⟩

/-- A governed statement, behind the ends of line in front of it. -/
theorem body_reads (ih : ∀ rest < budget, FormsOf .statement rest) {c d : Cursor} {n : Node}
    (h : (deeper .body budget fun rest _ => statement false rest).run c = .done n d) :
    ∃ need, Nesting.weight .body + need ≤ budget ∧ Forms .statement c.ahead d.ahead need n := by
  rcases deeper_done h with ⟨hweight, hlt, hrun⟩
  rcases ih _ hlt _ _ _ hrun with ⟨need, hneed, hforms⟩
  exact ⟨need, by omega, hforms⟩

theorem ifStatement_reads (ih : ∀ rest < budget, FormsOf .statement rest) {c d : Cursor} {n : Node}
    (hif : c.peek.kind = .keyword .if_) (h : (ifStatement false budget).run c = .done n d) :
    ∃ need ≤ budget, Forms .statement c.ahead d.ahead need n := by
  rcases Cursor.exists_ahead_of_peek hif (by decide) with ⟨start, r, hc, -, hstart⟩
  rw [ifStatement, run_advance_bind hc] at h
  rcases bind_done h with ⟨e, d₁, he, h⟩
  rcases expression_reads he with ⟨hspells, hnesting, hstop⟩
  rw [Cursor.ahead_advance hc] at hspells
  rcases skipNewlines_bind_done h with ⟨d₂, h, hd₂⟩
  rcases bind_done h with ⟨thenBranch, d₃, hthen, h⟩
  rcases body_reads ih hthen with ⟨a, ha, hthen⟩
  rw [hd₂] at hthen
  rcases skipNewlines_bind_done h with ⟨d₄, h, hd₄⟩
  rcases bind_done h with ⟨found, d₅, hfound, hrest⟩
  rw [hc]
  rcases accept_done (by decide) hfound with ⟨other, rfl, hother, hkind⟩ | ⟨rfl, rfl, hno⟩
  · -- with an else branch
    rcases skipNewlines_bind_done hrest with ⟨d₆, h, hd₆⟩
    rcases bind_done h with ⟨elseBranch, d₇, helse, h⟩
    rcases body_reads ih helse with ⟨b, hb, helse⟩
    rcases pure_done h with ⟨rfl, rfl⟩
    rw [hd₆] at helse
    rw [hd₄] at hother
    exact ⟨_, by omega, .alternative hstart hspells hstop hthen hother (by simpa using hkind) helse⟩
  · -- no else, and the ends of line that were passed to see that stay passed
    rcases pure_done hrest with ⟨rfl, rfl⟩
    rw [hd₄] at hno ⊢
    exact ⟨_, by omega, .conditional hstart hspells hstop hthen (by simpa using hno)⟩

theorem whileStatement_reads (ih : ∀ rest < budget, FormsOf .statement rest) {c d : Cursor}
    {n : Node} (hwhile : c.peek.kind = .keyword .while_)
    (h : (whileStatement false budget).run c = .done n d) :
    ∃ need ≤ budget, Forms .statement c.ahead d.ahead need n := by
  rcases Cursor.exists_ahead_of_peek hwhile (by decide) with ⟨start, r, hc, -, hstart⟩
  rw [whileStatement, run_advance_bind hc] at h
  rcases bind_done h with ⟨opening, d₁, hopening, h⟩
  rcases expect_done (by decide) hopening with ⟨hc₁, hopen⟩
  rw [Cursor.ahead_advance hc] at hc₁
  rcases bind_done h with ⟨e, d₂, he, h⟩
  rcases expression_reads he with ⟨hspells, hnesting, -⟩
  rcases bind_done h with ⟨closing, d₃, hclosing, h⟩
  rcases expect_done (by decide) hclosing with ⟨hd₂, hclose⟩
  rw [hd₂] at hspells
  rcases skipNewlines_bind_done h with ⟨d₄, h, hd₄⟩
  rcases bind_done h with ⟨body, d₅, hbody, h⟩
  rcases body_reads ih hbody with ⟨a, ha, hforms⟩
  rcases pure_done h with ⟨rfl, rfl⟩
  rw [hd₄] at hforms
  rw [hc, hc₁]
  exact ⟨_, by omega, .loop hstart hopen hspells hclose hforms⟩

/-- A clause that is read is there or left out, and the token that ends it is next. -/
theorem clause_reads {stop : Kind} {c d : Cursor} {clause : Option Node}
    (h : (unlessNext stop (expression true budget)).run c = .done clause d)
    (hstop : nextKind d.ahead = stop) :
    Clause stop c.ahead d.ahead clause ∧ Node.clauseNesting clause ≤ budget := by
  rcases unlessNext_done h with ⟨rfl, rfl, hnext⟩ | ⟨e, rfl, -, he⟩
  · exact ⟨.none hnext, Nat.zero_le _⟩
  · rcases expression_reads he with ⟨hspells, hnesting, -⟩
    exact ⟨.some hstop hspells, hnesting⟩

theorem initializer_reads {stop : Kind} {c d : Cursor} {made : Option Node}
    (h : (unlessNext stop (forInitializer true budget)).run c = .done made d)
    (hstop : nextKind d.ahead = stop) :
    ∃ clause, made = clause.map initializerOf ∧ Clause stop c.ahead d.ahead clause ∧
      Node.clauseNesting clause ≤ budget := by
  rcases unlessNext_done h with ⟨rfl, rfl, hnext⟩ | ⟨n, rfl, -, hn⟩
  · exact ⟨none, rfl, .none hnext, Nat.zero_le _⟩
  · rw [forInitializer] at hn
    rcases bind_done hn with ⟨e, d₁, he, hn⟩
    rcases pure_done hn with ⟨rfl, rfl⟩
    rcases expression_reads he with ⟨hspells, hnesting, -⟩
    exact ⟨some e, rfl, .some hstop hspells, hnesting⟩

theorem forStatement_reads (ih : ∀ rest < budget, FormsOf .statement rest) {c d : Cursor}
    {n : Node} (hfor : c.peek.kind = .keyword .for_)
    (h : (forStatement false budget).run c = .done n d) :
    ∃ need ≤ budget, Forms .statement c.ahead d.ahead need n := by
  rcases Cursor.exists_ahead_of_peek hfor (by decide) with ⟨start, r, hc, -, hstart⟩
  rw [forStatement, run_advance_bind hc] at h
  rcases bind_done h with ⟨opening, d₁, hopening, h⟩
  rcases expect_done (by decide) hopening with ⟨hc₁, hopen⟩
  rw [Cursor.ahead_advance hc] at hc₁
  rcases bind_done h with ⟨initializer, d₂, hinitializer, h⟩
  rcases bind_done h with ⟨and₁, d₃, hand₁, h⟩
  rcases expect_done (by decide) hand₁ with ⟨hd₂, hand₁⟩
  rcases bind_done h with ⟨condition, d₄, hcondition, h⟩
  rcases bind_done h with ⟨and₂, d₅, hand₂, h⟩
  rcases expect_done (by decide) hand₂ with ⟨hd₄, hand₂⟩
  rcases bind_done h with ⟨increment, d₆, hincrement, h⟩
  rcases bind_done h with ⟨closing, d₇, hclosing, h⟩
  rcases expect_done (by decide) hclosing with ⟨hd₆, hclose⟩
  rcases skipNewlines_bind_done h with ⟨d₈, h, hd₈⟩
  rcases bind_done h with ⟨body, d₉, hbody, h⟩
  rcases pure_done h with ⟨rfl, rfl⟩
  rcases body_reads ih hbody with ⟨a, ha, hforms⟩
  rcases initializer_reads hinitializer (by simp [hd₂, hand₁]) with ⟨clause, rfl, hclause, hle₁⟩
  rcases clause_reads hcondition (by simp [hd₄, hand₂]) with ⟨hcondition, hle₂⟩
  rcases clause_reads hincrement (by simp [hd₆, hclose]) with ⟨hincrement, hle₃⟩
  -- Each part starts where the one before it ends.
  rw [hd₂] at hclause
  rw [hd₄] at hcondition
  rw [hd₆] at hincrement
  rw [hd₈] at hforms
  rw [hc, hc₁]
  exact ⟨_, by omega, .forLoop hstart hopen hclause hcondition hincrement hforms⟩

theorem statement_reads (ih : ∀ rest < budget, FormsOf .statement rest)
    (hblock : FormsOf .block budget) : FormsOf .statement budget := by
  intro c n d h
  change (statement false budget).run c = .done n d at h
  rw [statement, run_peek_bind] at h
  split at h
  · next hk => exact ifStatement_reads ih hk h
  · next hk => exact forStatement_reads ih hk h
  · -- `print` and `return` are simple statements behind a word
    next hk =>
    rcases Cursor.exists_ahead_of_peek hk (by decide) with ⟨start, r, hc, -, hstart⟩
    rw [printStatement, run_advance_bind hc] at h
    rcases simple_reads (.print start.line) h with ⟨e, j, rfl, hnesting, hspells, hend⟩
    rw [Cursor.ahead_advance hc] at hspells
    rw [hc]
    exact ⟨_, hnesting, .print hstart hspells hend⟩
  · next hk =>
    rcases Cursor.exists_ahead_of_peek hk (by decide) with ⟨start, r, hc, -, hstart⟩
    rw [returnStatement, run_advance_bind hc] at h
    rcases simple_reads (.return_ start.line) h with ⟨e, j, rfl, hnesting, hspells, hend⟩
    rw [Cursor.ahead_advance hc] at hspells
    rw [hc]
    exact ⟨_, hnesting, .return_ hstart hspells hend⟩
  · next hk => exact whileStatement_reads ih hk h
  · rcases hblock _ _ _ h with ⟨need, hneed, hforms⟩
    exact ⟨need, hneed, .blockStatement hforms⟩
  · rw [expressionStatement] at h
    rcases simple_reads (fun e => .expression e.line e) h
      with ⟨e, j, rfl, hnesting, hspells, hend⟩
    exact ⟨_, hnesting, .expression hspells hend⟩

theorem declaration_reads (hblock : FormsOf .block budget)
    (hstatement : FormsOf .statement budget) : FormsOf .declaration budget := by
  intro c n d h
  change (declaration false budget).run c = .done n d at h
  rw [declaration, run_peek_bind] at h
  split at h
  · next hk => exact function_reads hblock hk h
  · rcases hstatement _ _ _ h with ⟨need, hneed, hforms⟩
    exact ⟨need, hneed, .declared hforms⟩

/-- A rule that ends with a tree has read tokens that form it. -/
theorem ofLevel_done (budget : Nat) : ∀ L, FormsOf L budget := by
  induction budget using Nat.strongRecOn with
  | ind budget ih =>
    intro L
    -- A block needs declarations of a smaller budget only, so the levels are taken from the inside.
    have hblock : FormsOf .block budget := block_reads fun rest hlt => ih rest hlt _
    have hstatement : FormsOf .statement budget :=
      statement_reads (fun rest hlt => ih rest hlt _) hblock
    cases L with
    | declaration => exact declaration_reads hblock hstatement
    | statement => exact hstatement
    | block => exact hblock

/-! ## What is formed is read -/

/-- Where the rule of a level ends on tokens that form a tree. -/
def ReadAs (L : Level) (i r : List Token) (need : Nat) (n : Node) : Prop :=
  ∀ (budget : Nat) (c : Cursor), c.ahead = i →
    ((ofLevel L budget).run c).Comes (need ≤ budget) (·.ahead = r) (.done n)

/-- Behind the ends of line, a sequence goes on. -/
theorem skipNewlines_comes {next : Unit → Rule α} {c : Cursor} {fits : Prop} {p : Cursor → Prop}
    {nextO : Cursor → Outcome α}
    (h : ∀ d, d.ahead = dropBlank c.ahead → ((next ()).run d).Comes fits p nextO) :
    ((skipNewlines >>= next).run c).Comes fits p nextO := by
  rcases run_skipNewlines_bind next c with ⟨d, hrun, hd⟩
  rw [hrun]
  exact h d hd

theorem expression_comes (budget : Nat) {s : Bool} {i r : List Token} {e : Node}
    (h : Spells .assignment s i r e) (hstop : Tier.assignment.extendedBy s (nextKind r) = false)
    {c : Cursor} (hc : c.ahead = i) :
    ((expression s budget).run c).Comes (e.nesting ≤ budget) (·.ahead = r) (.done e) := by
  rw [expression]
  exact h.comes hstop budget hc

theorem simple_comes {i j r : List Token} {e : Node} (he : Spells .assignment false i j e)
    (hend : Terminated j r) (make : Node → Node) (message : String) {c : Cursor}
    (hc : c.ahead = i) :
    ((simple budget make message).run c).Comes (e.nesting ≤ budget) (·.ahead = r)
      (.done (make e)) := by
  rw [simple]
  refine (Comes.bind (expression_comes budget he (hend.not_extendedBy _ _) hc) _).step ?_
  intro d hd
  rcases run_endStatement hend message hd with ⟨d', hd', hrun⟩
  exact ⟨d', hd', by rw [run_bind_of_done hrun]; rfl⟩

theorem body_comes {i r : List Token} {a : Nat} {n : Node} (h : ReadAs .statement i r a n)
    {c : Cursor} (hc : c.ahead = i) :
    ((deeper .body budget fun rest _ => statement false rest).run c).Comes
      (Nesting.weight .body + a ≤ budget) (·.ahead = r) (.done n) :=
  deeper_comes fun _ => h _ c hc

/-- What a conditional reads behind its condition, as far as the token where an `else` may stand. -/
theorem thenBranch_comes {j k : List Token} {a : Nat} {n : Node}
    (h : ReadAs .statement (dropBlank j) k a n) {next : Node → Rule Node} {fits : Prop}
    {p : Cursor → Prop} {nextO : Cursor → Outcome Node} {c : Cursor} (hc : c.ahead = j)
    (hnext : ∀ d, d.ahead = dropBlank k → ((next n).run d).Comes fits p nextO) :
    ((skipNewlines >>= fun _ => deeper .body budget (fun rest _ => statement false rest) >>=
      fun m => skipNewlines >>= fun _ => next m).run c).Comes
      (Nesting.weight .body + a ≤ budget ∧ fits) p nextO := by
  refine skipNewlines_comes fun d hd => ?_
  rw [hc] at hd
  refine (Comes.bind (body_comes h hd) _).trans ?_
  intro _ d₁ hd₁
  refine skipNewlines_comes fun d₂ hd₂ => ?_
  exact hnext d₂ (by rw [hd₂, hd₁])

theorem conditional_readAs {i j k : List Token} {a : Nat} {start : Token} {e n : Node}
    (hstart : start.kind = .keyword .if_) (he : Spells .assignment false i j e)
    (hstop : Tier.assignment.extendedBy false (nextKind j) = false)
    (hn : ReadAs .statement (dropBlank j) k a n) (hno : nextKind (dropBlank k) ≠ .keyword .else_) :
    ReadAs .statement (start :: i) (dropBlank k) (max e.nesting (Nesting.weight .body + a))
      (.conditional start.line e n none) := by
  intro budget c hc
  change ((statement false budget).run c).Comes _ _ _
  rw [statement, run_peek_bind, Cursor.peek_of_ahead hc, hstart]
  dsimp only
  rw [ifStatement, run_advance_bind hc]
  have hcondition := expression_comes budget he hstop (Cursor.ahead_advance hc)
  refine ((Comes.bind hcondition _).trans
    (G := Nesting.weight .body + a ≤ budget ∧ True) ?_).congr (by rw [and_true, Nat.max_le])
  intro _ d hd
  refine thenBranch_comes hn hd ?_
  intro d₁ hd₁
  refine .intro trivial hd₁ ?_
  rw [run_bind_of_done (run_accept_of_false (by simpa [hd₁] using hno))]
  rfl

theorem alternative_readAs {i j k l r : List Token} {a b : Nat} {start other : Token}
    {e n m : Node} (hstart : start.kind = .keyword .if_) (he : Spells .assignment false i j e)
    (hstop : Tier.assignment.extendedBy false (nextKind j) = false)
    (hn : ReadAs .statement (dropBlank j) k a n) (hk : dropBlank k = other :: l)
    (hother : other.kind = .keyword .else_) (hm : ReadAs .statement (dropBlank l) r b m) :
    ReadAs .statement (start :: i) r
      (max e.nesting (max (Nesting.weight .body + a) (Nesting.weight .body + b)))
      (.conditional start.line e n (some m)) := by
  intro budget c hc
  change ((statement false budget).run c).Comes _ _ _
  rw [statement, run_peek_bind, Cursor.peek_of_ahead hc, hstart]
  dsimp only
  rw [ifStatement, run_advance_bind hc]
  have hcondition := expression_comes budget he hstop (Cursor.ahead_advance hc)
  refine ((Comes.bind hcondition _).trans
    (G := Nesting.weight .body + a ≤ budget ∧ Nesting.weight .body + b ≤ budget) ?_).congr
    (by rw [Nat.max_le, Nat.max_le])
  intro _ d hd
  refine thenBranch_comes hn hd ?_
  intro d₁ hd₁
  rw [hk] at hd₁
  rw [run_bind_of_done (run_accept_of_true hd₁ (by simp [hother]))]
  refine skipNewlines_comes fun d₂ hd₂ => ?_
  rw [Cursor.ahead_advance hd₁] at hd₂
  exact (Comes.bind (body_comes hm hd₂) _).step fun d₃ hd₃ => ⟨d₃, hd₃, rfl⟩

theorem loop_readAs {i j r : List Token} {a : Nat} {start opening closing : Token} {e n : Node}
    (hstart : start.kind = .keyword .while_) (hopen : opening.kind = .operator .lparen)
    (he : Spells .assignment false i (closing :: j) e) (hclose : closing.kind = .operator .rparen)
    (hn : ReadAs .statement (dropBlank j) r a n) :
    ReadAs .statement (start :: opening :: i) r (max e.nesting (Nesting.weight .body + a))
      (.loop start.line e n) := by
  intro budget c hc
  change ((statement false budget).run c).Comes _ _ _
  rw [statement, run_peek_bind, Cursor.peek_of_ahead hc, hstart]
  dsimp only
  rw [whileStatement, run_advance_bind hc]
  refine expect_comes (Cursor.ahead_advance hc) hopen fun d hd => ?_
  have hcondition := expression_comes budget he (by rw [nextKind_cons, hclose]; rfl) hd
  refine ((Comes.bind hcondition _).trans (G := Nesting.weight .body + a ≤ budget) ?_).congr
    (by rw [Nat.max_le])
  intro _ d₁ hd₁
  refine expect_comes hd₁ hclose fun d₂ hd₂ => skipNewlines_comes fun d₃ hd₃ => ?_
  rw [hd₂] at hd₃
  exact (Comes.bind (body_comes hn hd₃) _).step fun d₄ hd₄ => ⟨d₄, hd₄, rfl⟩

/-- A clause is read up to the token that ends it. -/
theorem clause_comes (budget : Nat) {stop : Kind}
    (hstop : Tier.assignment.extendedBy true stop = false)
    (hstart : stop.startsDeclaration = false) {i r : List Token} {clause : Option Node}
    (h : Clause stop i r clause) (make : Node → α) {item : Rule α}
    (hitem : item = expression true budget >>= fun e => (return make e : Rule α)) {c : Cursor}
    (hc : c.ahead = i) :
    ((unlessNext stop item).run c).Comes (Node.clauseNesting clause ≤ budget) (·.ahead = r)
      (.done (clause.map make)) := by
  cases h with
  | none hnext =>
    refine .intro (Nat.zero_le _) hc ?_
    exact run_unlessNext_of_eq (by rw [hc]; exact hnext) item
  | some hnext he =>
    have hne : nextKind c.ahead ≠ stop := by
      intro heq
      have hstarts := he.startsDeclaration
      rw [← hc, heq, hstart] at hstarts
      exact absurd hstarts (by decide)
    rw [run_unlessNext_of_ne hne, hitem]
    have hread := expression_comes budget he (by rw [hnext]; exact hstop) hc
    have hmade := Comes.bind hread fun e => (return make e : Rule α)
    exact (Comes.bind hmade _).step fun d hd => ⟨d, hd, rfl⟩

theorem forLoop_readAs {i j k l r : List Token} {a : Nat} {start opening and₁ and₂ closing : Token}
    {initializer condition increment : Option Node} {n : Node}
    (hstart : start.kind = .keyword .for_) (hopen : opening.kind = .operator .lparen)
    (hinitializer : Clause (.keyword .and_) i (and₁ :: j) initializer)
    (hand₁ : and₁.kind = .keyword .and_)
    (hcondition : Clause (.keyword .and_) j (and₂ :: k) condition)
    (hand₂ : and₂.kind = .keyword .and_)
    (hincrement : Clause (.operator .rparen) k (closing :: l) increment)
    (hclose : closing.kind = .operator .rparen) (hn : ReadAs .statement (dropBlank l) r a n) :
    ReadAs .statement (start :: opening :: i) r
      (max (Node.clauseNesting initializer) (max (Node.clauseNesting condition)
        (max (Node.clauseNesting increment) (Nesting.weight .body + a))))
      (forLoop start.line (initializer.map initializerOf) condition increment n) := by
  intro budget c hc
  -- The second and the third clause are read as they are, so the item makes nothing of them.
  have hid : ∀ clause : Option Node, clause.map (fun e => e) = clause := fun clause => by simp
  change ((statement false budget).run c).Comes _ _ _
  rw [statement, run_peek_bind, Cursor.peek_of_ahead hc, hstart]
  dsimp only
  rw [forStatement, run_advance_bind hc]
  refine expect_comes (Cursor.ahead_advance hc) hopen fun d hd => ?_
  have hfirst := clause_comes budget (by decide) (by decide) hinitializer initializerOf
    (show forInitializer true budget = _ from rfl) hd
  refine ((Comes.bind hfirst _).trans (G := Node.clauseNesting condition ≤ budget ∧
    Node.clauseNesting increment ≤ budget ∧ Nesting.weight .body + a ≤ budget) ?_).congr
    (by simp only [Nat.max_le])
  intro _ d₁ hd₁
  refine expect_comes hd₁ hand₁ fun d₂ hd₂ => ?_
  have hsecond := clause_comes budget (by decide) (by decide) hcondition (fun e => e)
    (bind_return _) hd₂
  rw [hid] at hsecond
  refine (Comes.bind hsecond _).trans ?_
  intro _ d₃ hd₃
  refine expect_comes hd₃ hand₂ fun d₄ hd₄ => ?_
  have hthird := clause_comes budget (by decide) (by decide) hincrement (fun e => e)
    (bind_return _) hd₄
  rw [hid] at hthird
  refine (Comes.bind hthird _).trans ?_
  intro _ d₅ hd₅
  refine expect_comes hd₅ hclose fun d₆ hd₆ => skipNewlines_comes fun d₇ hd₇ => ?_
  rw [hd₆] at hd₇
  exact (Comes.bind (body_comes hn hd₇) _).step fun d₈ hd₈ => ⟨d₈, hd₈, rfl⟩

theorem blockStatement_readAs {i r : List Token} {a : Nat} {n : Node}
    (hforms : Forms .block i r a n) (h : ReadAs .block i r a n) : ReadAs .statement i r a n := by
  intro budget c hc
  rcases exists_cons_of_nextKind hforms.block_start (by decide) with ⟨t, j, rfl, ht⟩
  change ((statement false budget).run c).Comes _ _ _
  rw [statement, run_peek_bind, Cursor.peek_of_ahead hc, ht]
  exact h budget c hc

/-- Declarations in a block are read one by one, and what comes behind them is read on. -/
theorem blockItems_go (budget : Nat) {stop : Kind} {i r : List Token} {a : Nat} {ns : List Node}
    (h : Sequence (fun i r a n => ∃ _ : Forms .declaration i r a n, ReadAs .declaration i r a n)
      stop (Nesting.weight .block) i r a ns) :
    ∀ (read : Array Node) (c : Cursor), c.ahead = i →
      (untilNextFrom (· == .keyword .end_) (blockItem budget) read c).Comes (a ≤ budget)
        (·.ahead = r)
        (untilNextFrom (· == .keyword .end_) (blockItem budget) (read ++ ns.toArray)) := by
  induction h with
  | done _ =>
    intro read c hc
    exact .intro (Nat.zero_le _) hc (by simp)
  | @next i j r a b n ns hn _ ih =>
    rcases hn with ⟨hforms, hn⟩
    intro read c hc
    have hne : c.ahead ≠ [] := by
      rw [hc]
      exact hforms.spans.ne_nil
    have hstop : (nextKind c.ahead == .keyword .end_) = false := by
      have hstarts := hforms.nextKind_ne (k := .keyword .end_) (by decide)
      simpa [hc] using hstarts
    -- A declaration is read, and the ends of line behind it are passed.
    have hitem : ((blockItem budget).run c).Comes (Nesting.weight .block + a ≤ budget)
        (·.ahead = dropBlank j) (.done n) := by
      have hread : ((deeper .block budget fun rest _ => declaration false rest).run c).Comes
          (Nesting.weight .block + a ≤ budget) (·.ahead = j) (.done n) :=
        deeper_comes fun _ => hn _ c hc
      refine (Comes.bind hread _).andThen fun d hd => skipNewlines_comes fun d₁ hd₁ => ?_
      exact .intro trivial (by rw [hd₁, hd]) rfl
    refine ((untilNextFrom_comes (blockItem_takes budget) hne hstop hitem read).trans
      (G := b ≤ budget) ?_).congr (by rw [Nat.max_le])
    intro _ d hd
    have hread : read.push n ++ ns.toArray = read ++ (n :: ns).toArray := by simp
    rw [← hread]
    exact ih (read.push n) d hd

/-- The declarations of a block are all that is read in front of the word that closes it. -/
theorem blockItems_comes (budget : Nat) {i r : List Token} {a : Nat} {ns : List Node}
    (h : Sequence (fun i r a n => ∃ _ : Forms .declaration i r a n, ReadAs .declaration i r a n)
      (.keyword .end_) (Nesting.weight .block) i r a ns) {c : Cursor} (hc : c.ahead = i) :
    ((untilNext (· == .keyword .end_) (blockItem budget)).run c).Comes (a ≤ budget)
      (·.ahead = r) (.done ns) := by
  refine (blockItems_go budget h #[] c hc).step fun d hd => ⟨d, hd, ?_⟩
  rw [untilNextFrom_stop (Or.inr (by simpa [hd] using h.nextKind_eq))]
  simp

theorem block_readAs {i r : List Token} {a : Nat} {opening closing : Token} {ns : List Node}
    (hopen : opening.kind = .keyword .do_)
    (hns : Sequence (fun i r a n => ∃ _ : Forms .declaration i r a n, ReadAs .declaration i r a n)
      (.keyword .end_) (Nesting.weight .block) (dropBlank i) (closing :: r) a ns) :
    ReadAs .block (opening :: i) r a (.block opening.line ns) := by
  intro budget c hc
  change ((block false budget).run c).Comes _ _ _
  rw [block_eq]
  refine expect_comes hc hopen fun d hd => ?_
  refine insideBlock_comes (skipNewlines_comes fun d₁ hd₁ => ?_)
  rw [hd] at hd₁
  refine (Comes.bind (blockItems_comes budget hns hd₁) _).step fun d₂ hd₂ => ?_
  refine ⟨d₂.advance, Cursor.ahead_advance hd₂, ?_⟩
  have hclose : closing.kind = .keyword .end_ := hns.nextKind_eq
  rw [closeBlock, run_bind_of_done (run_accept_of_true hd₂ (by simp [hclose]))]
  rfl

theorem run_parameter {i r : List Token} {name : String} (h : IsParameter i r name) {c : Cursor}
    (hc : c.ahead = i) : ∃ d, d.ahead = r ∧ parameter.run c = .done name d := by
  rcases h with ⟨t, rfl, hkind, rfl⟩
  refine ⟨c.advance, Cursor.ahead_advance hc, ?_⟩
  rw [parameter, run_bind_of_done (run_expect hc hkind _)]
  rfl

theorem parameters_comes {i r : List Token} {names : List String} (h : Parameters i r names)
    {c : Cursor} (hc : c.ahead = i) :
    (parameters.run c).Comes True (·.ahead = r) (.done names) := by
  rw [parameters]
  cases h with
  | none hclose =>
    rw [run_bind_of_done (run_unlessNext_of_eq (by rw [hc]; exact hclose) _)]
    exact .intro trivial hc rfl
  | some hclose hnames =>
    have hne : nextKind c.ahead ≠ .operator .rparen := by
      rcases hnames.exists_first with ⟨_, _, t, rfl, hkind, -⟩
      simp [hc, hkind]
    have hread : ((commaSeparated parameter).run c).Comes (∀ name ∈ names, True) (·.ahead = r)
        (.done names) := by
      refine commaSeparated_comes (fun _ => True) trivial ?_ hnames trivial
        (by rw [hclose]; decide) hc
      intro i r name hname _ c hc
      rcases run_parameter hname hc with ⟨d, hd, hrun⟩
      exact .intro trivial hd hrun
    rw [run_bind, run_unlessNext_of_ne hne, ← run_bind]
    have hread := hread.congr (G := True) (by simp)
    exact (Comes.bind (Comes.bind hread _) _).step fun d hd => ⟨d, hd, rfl⟩

theorem function_readAs {i j r : List Token} {a : Nat} {start name opening closing : Token}
    {params : List String} {body : Node} (hstart : start.kind = .keyword .fn)
    (hname : name.kind = .ident) (hopen : opening.kind = .operator .lparen)
    (hparams : Parameters i (closing :: j) params) (hclose : closing.kind = .operator .rparen)
    (hforms : Forms .block (dropBlank j) r a body) (hbody : ReadAs .block (dropBlank j) r a body) :
    ReadAs .declaration (start :: name :: opening :: i) r a
      (.function start.line name.text params body) := by
  intro budget c hc
  change ((declaration false budget).run c).Comes _ _ _
  rw [declaration, run_peek_bind, Cursor.peek_of_ahead hc, if_pos hstart]
  rw [functionDeclaration, run_advance_bind hc]
  refine expect_comes (Cursor.ahead_advance hc) hname fun d hd => ?_
  refine expect_comes hd hopen fun d₁ hd₁ => ?_
  refine ((Comes.bind (parameters_comes hparams hd₁) _).trans (G := a ≤ budget) ?_).congr
    (by rw [true_and])
  intro _ d₂ hd₂
  refine expect_comes hd₂ hclose fun d₃ hd₃ => skipNewlines_comes fun d₄ hd₄ => ?_
  rw [hd₃] at hd₄
  rw [run_peek_bind, Cursor.kind_peek, hd₄, if_pos hforms.block_start]
  exact (Comes.bind (hbody budget d₄ hd₄) _).step fun d₅ hd₅ => ⟨d₅, hd₅, rfl⟩

theorem declared_readAs {i r : List Token} {a : Nat} {n : Node} (hforms : Forms .statement i r a n)
    (h : ReadAs .statement i r a n) : ReadAs .declaration i r a n := by
  intro budget c hc
  change ((declaration false budget).run c).Comes _ _ _
  rw [declaration, run_peek_bind, Cursor.kind_peek, hc, if_neg hforms.statement_start]
  exact h budget c hc

theorem print_readAs {i j r : List Token} {start : Token} {e : Node}
    (hstart : start.kind = .keyword .print) (he : Spells .assignment false i j e)
    (hend : Terminated j r) :
    ReadAs .statement (start :: i) r e.nesting (.print start.line e) := by
  intro budget c hc
  change ((statement false budget).run c).Comes _ _ _
  rw [statement, run_peek_bind, Cursor.peek_of_ahead hc, hstart]
  dsimp only
  rw [printStatement, run_advance_bind hc]
  exact simple_comes he hend (.print start.line) _ (Cursor.ahead_advance hc)

theorem return_readAs {i j r : List Token} {start : Token} {e : Node}
    (hstart : start.kind = .keyword .return_) (he : Spells .assignment false i j e)
    (hend : Terminated j r) :
    ReadAs .statement (start :: i) r e.nesting (.return_ start.line e) := by
  intro budget c hc
  change ((statement false budget).run c).Comes _ _ _
  rw [statement, run_peek_bind, Cursor.peek_of_ahead hc, hstart]
  dsimp only
  rw [returnStatement, run_advance_bind hc]
  exact simple_comes he hend (.return_ start.line) _ (Cursor.ahead_advance hc)

/-- Where an expression starts, the rule of statements reads one. -/
theorem run_statement_of_spells {T : Tier} {s : Bool} {i r : List Token} {e : Node}
    (he : Spells T s i r e) {c : Cursor} (hc : c.ahead = i) :
    (statement false budget).run c = (expressionStatement false budget).run c := by
  -- None of the words that other statements start with comes next.
  have hne : ∀ {k : Kind}, k.startsPrimary = false → k.isUnary = false → c.peek.kind ≠ k := by
    intro k hprimary hunary
    rw [Cursor.kind_peek, hc]
    exact he.nextKind_ne hprimary hunary
  rw [statement, run_peek_bind]
  split
  · next hk => exact absurd hk (hne (by decide) (by decide))
  · next hk => exact absurd hk (hne (by decide) (by decide))
  · next hk => exact absurd hk (hne (by decide) (by decide))
  · next hk => exact absurd hk (hne (by decide) (by decide))
  · next hk => exact absurd hk (hne (by decide) (by decide))
  · next hk => exact absurd hk (hne (by decide) (by decide))
  · rfl

theorem expression_readAs {i j r : List Token} {e : Node} (he : Spells .assignment false i j e)
    (hend : Terminated j r) : ReadAs .statement i r e.nesting (.expression e.line e) := by
  intro budget c hc
  change ((statement false budget).run c).Comes _ _ _
  rw [run_statement_of_spells he hc, expressionStatement]
  exact simple_comes he hend (fun e => .expression e.line e) _ hc

end Grammar

open ScriptCheck.Grammar

namespace Forms

/-- The rule of a level ends with whatever the tokens ahead form, where they do. -/
theorem readAs {L : Level} {i r : List Token} {a : Nat} {n : Node} (h : Forms L i r a n) :
    ReadAs L i r a n := by
  induction h using Forms.induct with
  | print hstart he hend => exact print_readAs hstart he hend
  | return_ hstart he hend => exact return_readAs hstart he hend
  | expression he hend => exact expression_readAs he hend
  | conditional hstart he hstop _ hno ih => exact conditional_readAs hstart he hstop ih hno
  | alternative hstart he hstop _ hk hother _ ih ihElse =>
    exact alternative_readAs hstart he hstop ih hk hother ihElse
  | loop hstart hopen he hclose _ ih => exact loop_readAs hstart hopen he hclose ih
  | forLoop hstart hopen hinitializer hcondition hincrement _ ih =>
    exact forLoop_readAs hstart hopen hinitializer hinitializer.nextKind_eq hcondition
      hcondition.nextKind_eq hincrement hincrement.nextKind_eq ih
  | blockStatement hforms ih => exact blockStatement_readAs hforms ih
  | block hopen hns => exact block_readAs hopen hns
  | function hstart hname hopen hparams hforms ih =>
    exact function_readAs hstart hname hopen hparams hparams.nextKind_eq hforms ih
  | declared hforms ih => exact declared_readAs hforms ih

variable {L : Level} {i r r' : List Token} {a a' : Nat} {n n' : Node}

/-- Whatever is formed of the same tokens is formed within the same budget. -/
theorem need_le (hi : ∀ t ∈ i, t.kind ≠ .eof) (h : Forms L i r a n) (h' : Forms L i r' a' n') :
    a' ≤ a ∧ r' = r ∧ n' = n := by
  let c : Cursor :=
    { behind := [], ahead := i, finish := Cursor.endMarker 1, beyond := [], position := 0
      position_eq_length := rfl, ahead_ne_eof := hi, finish_eq_eof := rfl }
  rcases h.readAs a c rfl with ⟨-, d, hd, hrun⟩ | ⟨hno, -⟩
  · rcases h'.readAs a c rfl with ⟨hle, d', hd', hrun'⟩ | ⟨-, failure, d', hrun', -⟩
    · rw [hrun] at hrun'
      cases hrun'
      exact ⟨hle, hd'.symm.trans hd, rfl⟩
    · rw [hrun] at hrun'
      cases hrun'
  · exact absurd (Nat.le_refl a) hno

/-- Tokens form one tree at most, and in front of one place. -/
theorem unique (hi : ∀ t ∈ i, t.kind ≠ .eof) (h : Forms L i r a n) (h' : Forms L i r' a' n') :
    a' = a ∧ r' = r ∧ n' = n := by
  have hle := h.need_le hi h'
  exact ⟨Nat.le_antisymm hle.1 (h'.need_le hi h).1, hle.2⟩

end Forms

end ScriptCheck
