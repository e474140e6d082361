import ScriptCheck.Proofs.Reading.Mirroring
import ScriptCheck.Proofs.Statement.Reading

/-!
# The grammar where the same comes

Every rule of the grammar goes the same way at two places where the same comes, and makes trees that
are related if the lines of the tokens are (`Grammar.mirrors_ofTier`, `Grammar.mirrors_ofLevel`). A
statement may end behind an end of line, so there the second place may be one of them behind; every
rule that goes on from a statement passes over ends of line first (`Grammar.mirrors_skipNewlines`).
-/

namespace ScriptCheck.Grammar

open ScriptCheck.Rule

variable {L : Int → Int → Prop} {R : Node → Node → Prop} {budget : Nat} {c c' : Cursor}

/-- Whether a rule goes the same way wherever the same comes. -/
def Consistent (L : Int → Int → Prop) (R : Node → Node → Prop) (r : Rule Node) : Prop :=
  r.Mirrors L R (Cursor.Abreast L) r

/-- Whether a rule goes the same way wherever the same comes, but may end one end of line behind. -/
def ConsistentToLine (L : Int → Int → Prop) (R : Node → Node → Prop) (r : Rule Node) : Prop :=
  r.Mirrors L R (Cursor.Trails L) r

theorem literalValue?_eq {t t' : Token} (h : t.Like L t') : literalValue? t' = literalValue? t := by
  rw [literalValue?, literalValue?, h.kind_eq, h.literal_eq, h.text_eq]

/-- The value of a literal token agrees with itself. -/
theorem agrees_self_of_literalValue? {t t' : Token} (h : t.Like L t') {v : Literal}
    (hv : literalValue? t = some v) : v.agrees v = true := by
  unfold literalValue? at hv
  split at hv
  · cases hliteral : t.literal with
    | none =>
      rw [hliteral] at hv
      cases hv
      simp [Literal.agrees]
    | some v' =>
      obtain rfl : v' = v := by simpa [hliteral] using hv
      exact h.agrees_self v' hliteral
  · cases hv
    rfl
  · cases hv
    rfl
  · cases hv
    rfl
  · cases hv

theorem mirrors_arguments {rest : Nat} (h : Consistent L R (expression false rest)) :
    (arguments false rest).Mirrors L (List.Forall₂ R) (Cursor.Abreast L)
      (arguments false rest) := by
  intro c c' hc
  rw [arguments]
  refine mirrors_bind (mirrors_unlessNext hc _ (mirrors_commaSeparated h)) ?_
  intro found found' d d' hfound hd
  refine mirrors_pure ?_ hd
  cases hfound with
  | none => exact .nil
  | some hes => exact hes

variable (hR : Node.Congruence L R)

include hR

/-! ## Expressions -/

theorem mirrors_primary (ih : ∀ rest < budget, ∀ s, Consistent L R (expression s rest)) :
    Consistent L R (primary budget) := by
  intro c c' h
  have ht := h.peek
  rw [primary, run_peek_bind, run_peek_bind, ht.kind_eq, ht.numberValue_eq, literalValue?_eq ht]
  split
  · next hk =>
    refine mirrors_bind (mirrors_advance h (by simp [hk])) fun _ _ d d' _ hd => ?_
    cases hv : c.peek.numberValue with
    | ok v => exact mirrors_pure (hR.literal ht.line (ht.numberValue_agrees hk hv)) hd
    | error fault => exact mirrors_fail hd (.numeral fault)
  · next hk =>
    refine mirrors_bind (mirrors_advance h (by simp [hk])) fun _ _ d d' _ hd => ?_
    refine mirrors_bind (mirrors_deeper hd _ fun rest hlt => ih rest hlt _) ?_
    intro e e' d d' he hd
    refine mirrors_bind (mirrors_expect hd (by decide) _) fun _ _ d d' _ hd => ?_
    exact mirrors_pure (hR.grouping ht.line he) hd
  · next hk =>
    refine mirrors_bind (mirrors_advance h (by simp [hk])) fun _ _ d d' _ hd => ?_
    rw [ht.text_eq]
    exact mirrors_pure (hR.var ht.line) hd
  · cases hv : literalValue? c.peek with
    | some v =>
      have hk : c.peek.kind ≠ .eol := by
        intro hk
        simp [literalValue?, hk] at hv
      refine mirrors_bind (mirrors_advance h hk) fun _ _ d d' _ hd => ?_
      exact mirrors_pure (hR.literal ht.line (agrees_self_of_literalValue? ht hv)) hd
    | none => exact mirrors_atToken h _ _ _ _ _

theorem mirrors_passArguments (ih : ∀ rest < budget, ∀ s, Consistent L R (expression s rest))
    {t t' : Token} {e e' : Node} (ht : t.Like L t') (he : R e e') :
    (passArguments budget t e).Mirrors L R (Cursor.Abreast L) (passArguments budget t' e') := by
  intro c c' h
  refine mirrors_bind (mirrors_deeper h _ fun rest hlt => mirrors_arguments (ih rest hlt _)) ?_
  intro es es' d d' hes hd
  refine mirrors_bind (mirrors_expect hd (by decide) _) fun _ _ d d' _ hd => ?_
  exact mirrors_pure (hR.call ht.line he hes) hd

theorem mirrors_call (ih : ∀ rest < budget, ∀ s, Consistent L R (expression s rest)) :
    Consistent L R (call budget) := by
  intro c c' h
  rw [call_eq]
  refine mirrors_bind (mirrors_primary hR ih c c' h) fun e e' d d' he hd => ?_
  refine mirrors_whileNext (by decide) (by decide) (fun t t' e e' ht he => ?_) he hd
  exact mirrors_passArguments hR ih ht he

theorem mirrors_unary (ih : ∀ rest < budget, ∀ s, Consistent L R (expression s rest))
    (ihUnary : ∀ rest < budget, ∀ s, Consistent L R (unary s rest)) (s : Bool) :
    Consistent L R (unary s budget) := by
  intro c c' h
  rw [unary]
  refine mirrors_bind (mirrors_accept h (by decide)) fun found found' d d' hfound hd => ?_
  cases hfound with
  | some ht =>
    refine mirrors_bind (mirrors_deeper hd _ fun rest hlt => ihUnary rest hlt s) ?_
    intro e e' d d' he hd
    rw [ht.text_eq]
    exact mirrors_pure (hR.unary ht.line he) hd
  | none => exact mirrors_call hR ih _ _ hd

theorem join_related (T : Tier) {t t' : Token} {e e' f f' : Node} (ht : t.Like L t') (he : R e e')
    (hf : R f f') : R (T.join t e f) (T.join t' e' f') := by
  have hlogical : R (joinLogical t e f) (joinLogical t' e' f') := by
    rw [joinLogical, joinLogical, ht.text_eq]
    exact hR.logical ht.line he hf
  have hbinary : R (joinBinary t e f) (joinBinary t' e' f') := by
    rw [joinBinary, joinBinary, ht.text_eq]
    exact hR.binary ht.line he hf
  cases T <;> first | exact hlogical | exact hbinary

theorem mirrors_infixTier {T : Tier} (hT : T.isInfix = true) {s : Bool}
    (h : Consistent L R (ofTier T.tighter s budget)) : Consistent L R (ofTier T s budget) := by
  intro c c' hc
  rw [ofTier_eq_leftFold hT, leftFold]
  have heof : T.operators s .eof = false := by
    cases T <;> rfl
  have heol : T.operators s .eol = false := by
    cases T <;> rfl
  refine mirrors_bind (h c c' hc) fun e e' d d' he hd => ?_
  refine mirrors_whileNext heol heof (fun t t' e e' ht he c c' hc => ?_) he hd
  exact mirrors_bind (h c c' hc) fun f f' d d' hf hd => mirrors_pure (join_related hR T ht he hf) hd

theorem mirrors_assignTo {s : Bool} (ih : ∀ rest < budget, ∀ s, Consistent L R (assignment s rest))
    {e e' : Node} (he : R e e') :
    (assignTo s budget e).Mirrors L R (Cursor.Abreast L) (assignTo s budget e') := by
  intro c c' h
  unfold assignTo
  rw [run_peek_bind, run_peek_bind, h.kind_peek]
  split
  · next hk =>
    split
    · next line name =>
      -- The other target is the same name.
      rcases hR.var_left he with ⟨line', rfl⟩
      refine mirrors_bind (mirrors_advance h (by simp [hk])) fun _ _ d d' _ hd => ?_
      refine mirrors_bind (mirrors_deeper hd _ fun rest hlt => ih rest hlt s) ?_
      intro f f' d d' hf hd
      exact mirrors_pure (hR.assign (hR.line he) hf) hd
    · next hno =>
      split
      · next line' name =>
        rcases hR.var_right he with ⟨line, rfl⟩
        exact absurd rfl (hno line name)
      · exact mirrors_atToken h _ _ _ _ _
  · exact mirrors_pure he h

theorem mirrors_assignment (ih : ∀ rest < budget, ∀ s, Consistent L R (assignment s rest))
    {s : Bool} (h : Consistent L R (ofTier .logicOr s budget)) :
    Consistent L R (assignment s budget) := by
  intro c c' hc
  rw [assignment_eq]
  exact mirrors_bind (h c c' hc) fun e e' d d' he hd => mirrors_assignTo hR ih he d d' hd

theorem mirrors_ofTier (budget : Nat) : ∀ T s, Consistent L R (ofTier T s budget) := by
  -- Inside brackets and behind prefixes the budget is less; from one tier to the next it stays.
  induction budget using Nat.strongRecOn with
  | ind budget ih =>
    have hexpression : ∀ rest < budget, ∀ s, Consistent L R (expression s rest) := by
      intro rest hlt s
      rw [expression]
      exact ih rest hlt .assignment s
    intro T s
    induction T using Tier.induct with
    | primary => exact mirrors_primary hR hexpression
    | call _ => exact mirrors_call hR hexpression
    | unary _ => exact mirrors_unary hR hexpression (fun rest hlt s => ih rest hlt .unary s) s
    | operation hT hnext => exact mirrors_infixTier hR hT hnext
    | assignment hor =>
      exact mirrors_assignment hR (fun rest hlt s => ih rest hlt .assignment s) hor

theorem mirrors_expression (s : Bool) (budget : Nat) : Consistent L R (expression s budget) := by
  rw [expression]
  exact mirrors_ofTier hR budget .assignment s

/-! ## Ends of line and ends of statements -/

omit hR in
/-- Where ends of line are passed over, the second place catches up. -/
theorem mirrors_skipNewlines (h : c.Trails L c') :
    (skipNewlines.run c).Mirrors L (fun _ _ => True) (Cursor.Abreast L) (skipNewlines.run c') := by
  rcases run_skipNewlines c with ⟨d, hrun, hd⟩
  rcases run_skipNewlines c' with ⟨d', hrun', hd'⟩
  have hforward := skipNewlines.forward c
  have hforward' := skipNewlines.forward c'
  rw [hrun] at hforward ⊢
  rw [hrun'] at hforward' ⊢
  change c.Reaches d at hforward
  change c'.Reaches d' at hforward'
  refine .done trivial ⟨?_, ?_⟩
  · rw [hd, hd']
    exact h.ahead.dropBlank
  · rw [hforward.finish_eq, hforward'.finish_eq]
    exact h.finish

omit hR in
/-- The end of line that ends a statement is the one that may come twice. -/
theorem mirrors_endStatement (h : c.Abreast L c') (message : String) :
    ((endStatement message).run c).Mirrors L (fun _ _ => True) (Cursor.Trails L)
      ((endStatement message).run c') := by
  by_cases hk : c.peek.kind = .eol
  · have hrun : (accept (· == .eol)).run c = .done (some c.peek) c.advance := by
      simp [accept, hk]
    have hrun' : (accept (· == .eol)).run c' = .done (some c'.peek) c'.advance := by
      simp [accept, h.kind_peek, hk]
    rw [endStatement, run_bind_of_done hrun, run_bind_of_done hrun']
    -- Only here is an end of line read as a token, so only here may one be left behind.
    exact .done trivial h.advance_trails
  · have hrun : (accept (· == .eol)).run c = .done none c := by
      simp [accept, hk]
    have hrun' : (accept (· == .eol)).run c' = .done none c' := by
      simp [accept, h.kind_peek, hk]
    rw [endStatement, run_bind_of_done hrun, run_bind_of_done hrun']
    dsimp only
    rw [run_peek_bind, run_peek_bind, h.kind_peek]
    split
    · exact .done trivial h.trails
    · exact mirrors_unexpected h _ _

theorem mirrors_simple {make make' : Node → Node} (hmake : ∀ e e', R e e' → R (make e) (make' e'))
    (message : String) :
    (simple budget make message).Mirrors L R (Cursor.Trails L) (simple budget make' message) := by
  intro c c' h
  refine mirrors_bind (mirrors_expression hR _ _ c c' h) fun e e' d d' he hd => ?_
  refine mirrors_bind (mirrors_endStatement hd _) fun _ _ d d' _ hd => ?_
  exact mirrors_pure (hmake e e' he) hd

/-! ## Blocks -/

omit hR in
theorem mirrors_blockItem (ih : ∀ rest < budget, ConsistentToLine L R (declaration false rest)) :
    Consistent L R (blockItem budget) := by
  intro c c' h
  refine mirrors_bind (mirrors_deeper h _ fun rest hlt => ih rest hlt) fun n n' d d' hn hd => ?_
  refine mirrors_bind (mirrors_skipNewlines hd) fun _ _ d d' _ hd => ?_
  exact mirrors_pure hn hd

theorem mirrors_closeBlock {t t' : Token} {ns ns' : List Node} (ht : t.Like L t')
    (hns : List.Forall₂ R ns ns') :
    (closeBlock t ns).Mirrors L R (Cursor.Abreast L) (closeBlock t' ns') := by
  intro c c' h
  refine mirrors_bind (mirrors_accept h (by decide)) fun found found' d d' hfound hd => ?_
  cases hfound with
  | some _ => exact mirrors_pure (hR.block ht.line hns) hd
  | none => exact mirrors_atToken hd _ _ _ _ _

theorem mirrors_block (ih : ∀ rest < budget, ConsistentToLine L R (declaration false rest)) :
    Consistent L R (block false budget) := by
  intro c c' h
  rw [block_eq]
  refine mirrors_bind (mirrors_expect h (by decide) _) fun t t' d d' ht hd => ?_
  refine mirrors_insideBlock (mirrors_bind (mirrors_skipNewlines hd.trails) ?_)
  intro _ _ d d' _ hd
  refine mirrors_bind (mirrors_untilNext (blockItem_takes budget) (blockItem_takes budget)
    (mirrors_blockItem ih) hd) ?_
  exact fun ns ns' d d' hns hd => mirrors_closeBlock hR ht hns d d' hd

/-! ## Statements -/

omit hR in
/-- What is governed by a condition or a loop, behind ends of line. -/
theorem mirrors_body (ih : ∀ rest < budget, ConsistentToLine L R (statement false rest))
    {α β : Type} {V : α → β → Prop} {P : Cursor → Cursor → Prop} {next : Node → Rule α}
    {next' : Node → Rule β} (h : c.Trails L c')
    (hnext : ∀ n n' d d', R n n' → d.Trails L d' →
      ((next n).run d).Mirrors L V P ((next' n').run d')) :
    ((skipNewlines >>= fun _ =>
      deeper .body budget (fun rest _ => statement false rest) >>= next).run c).Mirrors L V P
      ((skipNewlines >>= fun _ =>
        deeper .body budget (fun rest _ => statement false rest) >>= next').run c') := by
  refine mirrors_bind (mirrors_skipNewlines h) fun _ _ d d' _ hd => ?_
  exact mirrors_bind (mirrors_deeper hd _ fun rest hlt => ih rest hlt) hnext

theorem mirrors_ifStatement (ih : ∀ rest < budget, ConsistentToLine L R (statement false rest))
    (h : c.Abreast L c') (hk : c.peek.kind ≠ .eol) :
    ((ifStatement false budget).run c).Mirrors L R (Cursor.Trails L)
      ((ifStatement false budget).run c') := by
  rw [ifStatement]
  refine mirrors_bind (mirrors_advance h hk) fun t t' d d' ht hd => ?_
  refine mirrors_bind (mirrors_expression hR _ _ d d' hd) fun e e' d d' he hd => ?_
  refine mirrors_body ih hd.trails fun n n' d d' hn hd => ?_
  -- An `else` is looked for behind ends of line, where the same comes again.
  refine mirrors_bind (mirrors_skipNewlines hd) fun _ _ d d' _ hd => ?_
  refine mirrors_bind (mirrors_accept hd (by decide)) fun found found' d d' hfound hd => ?_
  cases hfound with
  | some _ =>
    refine mirrors_body ih hd.trails fun m m' d d' hm hd => ?_
    exact mirrors_pure (hR.conditional ht.line he hn (.some hm)) hd
  | none => exact mirrors_pure (hR.conditional ht.line he hn .none) hd.trails

theorem mirrors_whileStatement (ih : ∀ rest < budget, ConsistentToLine L R (statement false rest))
    (h : c.Abreast L c') (hk : c.peek.kind ≠ .eol) :
    ((whileStatement false budget).run c).Mirrors L R (Cursor.Trails L)
      ((whileStatement false budget).run c') := by
  rw [whileStatement]
  refine mirrors_bind (mirrors_advance h hk) fun t t' d d' ht hd => ?_
  refine mirrors_bind (mirrors_expect hd (by decide) _) fun _ _ d d' _ hd => ?_
  refine mirrors_bind (mirrors_expression hR _ _ d d' hd) fun e e' d d' he hd => ?_
  refine mirrors_bind (mirrors_expect hd (by decide) _) fun _ _ d d' _ hd => ?_
  refine mirrors_body ih hd.trails fun n n' d d' hn hd => ?_
  exact mirrors_pure (hR.loop ht.line he hn) hd

/-! ### Loops with clauses -/

theorem initializerOf_related {e e' : Node} (he : R e e') :
    R (initializerOf e) (initializerOf e') := by
  by_cases hvar : ∃ line name, e = .var line name
  · rcases hvar with ⟨line, name, rfl⟩
    rcases hR.var_left he with ⟨line', rfl⟩
    exact hR.declared (hR.line he)
  · have hno : ∀ line name, e ≠ .var line name := fun line name heq => hvar ⟨line, name, heq⟩
    have hno' : ∀ line name, e' ≠ .var line name := by
      rintro line name rfl
      rcases hR.var_right he with ⟨line', rfl⟩
      exact hno _ _ rfl
    rw [initializerOf.eq_2 e hno, initializerOf.eq_2 e' hno']
    exact hR.expression (hR.line he) he

theorem forLoop_related {line line' : Int}
    {made made' condition condition' step step' : Option Node} {n n' : Node}
    (hline : L line line') (hmade : Option.Rel R made made')
    (hcondition : Option.Rel R condition condition') (hstep : Option.Rel R step step')
    (hn : R n n') :
    R (forLoop line made condition step n) (forLoop line' made' condition' step' n') := by
  have htest : R (condition.getD (.literal line (.bool true)))
      (condition'.getD (.literal line' (.bool true))) := by
    cases hcondition with
    | none => exact hR.literal hline rfl
    | some he => exact he
  have hloop : List.Forall₂ R (n :: (step.map fun e => Node.expression e.line e).toList)
      (n' :: (step'.map fun e => Node.expression e.line e).toList) := by
    cases hstep with
    | none => exact .cons hn .nil
    | some he => exact .cons hn (.cons (hR.expression (hR.line he) he) .nil)
  have hinitializer : List.Forall₂ R made.toList made'.toList := by
    cases hmade with
    | none => exact .nil
    | some he => exact .cons he .nil
  have hall := hR.loop hline htest (hR.block hline hloop)
  exact hR.block hline (List.rel_append hinitializer (.cons hall .nil))

theorem mirrors_forStatement (ih : ∀ rest < budget, ConsistentToLine L R (statement false rest))
    (h : c.Abreast L c') (hk : c.peek.kind ≠ .eol) :
    ((forStatement false budget).run c).Mirrors L R (Cursor.Trails L)
      ((forStatement false budget).run c') := by
  have hinitializer : Consistent L R (forInitializer true budget) := by
    intro c c' hc
    refine mirrors_bind (mirrors_expression hR _ _ c c' hc) fun e e' d d' he hd => ?_
    exact mirrors_pure (initializerOf_related hR he) hd
  rw [forStatement]
  refine mirrors_bind (mirrors_advance h hk) fun t t' d d' ht hd => ?_
  refine mirrors_bind (mirrors_expect hd (by decide) _) fun _ _ d d' _ hd => ?_
  refine mirrors_bind (mirrors_unlessNext hd _ hinitializer) fun made made' d d' hmade hd => ?_
  refine mirrors_bind (mirrors_expect hd (by decide) _) fun _ _ d d' _ hd => ?_
  refine mirrors_bind (mirrors_unlessNext hd _ (mirrors_expression hR _ _)) ?_
  intro condition condition' d d' hcondition hd
  refine mirrors_bind (mirrors_expect hd (by decide) _) fun _ _ d d' _ hd => ?_
  refine mirrors_bind (mirrors_unlessNext hd _ (mirrors_expression hR _ _)) ?_
  intro step step' d d' hstep hd
  refine mirrors_bind (mirrors_expect hd (by decide) _) fun _ _ d d' _ hd => ?_
  refine mirrors_body ih hd.trails fun n n' d d' hn hd => ?_
  exact mirrors_pure (forLoop_related hR ht.line hmade hcondition hstep hn) hd

/-! ## Declarations -/

omit hR in
theorem mirrors_parameters (h : c.Abreast L c') :
    (parameters.run c).Mirrors L Eq (Cursor.Abreast L) (parameters.run c') := by
  have hparameter : parameter.Mirrors L Eq (Cursor.Abreast L) parameter := by
    intro c c' hc
    refine mirrors_bind (mirrors_expect hc (by decide) _) fun t t' d d' ht hd => ?_
    exact mirrors_pure ht.text_eq.symm hd
  refine mirrors_bind (mirrors_unlessNext h _ (mirrors_commaSeparated hparameter)) ?_
  intro found found' d d' hfound hd
  refine mirrors_pure ?_ hd
  cases hfound with
  | none => rfl
  | some hnames => exact List.forall₂_eq_eq_eq ▸ hnames

theorem mirrors_functionDeclaration (hblock : Consistent L R (block false budget))
    (h : c.Abreast L c') (hk : c.peek.kind ≠ .eol) :
    ((functionDeclaration false budget).run c).Mirrors L R (Cursor.Trails L)
      ((functionDeclaration false budget).run c') := by
  rw [functionDeclaration]
  refine mirrors_bind (mirrors_advance h hk) fun t t' d d' ht hd => ?_
  refine mirrors_bind (mirrors_expect hd (by decide) _) fun name name' d d' hname hd => ?_
  refine mirrors_bind (mirrors_expect hd (by decide) _) fun _ _ d d' _ hd => ?_
  refine mirrors_bind (mirrors_parameters hd) ?_
  rintro params _ d d' rfl hd
  refine mirrors_bind (mirrors_expect hd (by decide) _) fun _ _ d d' _ hd => ?_
  refine mirrors_bind (mirrors_skipNewlines hd.trails) fun _ _ d d' _ hd => ?_
  rw [run_peek_bind, run_peek_bind, hd.kind_peek]
  split
  · refine mirrors_bind (hblock d d' hd) fun n n' d d' hn hd => ?_
    rw [hname.text_eq]
    exact mirrors_pure (hR.function ht.line hn) hd.trails
  · exact mirrors_unexpected hd _ _

theorem mirrors_statement (ih : ∀ rest < budget, ConsistentToLine L R (statement false rest))
    (hblock : Consistent L R (block false budget)) :
    ConsistentToLine L R (statement false budget) := by
  intro c c' h
  rw [statement, run_peek_bind, run_peek_bind, h.kind_peek]
  split
  · next hk => exact mirrors_ifStatement hR ih h (by simp [hk])
  · next hk => exact mirrors_forStatement hR ih h (by simp [hk])
  · next hk =>
    refine mirrors_bind (mirrors_advance h (by simp [hk])) fun t t' d d' ht hd => ?_
    exact mirrors_simple hR (fun e e' he => hR.print ht.line he) _ d d' hd
  · next hk =>
    refine mirrors_bind (mirrors_advance h (by simp [hk])) fun t t' d d' ht hd => ?_
    exact mirrors_simple hR (fun e e' he => hR.return_ ht.line he) _ d d' hd
  · next hk => exact mirrors_whileStatement hR ih h (by simp [hk])
  · exact (hblock c c' h).trails
  · exact mirrors_simple hR (fun e e' he => hR.expression (hR.line he) he) _ c c' h

theorem mirrors_ofLevel (budget : Nat) : ∀ level, ConsistentToLine L R (ofLevel level budget) := by
  induction budget using Nat.strongRecOn with
  | ind budget ih =>
    -- A statement that is a block has the whole budget for it, so blocks come first.
    have hblock := mirrors_block hR fun rest hlt => ih rest hlt .declaration
    have hstatement := mirrors_statement hR (fun rest hlt => ih rest hlt .statement) hblock
    intro level
    cases level with
    | declaration =>
      intro c c' h
      change ((declaration false budget).run c).Mirrors L R _ ((declaration false budget).run c')
      rw [declaration, run_peek_bind, run_peek_bind, h.kind_peek]
      split
      · next hk => exact mirrors_functionDeclaration hR hblock h (by simp [hk])
      · exact hstatement c c' h
    | statement => exact hstatement
    | block => exact fun c c' h => (hblock c c' h).trails

end ScriptCheck.Grammar
