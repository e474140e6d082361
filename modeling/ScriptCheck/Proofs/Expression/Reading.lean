import ScriptCheck.Proofs.Expression.Spelling
import ScriptCheck.Proofs.Syntax.Depth

/-!
# Expression rules read what tokens spell

The rule of a tier ends with an expression exactly when the tokens ahead spell it and the next token
does not go on with it. `Grammar.ofTier_done` is the one direction, by induction on the budget, and
`Spells.comes` the other, by induction on the spelling. Both keep account of the nesting: an
expression is read within a budget if its nesting fits, and otherwise the rule gives up as too deep.
-/

namespace ScriptCheck

open ScriptCheck.Rule

namespace Grammar

/-- The arguments of a call behind the parenthesis that opens them, and the call that they make. -/
def passArguments (budget : Nat) (opening : Token) (callee : Node) : Rule Node := do
  let passed ← deeper .argument budget fun rest _ => arguments false rest
  let _ ← expect (.operator .rparen) "expected ')' after arguments"
  return .call opening.line callee passed

theorem call_eq (budget : Nat) :
    call budget = primary budget >>=
      whileNext (· == .operator .lparen) (passArguments budget) :=
  call.eq_1 budget

/-- What the rule of assignments does behind the target. -/
def assignTo (andSeparates : Bool) (budget : Nat) (target : Node) : Rule Node := do
  if (← peek).kind = .operator .assign then
    match target with
    | .var line name =>
      let _ ← advance
      let value ← deeper .assigned budget fun rest _ => assignment andSeparates rest
      return .assign line name value
    | _ =>
      invalid fun t =>
        .atToken .invalidAssignmentTarget "invalid assignment target" t none none
  else return target

theorem assignment_eq (andSeparates : Bool) (budget : Nat) :
    assignment andSeparates budget =
      logicOr andSeparates budget >>= assignTo andSeparates budget :=
  assignment.eq_1 andSeparates budget

/-! ## What is read is spelled -/

/-- What a rule that ends with an expression has read: tokens that spell it, within the budget, up
to a token that does not go on with it. -/
def ReadsOf (T : Tier) (s : Bool) (budget : Nat) : Prop :=
  ∀ c e d, (ofTier T s budget).run c = .done e d →
    Spells T s c.ahead d.ahead e ∧ e.nesting ≤ budget ∧ T.extendedBy s (nextKind d.ahead) = false

variable {budget : Nat} {s : Bool}

theorem nesting_join (T : Tier) (op : Token) (e f : Node) :
    (T.join op e f).nesting = max e.nesting f.nesting := by
  cases T <;> simp [Tier.join, joinLogical, joinBinary, Node.nesting]

theorem primary_reads (ih : ∀ rest < budget, ∀ s, ReadsOf .assignment s rest) :
    ReadsOf .primary s budget := by
  intro c e d h
  change (primary budget).run c = .done e d at h
  have hend := Tier.not_extendedBy_primary s (nextKind d.ahead)
  rw [primary, run_peek_bind] at h
  split at h
  · -- a number, which has to carry a value
    next hk =>
    rcases Cursor.exists_ahead_of_peek hk (by decide) with ⟨t, r, hc, hpeek, ht⟩
    rw [run_advance_bind hc, hpeek] at h
    split at h
    · next v hv =>
      rcases pure_done h with ⟨rfl, rfl⟩
      refine ⟨?_, Nat.zero_le _, hend⟩
      rw [Cursor.ahead_advance hc, hc]
      exact .number ht hv
    · simp [fail] at h
  · -- an expression in parentheses, in which `and` is an operator again
    next hk =>
    rcases Cursor.exists_ahead_of_peek hk (by decide) with ⟨t, r, hc, hpeek, ht⟩
    rw [run_advance_bind hc, hpeek] at h
    rcases bind_done h with ⟨inner, d₁, hinner, hrest⟩
    rcases bind_done hrest with ⟨closing, d₂, hclosing, hrest⟩
    rcases pure_done hrest with ⟨rfl, rfl⟩
    rcases deeper_done hinner with ⟨hweight, hlt, hinner⟩
    rcases expect_done (by decide) hclosing with ⟨hd₁, hclosing⟩
    rw [expression] at hinner
    rcases ih _ hlt false _ _ _ hinner with ⟨hspells, hnesting, _⟩
    rw [Cursor.ahead_advance hc, hd₁] at hspells
    rw [hc]
    refine ⟨.grouping ht hspells hclosing, ?_, hend⟩
    simp only [Node.nesting]
    omega
  · -- a name
    next hk =>
    rcases Cursor.exists_ahead_of_peek hk (by decide) with ⟨t, r, hc, hpeek, ht⟩
    rw [run_advance_bind hc, hpeek] at h
    rcases pure_done h with ⟨rfl, rfl⟩
    refine ⟨?_, Nat.zero_le _, hend⟩
    rw [Cursor.ahead_advance hc, hc]
    exact .name ht
  · -- a literal, or else no expression at all
    split at h
    · next v hv =>
      rcases Cursor.exists_ahead_of_peek rfl (ne_eof_of_literalValue? hv) with ⟨t, r, hc, hpeek, -⟩
      rw [run_advance_bind hc, hpeek] at h
      rcases pure_done h with ⟨rfl, rfl⟩
      refine ⟨?_, Nat.zero_le _, hend⟩
      rw [Cursor.ahead_advance hc, hc]
      exact .literal (hpeek ▸ hv)
    · simp [invalid, fail] at h

/-- The arguments that are read behind a callee make a call of it. -/
theorem passArguments_reads (ih : ∀ rest < budget, ∀ s, ReadsOf .assignment s rest)
    {i r : List Token} {opening : Token} {f g : Node} {c d : Cursor}
    (hf : Spells .call s i (opening :: r) f) (hnesting : f.nesting ≤ budget)
    (hopen : opening.kind = .operator .lparen) (hc : c.ahead = r)
    (h : (passArguments budget opening f).run c = .done g d) :
    Spells .call s i d.ahead g ∧ g.nesting ≤ budget := by
  rcases bind_done h with ⟨passed, d₁, hpassed, hrun⟩
  rcases bind_done hrun with ⟨closing, d₂, hclosing, hrun⟩
  rcases pure_done hrun with ⟨rfl, rfl⟩
  rcases deeper_done hpassed with ⟨hweight, hlt, hpassed⟩
  rcases expect_done (by decide) hclosing with ⟨hd₁, hclose⟩
  rw [arguments] at hpassed
  rcases bind_done hpassed with ⟨found, d₃, hfound, hpassed⟩
  rcases pure_done hpassed with ⟨rfl, rfl⟩
  rcases unlessNext_done hfound with ⟨rfl, rfl, -⟩ | ⟨es, rfl, -, hes⟩
  · -- no arguments
    rw [← hc, hd₁] at hf
    refine ⟨.passNone hf hopen hclose, ?_⟩
    simp only [Option.getD_none, Node.nesting, Node.nestingWithin]
    omega
  · -- at least one
    have hitems := commaSeparated_done
      (R := fun i r e => Spells .assignment false i r e ∧
        e.nesting ≤ budget - Nesting.weight .argument) (by
      intro c' e' d' hrun'
      rw [expression] at hrun'
      rcases ih _ hlt false _ _ _ hrun' with ⟨hs, hn, _⟩
      exact ⟨hs, hn⟩) hes
    have hfits : Node.nestingWithin 0 es ≤ budget - Nesting.weight .argument := by
      rw [Node.nestingWithin_le_iff]
      intro n hn
      rcases hitems.exists_item n hn with ⟨_, _, _, hle⟩
      omega
    have hes : Separated (Spells .assignment false) _ _ es :=
      hitems.mono fun _ _ _ hboth => hboth.1
    rw [hc, hd₁] at hes
    refine ⟨.pass hf hopen hes hclose, ?_⟩
    simp only [Option.getD_some, Node.nesting]
    omega

theorem call_reads (ih : ∀ rest < budget, ∀ s, ReadsOf .assignment s rest)
    (hprimary : ReadsOf .primary s budget) : ReadsOf .call s budget := by
  intro c e d h
  change (call budget).run c = .done e d at h
  rw [call_eq] at h
  rcases bind_done h with ⟨callee, d₁, hcallee, hloop⟩
  rcases hprimary _ _ _ hcallee with ⟨hspells, hnesting, _⟩
  -- The loop keeps that what is read so far is a call.
  have hdone := whileNextFrom_done
    (P := fun e d => Spells .call s c.ahead d.ahead e ∧ e.nesting ≤ budget) (by decide) ?_
    ⟨.callee hspells, hnesting⟩ hloop
  · rcases hdone with ⟨⟨hspells, hnesting⟩, hstop⟩
    exact ⟨hspells, hnesting, by rw [Tier.extendedBy_call]; exact hstop⟩
  · rintro opening r f g d₂ d₃ ⟨hf, hfnesting⟩ hd₂ hopen hrun
    rw [hd₂] at hf
    exact passArguments_reads ih hf hfnesting (by simpa using hopen) (Cursor.ahead_advance hd₂) hrun

theorem unary_reads (ih : ∀ rest < budget, ∀ s, ReadsOf .unary s rest)
    (hcall : ReadsOf .call s budget) : ReadsOf .unary s budget := by
  intro c e d h
  change (unary s budget).run c = .done e d at h
  rw [unary] at h
  rcases bind_done h with ⟨found, d₁, hfound, hrest⟩
  rcases accept_done (by decide) hfound with ⟨op, rfl, hc, hop⟩ | ⟨rfl, rfl, -⟩
  · -- an operator in front, whose operand may have one as well
    rcases bind_done hrest with ⟨operand, d₂, hoperand, hrest⟩
    rcases pure_done hrest with ⟨rfl, rfl⟩
    rcases deeper_done hoperand with ⟨hweight, hlt, hoperand⟩
    rcases ih _ hlt s _ _ _ hoperand with ⟨hspells, hnesting, hstop⟩
    rw [hc]
    refine ⟨.unary hop hspells, ?_, hstop⟩
    simp only [Node.nesting]
    omega
  · rcases hcall _ _ _ hrest with ⟨hspells, hnesting, hstop⟩
    exact ⟨.call hspells, hnesting, by rw [Tier.extendedBy_unary]; exact hstop⟩

/-- The operand that is read behind an operator makes an operation of it and what stands in
front. -/
theorem join_reads {T : Tier} (hT : T.isInfix = true) (hnext : ReadsOf T.tighter s budget)
    {i r : List Token} {op : Token} {left e : Node} {c d : Cursor}
    (hleft : Spells T s i (op :: r) left) (hnesting : left.nesting ≤ budget)
    (hop : T.operators s op.kind = true) (hc : c.ahead = r)
    (h : (ofTier T.tighter s budget >>= fun right =>
      (return T.join op left right : Rule Node)).run c = .done e d) :
    Spells T s i d.ahead e ∧ e.nesting ≤ budget ∧
      T.tighter.extendedBy s (nextKind d.ahead) = false := by
  rcases bind_done h with ⟨right, d₁, hright, hrun⟩
  rcases pure_done hrun with ⟨rfl, rfl⟩
  rcases hnext _ _ _ hright with ⟨hspells, hrightNesting, hstop⟩
  rw [hc] at hspells
  refine ⟨.operation hT hleft hop hspells, ?_, hstop⟩
  rw [nesting_join]
  omega

theorem infix_reads {T : Tier} (hT : T.isInfix = true) (hnext : ReadsOf T.tighter s budget) :
    ReadsOf T s budget := by
  intro c e d h
  rw [ofTier_eq_leftFold hT, leftFold] at h
  rcases bind_done h with ⟨first, d₁, hfirst, hloop⟩
  rcases hnext _ _ _ hfirst with ⟨hspells, hnesting, hstop⟩
  have heof : T.operators s .eof = false := by
    cases T <;> rfl
  -- The loop keeps an expression of the tier, behind which only the tier's own operators can go on:
  -- its last operand has been read as far as possible.
  have hdone := whileNextFrom_done
    (P := fun e d => Spells T s c.ahead d.ahead e ∧ e.nesting ≤ budget ∧
      T.tighter.extendedBy s (nextKind d.ahead) = false) heof ?_
    ⟨.operand hT hspells, hnesting, hstop⟩ hloop
  · rcases hdone with ⟨⟨hspells, hnesting, hstop⟩, hno⟩
    refine ⟨hspells, hnesting, ?_⟩
    rw [Tier.extendedBy_of_isInfix hT, hno, hstop]
    rfl
  · rintro op r left e' d₂ d₃ ⟨hleft, hleftNesting, _⟩ hd₂ hop hrun
    rw [hd₂] at hleft
    exact join_reads hT hnext hleft hleftNesting hop (Cursor.ahead_advance hd₂) hrun

theorem assignment_reads (ih : ∀ rest < budget, ∀ s, ReadsOf .assignment s rest)
    (hor : ReadsOf .logicOr s budget) : ReadsOf .assignment s budget := by
  intro c e d h
  change (assignment s budget).run c = .done e d at h
  rw [assignment_eq] at h
  rcases bind_done h with ⟨target, d₁, htarget, h⟩
  rcases hor _ _ _ htarget with ⟨hspells, hnesting, hstop⟩
  unfold assignTo at h
  rw [run_peek_bind] at h
  split at h
  · next hk =>
    rcases Cursor.exists_ahead_of_peek hk (by decide) with ⟨eq, j, hd₁, _, heq⟩
    -- Only a name may be assigned to.
    split at h
    · rw [run_advance_bind hd₁] at h
      rcases bind_done h with ⟨value, d₂, hvalue, hrest⟩
      rcases pure_done hrest with ⟨rfl, rfl⟩
      rcases deeper_done hvalue with ⟨hweight, hlt, hvalue⟩
      rcases ih _ hlt s _ _ _ hvalue with ⟨hvalueSpells, hvalueNesting, hvalueStop⟩
      rw [hd₁] at hspells
      rw [Cursor.ahead_advance hd₁] at hvalueSpells
      refine ⟨.assign hspells heq hvalueSpells, ?_, hvalueStop⟩
      simp only [Node.nesting]
      omega
    · simp [invalid, fail] at h
  · -- no assignment, so neither `=` nor an operator comes next
    next hk =>
    rcases pure_done h with ⟨rfl, rfl⟩
    rw [Cursor.kind_peek] at hk
    refine ⟨.value hspells, hnesting, ?_⟩
    rw [Tier.extendedBy_assignment, hstop]
    simpa using hk

/-- A rule that ends with an expression has read tokens that spell it, up to a token that does not
go on with it. -/
theorem ofTier_done (budget : Nat) : ∀ T s, ReadsOf T s budget := by
  induction budget using Nat.strongRecOn with
  | ind budget ih =>
    intro T s
    induction T using Tier.induct with
    | primary => exact primary_reads fun rest hlt s => ih rest hlt _ s
    | call hprimary => exact call_reads (fun rest hlt s => ih rest hlt _ s) hprimary
    | unary hcall => exact unary_reads (fun rest hlt s => ih rest hlt _ s) hcall
    | operation hT hnext => exact infix_reads hT hnext
    | assignment hor => exact assignment_reads (fun rest hlt s => ih rest hlt _ s) hor

/-! ## What is spelled is read -/

/-- What is left of the rule of a tier when it has come to an expression: if the tier is a loop, it
may go on. -/
def carryOn : Tier → (s : Bool) → (budget : Nat) → (e : Node) → Cursor → Outcome Node
  | .assignment, _, _, e | .unary, _, _, e | .primary, _, _, e => .done e
  | .call, _, budget, e => whileNextFrom (· == .operator .lparen) (passArguments budget) e
  | T, s, budget, e =>
    whileNextFrom (T.operators s) (fun op left => do
      let right ← ofTier T.tighter s budget
      return T.join op left right) e

theorem carryOn_eq {T : Tier} (hT : T.isInfix = true) (s : Bool) (budget : Nat) (e : Node) :
    carryOn T s budget e =
      whileNextFrom (T.operators s) (fun op left => do
        let right ← ofTier T.tighter s budget
        return T.join op left right) e := by
  cases T <;> first | rfl | simp [Tier.isInfix] at hT

/-- In front of a token that does not go on with it, an expression is all that is read. -/
theorem carryOn_stop {T : Tier} {e : Node} {d : Cursor}
    (h : T.extendedBy s (nextKind d.ahead) = false) : carryOn T s budget e d = .done e d := by
  by_cases hT : T.isInfix = true
  · -- The loop stops at a token that is no operator of the tier.
    rw [carryOn_eq hT]
    rw [Tier.extendedBy_of_isInfix hT, Bool.or_eq_false_iff] at h
    exact whileNextFrom_stop h.1 e
  · -- A call stops unless a parenthesis comes, and the other tiers have no loop.
    cases T with
    | call =>
      rw [Tier.extendedBy_call] at h
      exact whileNextFrom_stop h e
    | assignment => rfl
    | unary => rfl
    | primary => rfl
    | _ => simp [Tier.isInfix] at hT

/-- Where the rule of a tier comes to on a spelling, if the token behind it may go on with the
expression at this tier but not at a tighter one. -/
structure ComesTo (T : Tier) (s : Bool) (i r : List Token) (e : Node) : Prop where
  comes : ∀ (budget : Nat) (c : Cursor), c.ahead = i →
    T.tighter.extendedBy s (nextKind r) = false →
    ((ofTier T s budget).run c).Comes (e.nesting ≤ budget) (·.ahead = r) (carryOn T s budget e)

/-- Where it ends, if the token behind the spelling does not go on with the expression. -/
structure EndsWith (T : Tier) (s : Bool) (i r : List Token) (e : Node) : Prop where
  comes : ∀ (budget : Nat) (c : Cursor), c.ahead = i → T.extendedBy s (nextKind r) = false →
    ((ofTier T s budget).run c).Comes (e.nesting ≤ budget) (·.ahead = r) (.done e)

theorem ComesTo.endsWith {T : Tier} {i r : List Token} {e : Node} (h : ComesTo T s i r e) :
    EndsWith T s i r e := by
  constructor
  intro budget c hc hstop
  have htighter : T.tighter.extendedBy s (nextKind r) = false :=
    Tier.not_extendedBy_of_rank_le (by cases T <;> decide) hstop
  refine (h.comes budget c hc htighter).step fun d hd => ⟨d, hd, carryOn_stop ?_⟩
  rw [hd]
  exact hstop

theorem assign_endsWith {i j r : List Token} {line : Int} {name : String} {eq : Token} {e : Node}
    (heq : eq.kind = .operator .assign) (htarget : EndsWith .logicOr s i (eq :: j) (.var line name))
    (hvalue : EndsWith .assignment s j r e) :
    EndsWith .assignment s i r (.assign line name e) := by
  constructor
  intro budget c hc hstop
  have htarget : ((logicOr s budget).run c).Comes (0 ≤ budget) (·.ahead = eq :: j)
      (.done (.var line name)) :=
    htarget.comes budget c hc (by rw [nextKind_cons, heq]; cases s <;> rfl)
  change ((assignment s budget).run c).Comes _ _ _
  rw [assignment_eq]
  refine ((Comes.bind htarget _).trans
    (G := Nesting.weight .assigned + e.nesting ≤ budget) ?_).congr (by simp [Node.nesting])
  intro _ d hd
  unfold assignTo
  rw [run_peek_bind, Cursor.peek_of_ahead hd, if_pos heq, run_advance_bind hd]
  have hvalue : ((deeper .assigned budget fun rest _ => assignment s rest).run d.advance).Comes
      (Nesting.weight .assigned + e.nesting ≤ budget) (·.ahead = r) (.done e) :=
    deeper_comes fun _ => hvalue.comes _ _ (Cursor.ahead_advance hd) hstop
  exact (Comes.bind hvalue _).step fun d hd => ⟨d, hd, rfl⟩

theorem value_endsWith {i r : List Token} {e : Node} (h : EndsWith .logicOr s i r e) :
    EndsWith .assignment s i r e := by
  constructor
  intro budget c hc hstop
  rw [Tier.extendedBy_assignment, Bool.or_eq_false_iff] at hstop
  change ((assignment s budget).run c).Comes _ _ _
  rw [assignment_eq]
  refine (Comes.bind (h.comes budget c hc hstop.2) _).step fun d hd => ⟨d, hd, ?_⟩
  unfold assignTo
  rw [run_peek_bind, Cursor.kind_peek, hd, if_neg (by simpa using hstop.1)]
  rfl

theorem operand_comesTo {T : Tier} (hT : T.isInfix = true) {i r : List Token} {e : Node}
    (h : EndsWith T.tighter s i r e) : ComesTo T s i r e := by
  constructor
  intro budget c hc hstop
  rw [ofTier_eq_leftFold hT, leftFold, carryOn_eq hT]
  exact Comes.bind (h.comes budget c hc hstop) _

theorem operation_comesTo {T : Tier} (hT : T.isInfix = true) {i j r : List Token} {op : Token}
    {e f : Node} (hop : T.operators s op.kind = true) (hleft : ComesTo T s i (op :: j) e)
    (hright : EndsWith T.tighter s j r f) : ComesTo T s i r (T.join op e f) := by
  constructor
  intro budget c hc hstop
  have hleft := hleft.comes budget c hc (Tier.not_extendedBy_of_operators hT hop)
  refine (hleft.trans (G := f.nesting ≤ budget) ?_).congr (by rw [nesting_join, Nat.max_le])
  intro _ d hd
  rw [carryOn_eq hT, carryOn_eq hT]
  -- The left operand came to the operator, where the loop takes one turn more.
  refine whileNextFrom_comes hd hop ?_
  exact (Comes.bind (hright.comes budget _ (Cursor.ahead_advance hd) hstop) _).step
    fun d hd => ⟨d, hd, rfl⟩

theorem unary_comesTo {i r : List Token} {op : Token} {e : Node} (hop : op.kind.isUnary = true)
    (h : EndsWith .unary s i r e) : ComesTo .unary s (op :: i) r (.unary op.line op.text e) := by
  constructor
  intro budget c hc hstop
  change ((unary s budget).run c).Comes _ _ _
  rw [unary, run_bind_of_done (run_accept_of_true hc hop)]
  have hoperand : ((deeper .operand budget fun rest _ => unary s rest).run c.advance).Comes
      (Nesting.weight .operand + e.nesting ≤ budget) (·.ahead = r) (.done e) :=
    deeper_comes fun _ =>
      h.comes _ _ (Cursor.ahead_advance hc) (by rw [Tier.extendedBy_unary]; exact hstop)
  exact (Comes.bind hoperand _).step fun d hd => ⟨d, hd, rfl⟩

theorem call_comesTo_unary {i r : List Token} {e : Node} (hspells : Spells .call s i r e)
    (h : EndsWith .call s i r e) : ComesTo .unary s i r e := by
  constructor
  intro budget c hc hstop
  have hno : (nextKind c.ahead).isUnary = false := by
    rw [hc]
    rcases hspells.start with hprimary | ⟨hrank, _⟩
    · revert hprimary
      unfold Kind.startsPrimary
      split <;> simp_all [Kind.isUnary]
    · exact absurd hrank (by decide)
  change ((unary s budget).run c).Comes _ _ _
  rw [unary, run_bind_of_done (run_accept_of_false hno)]
  exact h.comes budget c hc hstop

theorem callee_comesTo {i r : List Token} {e : Node} (h : EndsWith .primary s i r e) :
    ComesTo .call s i r e := by
  constructor
  intro budget c hc hstop
  change ((call budget).run c).Comes _ _ _
  rw [call_eq]
  exact Comes.bind (h.comes budget c hc hstop) _

/-- A call whose callee is read up to the parenthesis behind it is read if its arguments are. -/
theorem pass_comesTo {i j r : List Token} {opening closing : Token} {e : Node} {es : List Node}
    (hopen : opening.kind = .operator .lparen) (hclose : closing.kind = .operator .rparen)
    (h : ComesTo .call s i (opening :: j) e)
    (hes : ∀ (rest : Nat) (c : Cursor), c.ahead = j → ((arguments false rest).run c).Comes
      (Node.nestingWithin 0 es ≤ rest) (·.ahead = closing :: r) (.done es)) :
    ComesTo .call s i r (.call opening.line e es) := by
  constructor
  intro budget c hc _
  have hcallee := h.comes budget c hc (Tier.not_extendedBy_primary s _)
  refine (hcallee.trans
    (G := Nesting.weight .argument + Node.nestingWithin 0 es ≤ budget) ?_).congr
    (by rw [Node.nesting, Nat.max_le])
  intro _ d hd
  refine whileNextFrom_comes hd (by simp [hopen]) ?_
  have hpassed : ((deeper .argument budget fun rest _ => arguments false rest).run d.advance).Comes
      (Nesting.weight .argument + Node.nestingWithin 0 es ≤ budget) (·.ahead = closing :: r)
      (.done es) :=
    deeper_comes fun _ => hes _ _ (Cursor.ahead_advance hd)
  refine (Comes.bind hpassed _).step fun d₁ hd₁ => ⟨d₁.advance, Cursor.ahead_advance hd₁, ?_⟩
  rw [run_bind_of_done (run_expect hd₁ hclose _)]
  rfl

theorem arguments_comes_nil {r : List Token} {closing : Token}
    (hclose : closing.kind = .operator .rparen) (budget : Nat) (c : Cursor)
    (hc : c.ahead = closing :: r) :
    ((arguments false budget).run c).Comes (Node.nestingWithin 0 [] ≤ budget)
      (·.ahead = closing :: r) (.done []) := by
  rw [arguments, run_bind_of_done (run_unlessNext_of_eq (by simp [hc, hclose]) _)]
  exact .intro (Nat.zero_le _) hc rfl

/-- Arguments are read up to the parenthesis that closes them. -/
theorem arguments_comes {j r : List Token} {closing : Token} {es : List Node}
    (hclose : closing.kind = .operator .rparen)
    (hes : Separated (fun i r e => ∃ _ : Spells .assignment false i r e,
      EndsWith .assignment false i r e) j (closing :: r) es)
    (budget : Nat) (c : Cursor) (hc : c.ahead = j) :
    ((arguments false budget).run c).Comes (Node.nestingWithin 0 es ≤ budget)
      (·.ahead = closing :: r) (.done es) := by
  have hne : nextKind c.ahead ≠ .operator .rparen := by
    rcases hes.exists_first with ⟨k, e, hspells, _⟩
    rw [hc]
    exact hspells.nextKind_ne (by decide) (by decide)
  -- An argument ends in front of a comma or the closing parenthesis: neither goes on with it.
  have hread : ((commaSeparated (expression false budget)).run c).Comes
      (∀ e ∈ es, 0 + e.nesting ≤ budget) (·.ahead = closing :: r) (.done es) := by
    refine commaSeparated_comes (fun k => Tier.assignment.extendedBy false k = false) (by decide)
      ?_ hes (by rw [nextKind_cons, hclose]; decide) (by simp [hclose]) hc
    rintro i r e ⟨_, h⟩ hstop c hc
    rw [expression, Nat.zero_add]
    exact h.comes budget c hc hstop
  rw [arguments, run_bind, run_unlessNext_of_ne hne, ← run_bind]
  refine Outcome.Comes.congr ?_ Node.nestingWithin_le_iff.symm
  exact (Comes.bind (Comes.bind hread _) _).step fun d hd => ⟨d, hd, rfl⟩

/-- A primary expression of one token. -/
theorem atom_comesTo {r : List Token} {t : Token} {e : Node} (hnesting : e.nesting = 0)
    (hrun : ∀ (budget : Nat) (c : Cursor), c.ahead = t :: r →
      (primary budget).run c = .done e c.advance) : ComesTo .primary s (t :: r) r e := by
  constructor
  intro budget c hc _
  exact .intro (by omega) (Cursor.ahead_advance hc) (hrun budget c hc)

theorem grouping_comesTo {i r : List Token} {opening closing : Token} {e : Node}
    (hopen : opening.kind = .operator .lparen) (hclose : closing.kind = .operator .rparen)
    (h : EndsWith .assignment false i (closing :: r) e) :
    ComesTo .primary s (opening :: i) r (.grouping opening.line e) := by
  constructor
  intro budget c hc _
  change ((primary budget).run c).Comes _ _ _
  rw [primary, run_peek_bind, Cursor.peek_of_ahead hc, hopen]
  dsimp only
  rw [run_advance_bind hc]
  have hinner : ((deeper .grouping budget fun rest _ => expression false rest).run c.advance).Comes
      (Nesting.weight .grouping + e.nesting ≤ budget) (·.ahead = closing :: r) (.done e) :=
    deeper_comes fun _ => by
      rw [expression]
      exact h.comes _ _ (Cursor.ahead_advance hc) (by rw [nextKind_cons, hclose]; decide)
  refine (Comes.bind hinner _).step fun d hd => ⟨d.advance, Cursor.ahead_advance hd, ?_⟩
  rw [run_bind_of_done (run_expect hd hclose _)]
  rfl

theorem run_primary_of_number {t : Token} {v : Literal} (hkind : t.kind = .number)
    (hv : t.numberValue = .ok v) {r : List Token} (budget : Nat) (c : Cursor)
    (hc : c.ahead = t :: r) : (primary budget).run c = .done (.literal t.line v) c.advance := by
  rw [primary, run_peek_bind, Cursor.peek_of_ahead hc, hkind]
  dsimp only
  rw [run_advance_bind hc, hv]
  rfl

theorem run_primary_of_name {t : Token} (hkind : t.kind = .ident) {r : List Token} (budget : Nat)
    (c : Cursor) (hc : c.ahead = t :: r) :
    (primary budget).run c = .done (.var t.line t.text) c.advance := by
  rw [primary, run_peek_bind, Cursor.peek_of_ahead hc, hkind]
  rfl

theorem run_primary_of_literal {t : Token} {v : Literal} (hv : literalValue? t = some v)
    {r : List Token} (budget : Nat) (c : Cursor) (hc : c.ahead = t :: r) :
    (primary budget).run c = .done (.literal t.line v) c.advance := by
  have hcases : t.kind = .string ∨ t.kind = .keyword .true_ ∨ t.kind = .keyword .false_ ∨
      t.kind = .keyword .nil := by
    unfold literalValue? at hv
    split at hv <;> simp_all
  rw [primary, run_peek_bind, Cursor.peek_of_ahead hc]
  rcases hcases with hkind | hkind | hkind | hkind <;>
  · rw [hkind]
    dsimp only
    rw [hv]
    exact run_advance_bind hc _

end Grammar

open ScriptCheck.Grammar

namespace Spells

variable {T : Tier} {s : Bool} {i r : List Token} {e : Node}

/-- The rule of a tier comes to whatever the tokens ahead spell, and ends there if it may. -/
theorem comesTo_endsWith (h : Spells T s i r e) :
    (T ≠ .assignment → ComesTo T s i r e) ∧ EndsWith T s i r e := by
  -- The rule of assignments is not a loop: it is only known where it ends.
  have hboth : ∀ {T s i r e}, ComesTo T s i r e →
      (T ≠ .assignment → ComesTo T s i r e) ∧ EndsWith T s i r e :=
    fun h => ⟨fun _ => h, h.endsWith⟩
  induction h using Spells.induct with
  | assign _ heq _ ihTarget ihValue =>
    exact ⟨fun hne => absurd rfl hne, assign_endsWith heq ihTarget.2 ihValue.2⟩
  | value _ ih => exact ⟨fun hne => absurd rfl hne, value_endsWith ih.2⟩
  | operand hT _ ih => exact hboth (operand_comesTo hT ih.2)
  | operation hT _ hop _ ihLeft ihRight =>
    have hne : ∀ {T : Tier}, T.isInfix = true → T ≠ .assignment := by
      intro T hT heq
      simp [heq, Tier.isInfix] at hT
    exact hboth (operation_comesTo hT hop (ihLeft.1 (hne hT)) ihRight.2)
  | unary hop _ ih => exact hboth (unary_comesTo hop ih.2)
  | call hspells ih => exact hboth (call_comesTo_unary hspells ih.2)
  | callee _ ih => exact hboth (callee_comesTo ih.2)
  | passNone _ hopen hclose ih =>
    exact hboth (pass_comesTo hopen hclose (ih.1 (by decide)) (arguments_comes_nil hclose))
  | pass _ hopen hes hclose ih =>
    have hends : Separated (fun i r e => ∃ _ : Spells .assignment false i r e,
        EndsWith .assignment false i r e) _ _ _ := hes.mono fun _ _ _ he => ⟨he.1, he.2.2⟩
    exact hboth (pass_comesTo hopen hclose (ih.1 (by decide)) (arguments_comes hclose hends))
  | number hkind hv => exact hboth (atom_comesTo rfl (run_primary_of_number hkind hv))
  | literal hv => exact hboth (atom_comesTo rfl (run_primary_of_literal hv))
  | name hkind => exact hboth (atom_comesTo rfl (run_primary_of_name hkind))
  | grouping hopen _ hclose ih => exact hboth (grouping_comesTo hopen hclose ih.2)

/-- An expression in front of a token that does not go on with it is read, or nested too deeply. -/
theorem comes (h : Spells T s i r e) (hstop : T.extendedBy s (nextKind r) = false) (budget : Nat)
    {c : Cursor} (hc : c.ahead = i) :
    ((ofTier T s budget).run c).Comes (e.nesting ≤ budget) (·.ahead = r) (.done e) :=
  h.comesTo_endsWith.2.comes budget c hc hstop

end Spells

end ScriptCheck
