import ScriptCheck.Proofs.Expression.Ladder
import ScriptCheck.Proofs.Reading.Repetition

/-!
# How tokens spell expressions

`Spells T s i r e` says that the tokens of `i` in front of `r` spell the expression `e` of the tier
`T`, lines included. It follows the ladder and leaves nothing to chance: the tokens fix the tree.
What it does not say is where a spelling ends, since a longer one may start at the same place.

As a spelling contains lists of spellings, its induction principle is stated here once
(`Spells.induct`), with one case for each constructor.
-/

namespace ScriptCheck

/-- The kinds of token that a primary expression starts with. -/
def Kind.startsPrimary : Kind → Bool
  | .number | .string | .ident | .operator .lparen
  | .keyword .true_ | .keyword .false_ | .keyword .nil => true
  | _ => false

/-- The kinds of token that expressions are made of. -/
def Kind.isInExpression : Kind → Bool
  | .number | .string | .ident | .operator _
  | .keyword .and_ | .keyword .or_ | .keyword .true_ | .keyword .false_ | .keyword .nil => true
  | _ => false

theorem Kind.isInExpression_of_startsPrimary {k : Kind} (h : k.startsPrimary = true) :
    k.isInExpression = true := by
  unfold Kind.startsPrimary at h
  split at h <;> first | rfl | simp at h

theorem Kind.isInExpression_of_isUnary {k : Kind} (h : k.isUnary = true) :
    k.isInExpression = true := by
  unfold Kind.isUnary at h
  split at h <;> first | rfl | simp at h

theorem Kind.isInExpression_of_operators {T : Tier} (hT : T.isInfix = true) {s : Bool} {k : Kind}
    (h : T.operators s k = true) : k.isInExpression = true := by
  rw [Tier.operators_iff hT] at h
  unfold Tier.ofKind? at h
  split at h <;> first | rfl | simp at h

theorem Kind.ne_of_isUnary {k l : Kind} (hk : k.isUnary = true) (hl : l.isUnary = false) :
    k ≠ l := by
  rintro rfl
  rw [hk] at hl
  exact absurd hl (by decide)

/-- The end of the input is not of the kinds that expressions are made of. -/
theorem Spans.takes {i r : List Token} (h : Spans (·.kind.isInExpression = true) i r) :
    Spans (·.kind ≠ .eof) i r := by
  refine h.mono fun t ht hkind => ?_
  rw [hkind] at ht
  exact absurd ht (by decide)

/-- In front of `r`, the tokens of `i` spell the expression `e` of the tier `T`. -/
inductive Spells : (T : Tier) → (andSeparates : Bool) → (i r : List Token) → (e : Node) →
    Prop where
  | assign {s : Bool} {i j r : List Token} {line : Int} {name : String} {eq : Token} {e : Node} :
      Spells .logicOr s i (eq :: j) (.var line name) → eq.kind = .operator .assign →
      Spells .assignment s j r e → Spells .assignment s i r (.assign line name e)
  | value {s : Bool} {i r : List Token} {e : Node} :
      Spells .logicOr s i r e → Spells .assignment s i r e
  | operand {T : Tier} {s : Bool} {i r : List Token} {e : Node} :
      T.isInfix = true → Spells T.tighter s i r e → Spells T s i r e
  | operation {T : Tier} {s : Bool} {i j r : List Token} {op : Token} {e f : Node} :
      T.isInfix = true → Spells T s i (op :: j) e → T.operators s op.kind = true →
      Spells T.tighter s j r f → Spells T s i r (T.join op e f)
  | unary {s : Bool} {i r : List Token} {op : Token} {e : Node} :
      op.kind.isUnary = true → Spells .unary s i r e →
      Spells .unary s (op :: i) r (.unary op.line op.text e)
  | call {s : Bool} {i r : List Token} {e : Node} :
      Spells .call s i r e → Spells .unary s i r e
  | callee {s : Bool} {i r : List Token} {e : Node} :
      Spells .primary s i r e → Spells .call s i r e
  | passNone {s : Bool} {i r : List Token} {opening closing : Token} {e : Node} :
      Spells .call s i (opening :: closing :: r) e → opening.kind = .operator .lparen →
      closing.kind = .operator .rparen → Spells .call s i r (.call opening.line e [])
  | pass {s : Bool} {i j r : List Token} {opening closing : Token} {e : Node} {es : List Node} :
      Spells .call s i (opening :: j) e → opening.kind = .operator .lparen →
      Separated (Spells .assignment false) j (closing :: r) es →
      closing.kind = .operator .rparen → Spells .call s i r (.call opening.line e es)
  | number {s : Bool} {r : List Token} {t : Token} {v : Literal} :
      t.kind = .number → t.numberValue = .ok v → Spells .primary s (t :: r) r (.literal t.line v)
  | literal {s : Bool} {r : List Token} {t : Token} {v : Literal} :
      Grammar.literalValue? t = some v → Spells .primary s (t :: r) r (.literal t.line v)
  | name {s : Bool} {r : List Token} {t : Token} :
      t.kind = .ident → Spells .primary s (t :: r) r (.var t.line t.text)
  | grouping {s : Bool} {i r : List Token} {opening closing : Token} {e : Node} :
      opening.kind = .operator .lparen → Spells .assignment false i (closing :: r) e →
      closing.kind = .operator .rparen →
      Spells .primary s (opening :: i) r (.grouping opening.line e)

namespace Spells

section

variable {P : ∀ T s i r e, Spells T s i r e → Prop}
  (assign : ∀ {s i j r line name} {eq : Token} {e}
    (h : Spells .logicOr s i (eq :: j) (.var line name)) (heq : eq.kind = .operator .assign)
    (he : Spells .assignment s j r e), P _ _ _ _ _ h → P _ _ _ _ _ he →
    P _ _ _ _ _ (.assign h heq he))
  (value : ∀ {s i r e} (h : Spells .logicOr s i r e), P _ _ _ _ _ h → P _ _ _ _ _ (.value h))
  (operand : ∀ {T : Tier} {s i r e} (hT : T.isInfix = true) (h : Spells T.tighter s i r e),
    P _ _ _ _ _ h → P _ _ _ _ _ (.operand hT h))
  (operation : ∀ {T : Tier} {s i j r} {op : Token} {e f} (hT : T.isInfix = true)
    (he : Spells T s i (op :: j) e) (hop : T.operators s op.kind = true)
    (hf : Spells T.tighter s j r f),
    P _ _ _ _ _ he → P _ _ _ _ _ hf → P _ _ _ _ _ (.operation hT he hop hf))
  (unary : ∀ {s i r} {op : Token} {e} (hop : op.kind.isUnary = true) (h : Spells .unary s i r e),
    P _ _ _ _ _ h → P _ _ _ _ _ (.unary hop h))
  (call : ∀ {s i r e} (h : Spells .call s i r e), P _ _ _ _ _ h → P _ _ _ _ _ (.call h))
  (callee : ∀ {s i r e} (h : Spells .primary s i r e), P _ _ _ _ _ h → P _ _ _ _ _ (.callee h))
  (passNone : ∀ {s i r opening closing e} (h : Spells .call s i (opening :: closing :: r) e)
    (hopen : opening.kind = .operator .lparen) (hclose : closing.kind = .operator .rparen),
    P _ _ _ _ _ h → P _ _ _ _ _ (.passNone h hopen hclose))
  (pass : ∀ {s i j r opening closing e es} (h : Spells .call s i (opening :: j) e)
    (hopen : opening.kind = .operator .lparen)
    (hes : Separated (fun i r e => ∃ h : Spells .assignment false i r e, P _ _ _ _ _ h)
      j (closing :: r) es)
    (hclose : closing.kind = .operator .rparen), P _ _ _ _ _ h →
    P _ _ _ _ _ (.pass h hopen (hes.mono fun _ _ _ he => he.1) hclose))
  (number : ∀ {s r} {t : Token} {v} (hkind : t.kind = .number) (hv : t.numberValue = .ok v),
    P _ s _ r _ (.number hkind hv))
  (literal : ∀ {s r t v} (hv : Grammar.literalValue? t = some v), P _ s _ r _ (.literal hv))
  (name : ∀ {s r} {t : Token} (hkind : t.kind = .ident), P _ s _ r _ (.name hkind))
  (grouping : ∀ {s i r} {opening closing : Token} {e} (hopen : opening.kind = .operator .lparen)
    (h : Spells .assignment false i (closing :: r) e) (hclose : closing.kind = .operator .rparen),
    P _ _ _ _ _ h → P _ s _ _ _ (.grouping hopen h hclose))

include assign value operand operation unary call callee passNone pass number literal name grouping

/-- Induction on a spelling: what every way to spell an expression hands on holds of all. -/
theorem induct {T : Tier} {s : Bool} {i r : List Token} {e : Node} (h : Spells T s i r e) :
    P T s i r e h :=
  @Spells.rec P
    (fun i r es _ =>
      Separated (fun i r e => ∃ h : Spells .assignment false i r e, P _ _ _ _ _ h) i r es)
    assign value operand operation unary call callee passNone
    (fun h hopen _ hclose ih ihes => pass h hopen ihes hclose ih)
    number literal name grouping
    (fun h ih => .one ⟨h, ih⟩)
    (fun h hcomma _ ih ihes => .more ⟨h, ih⟩ hcomma ihes)
    T s i r e h

end

/-! ## Where a spelling starts and ends -/

variable {T : Tier} {s : Bool} {i r : List Token} {e : Node}

theorem startsPrimary_of_literalValue? {t : Token} {v : Literal}
    (h : Grammar.literalValue? t = some v) : t.kind.startsPrimary = true := by
  unfold Grammar.literalValue? at h
  split at h <;> simp_all [Kind.startsPrimary]

/-- Only operands may have operators in front. -/
theorem start (h : Spells T s i r e) :
    (nextKind i).startsPrimary = true ∨
      (T.rank ≤ Tier.unary.rank ∧ (nextKind i).isUnary = true) := by
  induction h using Spells.induct with
  | assign _ _ _ ih _ =>
    rcases ih with hprimary | ⟨_, hunary⟩
    · exact Or.inl hprimary
    · exact Or.inr ⟨by decide, hunary⟩
  | value _ ih =>
    rcases ih with hprimary | ⟨_, hunary⟩
    · exact Or.inl hprimary
    · exact Or.inr ⟨by decide, hunary⟩
  | operand hT _ ih =>
    rcases ih with hprimary | ⟨hle, hunary⟩
    · exact Or.inl hprimary
    · rw [Tier.rank_tighter_of_isInfix hT] at hle
      exact Or.inr ⟨by omega, hunary⟩
  | operation _ _ _ _ ih _ => exact ih
  | unary hop _ _ => exact Or.inr ⟨Nat.le_refl _, hop⟩
  | call _ ih =>
    rcases ih with hprimary | ⟨_, hunary⟩
    · exact Or.inl hprimary
    · exact Or.inr ⟨Nat.le_refl _, hunary⟩
  | callee _ ih =>
    rcases ih with hprimary | ⟨hle, _⟩
    · exact Or.inl hprimary
    · exact absurd hle (by decide)
  | passNone _ _ _ ih => exact ih
  | pass _ _ _ _ ih => exact ih
  | number hkind _ => exact Or.inl (by simp [hkind, Kind.startsPrimary])
  | literal hv => exact Or.inl (startsPrimary_of_literalValue? hv)
  | name hkind => exact Or.inl (by simp [hkind, Kind.startsPrimary])
  | grouping hopen _ _ _ => exact Or.inl (by simp [hopen, Kind.startsPrimary])

/-- A token that starts no expression starts no spelling. -/
theorem nextKind_ne (h : Spells T s i r e) {k : Kind} (hprimary : k.startsPrimary = false)
    (hunary : k.isUnary = false) : nextKind i ≠ k := by
  intro hk
  rcases h.start with hstart | ⟨_, hstart⟩
  · rw [hk, hprimary] at hstart
    exact absurd hstart (by decide)
  · rw [hk, hunary] at hstart
    exact absurd hstart (by decide)

/-- A spelling takes tokens, all of which are of kinds that expressions are made of. -/
theorem inExpression (h : Spells T s i r e) : Spans (·.kind.isInExpression = true) i r := by
  have hone : ∀ {t : Token} {k : Kind} (r : List Token), t.kind = k → k.isInExpression = true →
      Spans (·.kind.isInExpression = true) (t :: r) r := by
    intro t k r ht hk
    exact .one (ht ▸ hk) r
  induction h using Spells.induct with
  | assign _ heq _ ih ihValue => exact (ih.trans (hone _ heq rfl)).trans ihValue
  | value _ ih => exact ih
  | operand _ _ ih => exact ih
  | operation hT _ hop _ ih ihRight =>
    exact (ih.trans (.one (Kind.isInExpression_of_operators hT hop) _)).trans ihRight
  | unary hop _ ih => exact .trans (.one (Kind.isInExpression_of_isUnary hop) _) ih
  | call _ ih => exact ih
  | callee _ ih => exact ih
  | passNone _ hopen hclose ih => exact (ih.trans (hone _ hopen rfl)).trans (hone _ hclose rfl)
  | pass _ hopen hes hclose ih =>
    have hpassed := hes.spans (Q := (·.kind.isInExpression = true)) (fun _ _ _ he => he.2)
      fun t ht => by rw [ht]; rfl
    exact ((ih.trans (hone _ hopen rfl)).trans hpassed).trans (hone _ hclose rfl)
  | number hkind _ => exact hone _ hkind rfl
  | literal hv =>
    exact .one (Kind.isInExpression_of_startsPrimary (startsPrimary_of_literalValue? hv)) _
  | name hkind => exact hone _ hkind rfl
  | grouping hopen _ hclose ih =>
    exact (Spans.trans (hone _ hopen rfl) ih).trans (hone _ hclose rfl)

/-- No end of line is among them. -/
theorem spans (h : Spells T s i r e) : Spans (·.kind ≠ .eol) i r := by
  refine h.inExpression.mono fun t ht hkind => ?_
  rw [hkind] at ht
  exact absurd ht (by decide)

/-- Nor is an end of the input. -/
theorem takes (h : Spells T s i r e) : Spans (·.kind ≠ .eof) i r :=
  h.inExpression.takes

/-- What stands behind a spelling is no matter to it. -/
theorem detach (h : Spells T s i r e) : ∃ v, i = v ++ r ∧ ∀ r', Spells T s (v ++ r') r' e := by
  induction h using Spells.induct with
  | @assign s i j r line name eq e _ heq _ ih ihValue =>
    rcases ih with ⟨v, rfl, hv⟩
    rcases ihValue with ⟨w, rfl, hw⟩
    refine ⟨v ++ eq :: w, by simp, fun r' => ?_⟩
    simpa using Spells.assign (hv (eq :: (w ++ r'))) heq (hw r')
  | value _ ih =>
    rcases ih with ⟨v, hi, hv⟩
    exact ⟨v, hi, fun r' => .value (hv r')⟩
  | operand hT _ ih =>
    rcases ih with ⟨v, hi, hv⟩
    exact ⟨v, hi, fun r' => .operand hT (hv r')⟩
  | @operation T s i j r op e f hT _ hop _ ih ihRight =>
    rcases ih with ⟨v, rfl, hv⟩
    rcases ihRight with ⟨w, rfl, hw⟩
    refine ⟨v ++ op :: w, by simp, fun r' => ?_⟩
    simpa using Spells.operation hT (hv (op :: (w ++ r'))) hop (hw r')
  | @unary s i r op e hop _ ih =>
    rcases ih with ⟨v, rfl, hv⟩
    exact ⟨op :: v, rfl, fun r' => .unary hop (hv r')⟩
  | call _ ih =>
    rcases ih with ⟨v, hi, hv⟩
    exact ⟨v, hi, fun r' => .call (hv r')⟩
  | callee _ ih =>
    rcases ih with ⟨v, hi, hv⟩
    exact ⟨v, hi, fun r' => .callee (hv r')⟩
  | @passNone s i r opening closing e _ hopen hclose ih =>
    rcases ih with ⟨v, rfl, hv⟩
    refine ⟨v ++ [opening, closing], by simp, fun r' => ?_⟩
    simpa using Spells.passNone (hv (opening :: closing :: r')) hopen hclose
  | @pass s i j r opening closing e es _ hopen hes hclose ih =>
    rcases ih with ⟨v, rfl, hv⟩
    rcases hes.detach (fun _ _ _ he => he.2) with ⟨w, rfl, hw⟩
    refine ⟨v ++ opening :: (w ++ [closing]), by simp, fun r' => ?_⟩
    have hpassed := hw (closing :: r')
    simpa using Spells.pass (hv (opening :: (w ++ closing :: r'))) hopen hpassed hclose
  | @number s r t v hkind hv => exact ⟨[t], rfl, fun _ => .number hkind hv⟩
  | @literal s r t v hv => exact ⟨[t], rfl, fun _ => .literal hv⟩
  | @name s r t hkind => exact ⟨[t], rfl, fun _ => .name hkind⟩
  | @grouping s i r opening closing e hopen _ hclose ih =>
    rcases ih with ⟨v, rfl, hv⟩
    refine ⟨opening :: (v ++ [closing]), by simp, fun r' => ?_⟩
    simpa using Spells.grouping (s := s) hopen (hv (closing :: r')) hclose

/-- Neither are further tokens. -/
theorem append (h : Spells T s i r e) (more : List Token) :
    Spells T s (i ++ more) (r ++ more) e := by
  rcases h.detach with ⟨v, rfl, hv⟩
  rw [List.append_assoc]
  exact hv (r ++ more)

/-- An expression is one of every looser tier, too. -/
theorem loosen {U : Tier} (h : Spells U s i r e) (hle : T.rank ≤ U.rank) : Spells T s i r e := by
  have hstep : ∀ T : Tier, Spells T.tighter s i r e → Spells T s i r e := by
    intro T hT
    cases T with
    | assignment => exact .value hT
    | unary => exact .call hT
    | call => exact .callee hT
    | primary => exact hT
    | _ => exact .operand rfl hT
  -- One tier after another is passed on the way down the ladder.
  generalize hn : U.rank - T.rank = n
  induction n generalizing T with
  | zero => exact Tier.eq_of_rank_eq (T := T) (U := U) (by omega) ▸ h
  | succ n ih =>
    have hrank : T.tighter.rank = T.rank + 1 := by
      have hbound : U.rank ≤ 9 := by cases U <;> decide
      cases T <;> first | rfl | (simp only [Tier.rank] at hn hbound; omega)
    exact hstep T (ih (by omega) (by omega))

/-- Only a name spells a name. -/
theorem of_var {line : Int} {name : String} (h : Spells T s i r (.var line name)) :
    ∃ t, i = t :: r ∧ t.kind = .ident ∧ t.line = line ∧ t.text = name := by
  generalize hn : Node.var line name = n at h
  induction h using Spells.induct with
  | value _ ih => exact ih hn
  | operand _ _ ih => exact ih hn
  | call _ ih => exact ih hn
  | callee _ ih => exact ih hn
  | name hkind =>
    cases hn
    exact ⟨_, rfl, hkind, rfl, rfl⟩
  | @operation T _ _ _ _ _ _ _ _ _ _ _ _ _ =>
    cases T <;> simp [Tier.join, Grammar.joinLogical, Grammar.joinBinary] at hn
  | _ => simp at hn

end Spells

end ScriptCheck
