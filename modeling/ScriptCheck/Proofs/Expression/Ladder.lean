import ScriptCheck.Grammar.Expression

/-!
# The ladder of expression rules

The ten rules for expressions are one family over the tiers of the ladder. Six tiers are folds over
infix operators and differ only in the operators and in what an operator makes of its operands
(`Grammar.ofTier_eq_leftFold`). Which tokens may follow an expression without being taken into it is
told by `Tier.extendedBy`: a token that continues an expression of some tier continues those of all
looser tiers too.
-/

namespace ScriptCheck

/-- The tiers of the ladder. -/
inductive Tier where
  | assignment | logicOr | logicAnd | equality | comparison | term | factor | unary | call | primary
  deriving DecidableEq, Repr

namespace Tier

/-- How tight a tier binds. -/
def rank : Tier → Nat
  | assignment => 0 | logicOr => 1 | logicAnd => 2 | equality => 3 | comparison => 4 | term => 5
  | factor => 6 | unary => 7 | call => 8 | primary => 9

/-- The next tighter tier, if there is one. -/
def tighter : Tier → Tier
  | assignment => logicOr | logicOr => logicAnd | logicAnd => equality | equality => comparison
  | comparison => term | term => factor | factor => unary | unary => call
  | call => primary | primary => primary

/-- Whether the operators of a tier stand between operands of the next one. -/
def isInfix : Tier → Bool
  | logicOr | logicAnd | equality | comparison | term | factor => true
  | assignment | unary | call | primary => false

/-- The infix operators of a tier. -/
def operators (andSeparates : Bool) : Tier → Kind → Bool
  | logicOr => (· == .keyword .or_)
  | logicAnd => fun k => k == .keyword .and_ && !andSeparates
  | equality => Kind.isEquality
  | comparison => Kind.isComparison
  | term => Kind.isTerm
  | factor => Kind.isFactor
  | assignment | unary | call | primary => fun _ => false

/-- The expression that an operator of a tier makes. -/
def join : Tier → Token → Node → Node → Node
  | logicOr | logicAnd => Grammar.joinLogical
  | _ => Grammar.joinBinary

/-- The tier of the tokens that go on with an expression in front of them. -/
def ofKind? (andSeparates : Bool) : Kind → Option Tier
  | .operator .assign => some assignment
  | .keyword .or_ => some logicOr
  | .keyword .and_ => if andSeparates then none else some logicAnd
  | .operator .eq | .operator .ne => some equality
  | .operator .gt | .operator .ge | .operator .lt | .operator .le => some comparison
  | .operator .plus | .operator .minus => some term
  | .operator .slash | .operator .star | .operator .pow | .operator .coalesce => some factor
  | .operator .lparen => some call
  | _ => none

/-- Whether a token of the given kind goes on with an expression of the tier. -/
def extendedBy (andSeparates : Bool) (T : Tier) (k : Kind) : Bool :=
  (ofKind? andSeparates k).any (T.rank ≤ ·.rank)

theorem ofKind?_eq_assignment_iff (andSeparates : Bool) (k : Kind) :
    ofKind? andSeparates k = some assignment ↔ k = .operator .assign := by
  unfold ofKind?
  split <;> first | (split <;> simp) | simp_all

/-- Operators in front of an operand go on with nothing. -/
theorem ofKind?_ne_unary (andSeparates : Bool) (k : Kind) :
    ofKind? andSeparates k ≠ some unary := by
  unfold ofKind?
  split <;> simp

theorem operators_iff {T : Tier} (hT : T.isInfix = true) (andSeparates : Bool) (k : Kind) :
    T.operators andSeparates k = true ↔ ofKind? andSeparates k = some T := by
  cases k with
  | keyword w => cases w <;> cases andSeparates <;> cases T <;> simp_all [operators, ofKind?,
      isInfix, Kind.isEquality, Kind.isComparison, Kind.isTerm, Kind.isFactor]
  | operator op => cases op <;> cases T <;> simp_all [operators, ofKind?, isInfix,
      Kind.isEquality, Kind.isComparison, Kind.isTerm, Kind.isFactor]
  | _ => cases T <;> simp_all [operators, ofKind?, isInfix,
      Kind.isEquality, Kind.isComparison, Kind.isTerm, Kind.isFactor]

/-- What is an operator while `and` separates is one otherwise, too. -/
theorem operators_false {T : Tier} {andSeparates : Bool} {k : Kind}
    (h : T.operators andSeparates k = true) : T.operators false k = true := by
  cases T with
  | logicAnd =>
    simp only [operators, Bool.and_eq_true] at h
    simp only [operators, h.1]
    rfl
  | _ => exact h

theorem rank_tighter_of_isInfix {T : Tier} (hT : T.isInfix = true) :
    T.tighter.rank = T.rank + 1 := by
  cases T <;> first | rfl | simp [isInfix] at hT

/-- Induction up the ladder, from the tightest tier: the infix tiers are alike. -/
theorem induct {P : Tier → Prop} (primary : P .primary) (call : P .primary → P .call)
    (unary : P .call → P .unary)
    (operation : ∀ {T : Tier}, T.isInfix = true → P T.tighter → P T)
    (assignment : P .logicOr → P .assignment) (T : Tier) : P T := by
  have hunary := unary (call primary)
  have hfactor : P .factor := operation rfl hunary
  have hterm : P .term := operation rfl hfactor
  have hcomparison : P .comparison := operation rfl hterm
  have hequality : P .equality := operation rfl hcomparison
  have hand : P .logicAnd := operation rfl hequality
  have hor : P .logicOr := operation rfl hand
  cases T with
  | assignment => exact assignment hor
  | logicOr => exact hor
  | logicAnd => exact hand
  | equality => exact hequality
  | comparison => exact hcomparison
  | term => exact hterm
  | factor => exact hfactor
  | unary => exact hunary
  | call => exact call primary
  | primary => exact primary

theorem eq_of_rank_eq {T U : Tier} (h : T.rank = U.rank) : T = U := by
  cases T <;> cases U <;> first | rfl | simp [rank] at h

/-- What goes on with an expression of an infix tier is an operator of the tier, or goes on with the
operands as well. -/
theorem extendedBy_of_isInfix {T : Tier} (hT : T.isInfix = true) (andSeparates : Bool) (k : Kind) :
    T.extendedBy andSeparates k =
      (T.operators andSeparates k || T.tighter.extendedBy andSeparates k) := by
  have hop := operators_iff hT andSeparates k
  unfold extendedBy
  rw [rank_tighter_of_isInfix hT]
  cases hk : ofKind? andSeparates k with
  | none =>
    have hno : T.operators andSeparates k = false := by
      rw [← Bool.not_eq_true, hop, hk]
      simp
    simp [hno]
  | some U =>
    -- The token belongs to one tier only: this one, or another, whose rank is then not the same.
    by_cases hTU : U = T
    · have hyes : T.operators andSeparates k = true := hop.mpr (by rw [hk, hTU])
      simp [hyes, hTU]
    · have hno : T.operators andSeparates k = false := by
        rw [← Bool.not_eq_true, hop, hk]
        simpa using hTU
      have hne : T.rank ≠ U.rank := fun h => hTU (eq_of_rank_eq h).symm
      simp only [Option.any_some, hno, Bool.false_or, decide_eq_decide]
      omega

/-- An operator of an infix tier does not go on with operands of the next tier. -/
theorem not_extendedBy_of_operators {T : Tier} (hT : T.isInfix = true) {andSeparates : Bool}
    {k : Kind} (hk : T.operators andSeparates k = true) :
    T.tighter.extendedBy andSeparates k = false := by
  have hrank := rank_tighter_of_isInfix hT
  simp only [extendedBy, (operators_iff hT andSeparates k).mp hk, Option.any_some,
    decide_eq_false_iff_not]
  omega

theorem not_extendedBy_primary (andSeparates : Bool) (k : Kind) :
    primary.extendedBy andSeparates k = false := by
  unfold extendedBy ofKind?
  split <;> first | rfl | (split <;> rfl)

theorem extendedBy_call (andSeparates : Bool) (k : Kind) :
    call.extendedBy andSeparates k = (k == .operator .lparen) := by
  unfold extendedBy ofKind?
  split <;> first | rfl | (split <;> rfl) | simp_all

theorem extendedBy_unary (andSeparates : Bool) (k : Kind) :
    unary.extendedBy andSeparates k = call.extendedBy andSeparates k := by
  have hne := ofKind?_ne_unary andSeparates k
  unfold extendedBy
  cases hk : ofKind? andSeparates k with
  | none => rfl
  | some U =>
    -- No token that goes on with an expression is of the unary tier, so the two bounds on its rank
    -- agree.
    have hU : unary.rank ≠ U.rank := by
      intro h
      rw [hk, eq_of_rank_eq h] at hne
      exact hne rfl
    simp only [Option.any_some, decide_eq_decide]
    have hunary : unary.rank = 7 := rfl
    have hcall : call.rank = 8 := rfl
    omega

/-- Beside what goes on with any value, `=` goes on with a target. -/
theorem extendedBy_assignment (andSeparates : Bool) (k : Kind) :
    assignment.extendedBy andSeparates k =
      (k == .operator .assign || logicOr.extendedBy andSeparates k) := by
  have heq := ofKind?_eq_assignment_iff andSeparates k
  unfold extendedBy
  cases hk : ofKind? andSeparates k with
  | none =>
    have hne : k ≠ .operator .assign := fun h => by simp [hk] at heq; exact heq h
    simpa using hne
  | some U =>
    by_cases hU : U = assignment
    · have hk' := heq.mp (by rw [hk, hU])
      simp [hk', hU]
    · have hne : k ≠ .operator .assign := fun h => by simp [hk] at heq; exact hU (heq.mpr h)
      cases U <;> simp_all [rank]

/-- An expression in tighter context is left off wherever one in looser context is. -/
theorem not_extendedBy_of_rank_le {T U : Tier} (h : T.rank ≤ U.rank) {andSeparates : Bool}
    {k : Kind} (hk : T.extendedBy andSeparates k = false) :
    U.extendedBy andSeparates k = false := by
  unfold extendedBy at hk ⊢
  cases hofk : ofKind? andSeparates k with
  | none => rfl
  | some V =>
    rw [hofk] at hk
    simp only [Option.any_some, decide_eq_false_iff_not] at hk ⊢
    omega

end Tier

namespace Grammar

/-- The rule of a tier. -/
def ofTier : Tier → (andSeparates : Bool) → (budget : Nat) → Rule Node
  | .assignment => assignment
  | .logicOr => logicOr
  | .logicAnd => logicAnd
  | .equality => equality
  | .comparison => comparison
  | .term => term
  | .factor => factor
  | .unary => unary
  | .call => fun _ => call
  | .primary => fun _ => primary

/-- The rules of the infix tiers are folds over the operators of the tier. -/
theorem ofTier_eq_leftFold {T : Tier} (hT : T.isInfix = true) (andSeparates : Bool) (budget : Nat) :
    ofTier T andSeparates budget =
      leftFold (ofTier T.tighter andSeparates budget) (T.operators andSeparates) T.join := by
  cases T with
  | logicOr => exact logicOr.eq_1 andSeparates budget
  | logicAnd => exact logicAnd.eq_1 andSeparates budget
  | equality => exact equality.eq_1 andSeparates budget
  | comparison => exact comparison.eq_1 andSeparates budget
  | term => exact term.eq_1 andSeparates budget
  | factor => exact factor.eq_1 andSeparates budget
  | _ => simp [Tier.isInfix] at hT

end Grammar

end ScriptCheck
