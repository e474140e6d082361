import ScriptCheck.Proofs.Expression.Spelling
import ScriptCheck.Proofs.Grammar.Failure

/-!
# The ladder as a grammar

`Tier.Derives` is the ladder of expressions as a grammar on kinds of token, without trees, places or
lookahead. A word of it is what tokens spell (`Spells.exists_word`), and any tokens of such kinds
spell something (`Tier.Derives.exists_spells`).

The clauses of a `for` are expressions without an `and` outside their own parentheses: `bareAnd`
looks for one and counts parentheses on the way.
-/

namespace ScriptCheck

/-- The kinds of token that are an expression on their own. -/
def Kind.isAtom : Kind → Bool
  | .number | .string | .ident | .keyword .true_ | .keyword .false_ | .keyword .nil => true
  | _ => false

/-- The words of the ladder. -/
inductive Tier.Derives : Tier → List Kind → Prop where
  /-- `assignment → IDENT "=" assignment` -/
  | assign {w : List Kind} :
      Derives .assignment w → Derives .assignment (.ident :: .operator .assign :: w)
  /-- `assignment → logicOr` -/
  | value {w : List Kind} : Derives .logicOr w → Derives .assignment w
  /-- A word of the next tier is one of an infix tier. -/
  | operand {T : Tier} {w : List Kind} : T.isInfix = true → Derives T.tighter w → Derives T w
  /-- An operator of the tier stands behind a word of it and in front of one of the next tier. -/
  | operation {T : Tier} {v w : List Kind} {op : Kind} :
      T.isInfix = true → Derives T v → T.operators false op = true → Derives T.tighter w →
      Derives T (v ++ op :: w)
  /-- `unary → ("!" | "-") unary` -/
  | unary {w : List Kind} {op : Kind} :
      op.isUnary = true → Derives .unary w → Derives .unary (op :: w)
  /-- `unary → call` -/
  | call {w : List Kind} : Derives .call w → Derives .unary w
  /-- `call → primary` -/
  | callee {w : List Kind} : Derives .primary w → Derives .call w
  /-- `call → call "(" arguments? ")"` -/
  | pass {w : List Kind} {arguments : List (List Kind)} :
      Derives .call w → (∀ v ∈ arguments, Derives .assignment v) →
      Derives .call (w ++ .operator .lparen ::
        ([Kind.operator .comma].intercalate arguments ++ [.operator .rparen]))
  /-- `primary → NUMBER | STRING | "true" | "false" | "nil" | IDENT` -/
  | atom {k : Kind} : k.isAtom = true → Derives .primary [k]
  /-- `primary → "(" expression ")"` -/
  | grouping {w : List Kind} :
      Derives .assignment w → Derives .primary (.operator .lparen :: (w ++ [.operator .rparen]))

/-- Whether there is an `and` outside all parentheses, where `depth` of them are open in front. -/
def bareAnd (depth : Nat) : List Kind → Bool
  | [] => false
  | .operator .lparen :: w => bareAnd (depth + 1) w
  | .operator .rparen :: w => bareAnd (depth - 1) w
  | .keyword .and_ :: w => depth == 0 || bareAnd depth w
  | _ :: w => bareAnd depth w

/-! ## Bare `and` in words of the ladder -/

theorem bareAnd_cons {k : Kind} (hopen : k ≠ .operator .lparen) (hclose : k ≠ .operator .rparen)
    (depth : Nat) (w : List Kind) :
    bareAnd depth (k :: w) = ((k == .keyword .and_ && depth == 0) || bareAnd depth w) := by
  by_cases hand : k = .keyword .and_
  · subst hand
    simp [bareAnd]
  · conv => lhs; unfold bareAnd
    split <;> simp_all

/-- Whether a word closes the parentheses that it opens: what follows it is looked through with as
many open as before. -/
def Balanced (w : List Kind) : Prop :=
  (∀ v, bareAnd 0 (w ++ v) = (bareAnd 0 w || bareAnd 0 v)) ∧
    ∀ depth v, bareAnd (depth + 1) (w ++ v) = bareAnd (depth + 1) v

namespace Balanced

theorem nil : Balanced [] :=
  ⟨fun _ => rfl, fun _ _ => rfl⟩

theorem append {v w : List Kind} (hv : Balanced v) (hw : Balanced w) : Balanced (v ++ w) := by
  constructor
  · intro u
    rw [List.append_assoc, hv.1, hw.1, hv.1, Bool.or_assoc]
  · intro depth u
    rw [List.append_assoc, hv.2, hw.2]

/-- A token other than a parenthesis. -/
theorem one {k : Kind} (hopen : k ≠ .operator .lparen) (hclose : k ≠ .operator .rparen) :
    Balanced [k] := by
  constructor
  · intro v
    rw [List.singleton_append, bareAnd_cons hopen hclose, bareAnd_cons hopen hclose]
    simp [bareAnd]
  · intro depth v
    rw [List.singleton_append, bareAnd_cons hopen hclose]
    simp

theorem cons {k : Kind} (hopen : k ≠ .operator .lparen) (hclose : k ≠ .operator .rparen)
    {w : List Kind} (hw : Balanced w) : Balanced (k :: w) :=
  (one hopen hclose).append hw

/-- A balanced word in parentheses is balanced, and holds no bare `and`. -/
theorem parentheses {w : List Kind} (hw : Balanced w) :
    Balanced (.operator .lparen :: (w ++ [.operator .rparen])) := by
  constructor
  · intro v
    simp only [List.cons_append, List.append_assoc, List.nil_append, bareAnd]
    rw [hw.2, hw.2]
    simp [bareAnd]
  · intro depth v
    simp only [List.cons_append, List.append_assoc, List.nil_append, bareAnd]
    rw [hw.2]
    simp [bareAnd]

theorem bareAnd_parentheses {w : List Kind} (hw : Balanced w) :
    bareAnd 0 (.operator .lparen :: (w ++ [.operator .rparen])) = false := by
  simp only [bareAnd]
  rw [hw.2]
  rfl

end Balanced

/-- Words with commas between them. -/
theorem balanced_intercalate {ws : List (List Kind)} (h : ∀ w ∈ ws, Balanced w) :
    Balanced ([Kind.operator .comma].intercalate ws) := by
  induction ws with
  | nil => exact Balanced.nil
  | cons w ws ih =>
    have hw := h w (by simp)
    have hws := ih fun v hv => h v (by simp [hv])
    cases ws with
    | nil => simpa using hw
    | cons v ws =>
      rw [List.intercalate_cons_cons, List.append_assoc]
      exact hw.append (.append (.one (k := .operator .comma) (by decide) (by decide)) hws)

namespace Tier

theorem ne_parenthesis_of_operators {T : Tier} (hT : T.isInfix = true) {s : Bool} {k : Kind}
    (hk : T.operators s k = true) : k ≠ .operator .lparen ∧ k ≠ .operator .rparen := by
  constructor <;> rintro rfl <;> cases T <;>
    simp_all [operators, isInfix, Kind.isEquality, Kind.isComparison, Kind.isTerm, Kind.isFactor]

theorem Derives.balanced {T : Tier} {w : List Kind} (h : T.Derives w) : Balanced w := by
  induction h with
  | assign _ ih =>
    exact .cons (k := .ident) (by decide) (by decide)
      (.cons (k := .operator .assign) (by decide) (by decide) ih)
  | value _ ih => exact ih
  | operand _ _ ih => exact ih
  | operation hT _ hop _ ih ihRight =>
    rcases ne_parenthesis_of_operators hT hop with ⟨hopen, hclose⟩
    exact ih.append (.cons hopen hclose ihRight)
  | unary hop _ ih => exact .cons (Kind.ne_of_isUnary hop rfl) (Kind.ne_of_isUnary hop rfl) ih
  | call _ ih => exact ih
  | callee _ ih => exact ih
  | pass _ _ ih ihArguments => exact ih.append (balanced_intercalate ihArguments).parentheses
  | @atom k hk =>
    have hne : k ≠ .operator .lparen ∧ k ≠ .operator .rparen := by
      constructor <;> rintro rfl <;> simp [Kind.isAtom] at hk
    exact .one hne.1 hne.2
  | grouping _ ih => exact ih.parentheses

end Tier

/-! ## Words and spellings -/

/-- The arguments of a call are words with commas between them. -/
theorem separated_words {i r : List Token} {es : List Node}
    (h : Separated (fun i r e => ∃ _ : Spells .assignment false i r e,
      ∃ ks, Segment Token.kind ks i r ∧ Tier.Derives .assignment ks ∧
        (false = true → bareAnd 0 ks = false)) i r es) :
    ∃ ws : List (List Kind), Segment Token.kind ([Kind.operator .comma].intercalate ws) i r ∧
      ws ≠ [] ∧ ∀ w ∈ ws, Tier.Derives .assignment w := by
  induction h with
  | one he =>
    rcases he with ⟨_, ks, hsegment, hderives, -⟩
    exact ⟨[ks], by simpa using hsegment, by simp, by simpa using hderives⟩
  | @more i j r comma a as he hcomma _ ih =>
    rcases he with ⟨_, ks, hsegment, hderives, -⟩
    rcases ih with ⟨ws, hrest, hne, hws⟩
    refine ⟨ks :: ws, ?_, by simp, ?_⟩
    · rw [List.intercalate_cons_of_ne_nil hne, List.append_assoc]
      exact hsegment.append ((Segment.one hcomma j).append hrest)
    · intro w hw
      rcases List.mem_cons.mp hw with rfl | hw
      · exact hderives
      · exact hws w hw

/-- What is spelled is a word of the ladder, and while `and` separates, it holds no bare one. -/
theorem Spells.exists_word {T : Tier} {s : Bool} {i r : List Token} {e : Node}
    (h : Spells T s i r e) :
    ∃ ks, Segment Token.kind ks i r ∧ T.Derives ks ∧ (s = true → bareAnd 0 ks = false) := by
  induction h using Spells.induct with
  -- The target is a single name, so its word is known.
  | @assign s i j r line name eq e h heq he ih ihValue =>
    rcases h.of_var with ⟨t, rfl, ht, -, -⟩
    rcases ihValue with ⟨ks, hsegment, hderives, hbare⟩
    refine ⟨.ident :: .operator .assign :: ks, ?_, .assign hderives, ?_⟩
    · exact (Segment.one ht _).append ((Segment.one heq j).append hsegment)
    · intro hs
      simpa [bareAnd] using hbare hs
  | value _ ih =>
    rcases ih with ⟨ks, hsegment, hderives, hbare⟩
    exact ⟨ks, hsegment, .value hderives, hbare⟩
  | operand hT _ ih =>
    rcases ih with ⟨ks, hsegment, hderives, hbare⟩
    exact ⟨ks, hsegment, .operand hT hderives, hbare⟩
  | @operation T s i j r op e f hT he hop hf ih ihRight =>
    rcases ih with ⟨ks, hsegment, hderives, hbare⟩
    rcases ihRight with ⟨ls, hright, hderivesRight, hbareRight⟩
    refine ⟨ks ++ op.kind :: ls, hsegment.append ((Segment.one rfl j).append hright),
      .operation hT hderives (Tier.operators_false hop) hderivesRight, ?_⟩
    intro hs
    rcases Tier.ne_parenthesis_of_operators hT hop with ⟨hopen, hclose⟩
    have hand : op.kind ≠ .keyword .and_ := by
      rintro hkind
      rw [hkind, hs, Tier.operators_iff hT] at hop
      simp [Tier.ofKind?] at hop
    rw [hderives.balanced.1, bareAnd_cons hopen hclose, hbare hs, hbareRight hs]
    simpa using hand
  | @unary s i r op e hop h ih =>
    rcases ih with ⟨ks, hsegment, hderives, hbare⟩
    refine ⟨op.kind :: ks, (Segment.one rfl i).append hsegment, .unary hop hderives, ?_⟩
    intro hs
    have hand : op.kind ≠ .keyword .and_ := Kind.ne_of_isUnary hop rfl
    rw [bareAnd_cons (Kind.ne_of_isUnary hop rfl) (Kind.ne_of_isUnary hop rfl), hbare hs]
    simpa using hand
  | call _ ih =>
    rcases ih with ⟨ks, hsegment, hderives, hbare⟩
    exact ⟨ks, hsegment, .call hderives, hbare⟩
  | callee _ ih =>
    rcases ih with ⟨ks, hsegment, hderives, hbare⟩
    exact ⟨ks, hsegment, .callee hderives, hbare⟩
  | @passNone s i r opening closing e h hopen hclose ih =>
    rcases ih with ⟨ks, hsegment, hderives, hbare⟩
    have hnone : ∀ v ∈ ([] : List (List Kind)), Tier.assignment.Derives v := by simp
    refine ⟨_, hsegment.append ((Segment.one hopen _).append (Segment.one hclose r)),
      .pass hderives hnone, ?_⟩
    intro hs
    rw [hderives.balanced.1, hbare hs]
    rfl
  | @pass s i j r opening closing e es h hopen hes hclose ih =>
    rcases ih with ⟨ks, hsegment, hderives, hbare⟩
    rcases separated_words hes with ⟨ws, harguments, -, hws⟩
    refine ⟨_, hsegment.append ((Segment.one hopen j).append
      (harguments.append (Segment.one hclose r))), .pass hderives hws, ?_⟩
    intro hs
    have hbalanced := balanced_intercalate fun w hw => (hws w hw).balanced
    change bareAnd 0 (ks ++ .operator .lparen :: _) = false
    rw [hderives.balanced.1, hbare hs, Bool.false_or]
    exact hbalanced.bareAnd_parentheses
  | @number s r t v hkind _ =>
    refine ⟨[.number], Segment.one hkind r, .atom rfl, ?_⟩
    intro _
    rfl
  | @literal s r t v hv =>
    refine ⟨[t.kind], Segment.one rfl r, .atom ?_, ?_⟩
    · unfold Grammar.literalValue? at hv
      split at hv <;> simp_all [Kind.isAtom]
    · intro _
      unfold Grammar.literalValue? at hv
      split at hv <;> simp_all [bareAnd]
  | @name s r t hkind =>
    refine ⟨[.ident], Segment.one hkind r, .atom rfl, ?_⟩
    intro _
    rfl
  | @grouping s i r opening closing e hopen h hclose ih =>
    rcases ih with ⟨ks, hsegment, hderives, -⟩
    refine ⟨_, (Segment.one hopen i).append (hsegment.append (Segment.one hclose r)),
      .grouping hderives, ?_⟩
    intro _
    exact hderives.balanced.bareAnd_parentheses

theorem Spells.of_number {s : Bool} {t : Token} {r : List Token} (hkind : t.kind = .number)
    (hcarries : t.literal ≠ none) : ∃ e, Spells .primary s (t :: r) r e := by
  rcases Option.ne_none_iff_exists'.mp hcarries with ⟨v, hv⟩
  exact ⟨.literal t.line v, .number hkind (by rw [Token.numberValue, hv])⟩

/-- A token that is an expression on its own spells one. -/
theorem Spells.of_isAtom {s : Bool} {t : Token} {r : List Token} (hkind : t.kind.isAtom = true)
    (hcarries : t.kind = .number → t.literal ≠ none) : ∃ e, Spells .primary s (t :: r) r e := by
  by_cases hnumber : t.kind = .number
  · exact Spells.of_number hnumber (hcarries hnumber)
  · by_cases hname : t.kind = .ident
    · exact ⟨_, .name hname⟩
    · have hliteral : ∃ v, Grammar.literalValue? t = some v := by
        unfold Grammar.literalValue?
        unfold Kind.isAtom at hkind
        split at hkind <;> simp_all
      rcases hliteral with ⟨v, hv⟩
      exact ⟨_, .literal hv⟩

/-- Words with commas between them spell arguments. -/
theorem exists_separated {ws : List (List Kind)} (hne : ws ≠ [])
    (h : ∀ w ∈ ws, ∀ i r, NumbersCarryValues i → Segment Token.kind w i r →
      ∃ e, Spells .assignment false i r e) {i r : List Token} (hi : NumbersCarryValues i)
    (hsegment : Segment Token.kind ([Kind.operator .comma].intercalate ws) i r) :
    ∃ es, Separated (Spells .assignment false) i r es := by
  induction ws generalizing i with
  | nil => exact absurd rfl hne
  | cons w ws ih =>
    have hword := h w (by simp)
    cases ws with
    | nil =>
      rcases hword i r hi (by simpa using hsegment) with ⟨e, he⟩
      exact ⟨[e], .one he⟩
    | cons v ws =>
      rw [List.intercalate_cons_cons, List.append_assoc] at hsegment
      rcases hsegment.exists_of_append with ⟨j, hfirst, hrest⟩
      rcases hrest.exists_of_cons with ⟨comma, k, rfl, hcomma, hrest⟩
      have hj := hi.of_suffix hfirst.suffix
      rcases hword i _ hi hfirst with ⟨e, he⟩
      rcases ih (by simp) (fun u hu => h u (by simp [hu]))
        (hj.of_suffix (List.suffix_cons _ _)) hrest with ⟨es, hes⟩
      exact ⟨e :: es, .more he hcomma hes⟩

/-- Tokens whose kinds are a word of the ladder spell something, where `and` does not separate or
none stands bare. -/
theorem Tier.Derives.exists_spells {T : Tier} {ks : List Kind} (h : T.Derives ks) {s : Bool}
    (hbare : s = true → bareAnd 0 ks = false) {i r : List Token} (hi : NumbersCarryValues i)
    (hsegment : Segment Token.kind ks i r) : ∃ e, Spells T s i r e := by
  induction h generalizing s i r with
  | assign _ ih =>
    rcases hsegment.exists_of_cons with ⟨t, j, rfl, ht, hrest⟩
    rcases hrest.exists_of_cons with ⟨eq, k, rfl, heq, hrest⟩
    have hk := hi.of_suffix ((List.suffix_cons eq k).trans (List.suffix_cons t _))
    rcases ih (fun hs => by simpa [bareAnd] using hbare hs) hk hrest with ⟨e, he⟩
    have htarget : Spells .logicOr s (t :: eq :: k) (eq :: k) (.var t.line t.text) :=
      (Spells.name (s := s) ht).loosen (by decide)
    exact ⟨_, .assign htarget heq he⟩
  | value _ ih =>
    rcases ih hbare hi hsegment with ⟨e, he⟩
    exact ⟨e, .value he⟩
  | operand hT _ ih =>
    rcases ih hbare hi hsegment with ⟨e, he⟩
    exact ⟨e, .operand hT he⟩
  | @operation T v w op hT hv hop hw ih ihRight =>
    rcases hsegment.exists_of_append with ⟨j, hleft, hrest⟩
    rcases hrest.exists_of_cons with ⟨t, k, rfl, rfl, hright⟩
    have hk := (hi.of_suffix hleft.suffix).of_suffix (List.suffix_cons t k)
    rcases Tier.ne_parenthesis_of_operators hT hop with ⟨hopen, hclose⟩
    -- A bare `and` on either side, or as the operator, would be a bare one of the whole.
    have hparts : s = true → bareAnd 0 v = false ∧ t.kind ≠ .keyword .and_ ∧
        bareAnd 0 w = false := by
      intro hs
      have hwhole := hbare hs
      rw [hv.balanced.1, bareAnd_cons hopen hclose] at hwhole
      simpa [and_assoc] using hwhole
    have hoperator : T.operators s t.kind = true := by
      cases s with
      | false => exact hop
      | true =>
        rw [Tier.operators_iff hT] at hop ⊢
        have hand := (hparts rfl).2.1
        unfold Tier.ofKind? at hop ⊢
        split at hop <;> simp_all
    rcases ih (fun hs => (hparts hs).1) hi hleft with ⟨e, he⟩
    rcases ihRight (fun hs => (hparts hs).2.2) hk hright with ⟨f, hf⟩
    exact ⟨_, .operation hT he hoperator hf⟩
  | @unary w op hop hw ih =>
    rcases hsegment.exists_of_cons with ⟨t, j, rfl, rfl, hrest⟩
    have hinner : s = true → bareAnd 0 w = false := by
      intro hs
      have hwhole := hbare hs
      rw [bareAnd_cons (Kind.ne_of_isUnary hop rfl) (Kind.ne_of_isUnary hop rfl),
        Bool.or_eq_false_iff] at hwhole
      exact hwhole.2
    rcases ih hinner (hi.of_suffix (List.suffix_cons _ _)) hrest with ⟨e, he⟩
    exact ⟨_, .unary hop he⟩
  | call _ ih =>
    rcases ih hbare hi hsegment with ⟨e, he⟩
    exact ⟨e, .call he⟩
  | callee _ ih =>
    rcases ih hbare hi hsegment with ⟨e, he⟩
    exact ⟨e, .callee he⟩
  | @pass w arguments hw _ ih iharguments =>
    rcases hsegment.exists_of_append with ⟨j, hcallee, hrest⟩
    rcases hrest.exists_of_cons with ⟨opening, k, rfl, hopen, hrest⟩
    rcases hrest.exists_of_append with ⟨l, hitems, hrest⟩
    rcases hrest.exists_of_cons with ⟨closing, m, rfl, hclose, hrest⟩
    obtain rfl := hrest.eq_of_nil
    have hk := (hi.of_suffix hcallee.suffix).of_suffix (List.suffix_cons opening k)
    have hinner : s = true → bareAnd 0 w = false := by
      intro hs
      have hwhole := hbare hs
      rw [hw.balanced.1, Bool.or_eq_false_iff] at hwhole
      exact hwhole.1
    rcases ih hinner hi hcallee with ⟨e, he⟩
    by_cases hne : arguments = []
    · subst hne
      obtain rfl := hitems.eq_of_nil
      exact ⟨_, .passNone he hopen hclose⟩
    · rcases exists_separated hne
        (fun v hv i r hi hword => iharguments v hv (by simp) hi hword) hk hitems with ⟨es, hes⟩
      exact ⟨_, .pass he hopen hes hclose⟩
  | atom hk =>
    rcases hsegment.exists_of_cons with ⟨t, j, rfl, rfl, hrest⟩
    obtain rfl := hrest.eq_of_nil
    exact Spells.of_isAtom hk (hi t (by simp))
  | grouping _ ih =>
    rcases hsegment.exists_of_cons with ⟨opening, j, rfl, hopen, hrest⟩
    rcases hrest.exists_of_append with ⟨k, hinner, hrest⟩
    rcases hrest.exists_of_cons with ⟨closing, l, rfl, hclose, hrest⟩
    obtain rfl := hrest.eq_of_nil
    rcases ih (s := false) (by simp) (hi.of_suffix (List.suffix_cons _ _)) hinner with ⟨e, he⟩
    exact ⟨_, .grouping hopen he hclose⟩

end ScriptCheck
