import ScriptCheck.Proofs.Expression.Spelling
import ScriptCheck.Proofs.Syntax.Flat

/-!
# Trees that are written as they are read

Not every tree of expressions can be written: what an operator joins has to bind tightly enough,
since only the tree's own parentheses are there. `Node.isCanonical` says which trees can. Tokens
spell canonical trees only (`Spells.isCanonical`), and show what the tree they spell is written as
(`Spells.shows`); and what a canonical tree is written as spells it (`respells_of_isCanonical`).
-/

namespace ScriptCheck

/-- The tier of an operator between operands. -/
def Tier.ofLexeme? : String → Option Tier
  | "or" => some .logicOr
  | "and" => some .logicAnd
  | "==" | "!=" => some .equality
  | ">" | ">=" | "<" | "<=" => some .comparison
  | "+" | "-" => some .term
  | "/" | "*" | "**" | "??" => some .factor
  | _ => none

/-- Whether a tier is one of the two that join conditions. -/
def Tier.isLogical : Tier → Bool
  | logicOr | logicAnd => true
  | _ => false

namespace Node

/-- The tightest tier that an expression is one of. -/
def tier : Node → Tier
  | assign .. => .assignment
  | logical _ operator .. | binary _ operator .. => (Tier.ofLexeme? operator).getD .primary
  | unary .. => .unary
  | call .. => .call
  | _ => .primary

/-- Whether an operator of one of the tiers may join two expressions: its left operand binds at
least as tightly as it does, and its right operand more tightly. -/
def joins (tiers : Tier → Bool) (operator : String) (left right : Node) : Bool :=
  match Tier.ofLexeme? operator with
  | some T => tiers T && decide (T.rank ≤ left.tier.rank) && decide (T.rank < right.tier.rank)
  | none => false

mutual

/-- Whether a tree is an expression that is written as it is read. -/
def isCanonical : Node → Bool
  | assign _ _ value => value.isCanonical
  | logical _ operator left right =>
    joins Tier.isLogical operator left right && left.isCanonical && right.isCanonical
  | binary _ operator left right =>
    joins (!·.isLogical) operator left right && left.isCanonical && right.isCanonical
  | unary _ operator operand =>
    (operator == "!" || operator == "-") && decide (Tier.unary.rank ≤ operand.tier.rank) &&
      operand.isCanonical
  | call _ callee arguments =>
    decide (Tier.call.rank ≤ callee.tier.rank) && callee.isCanonical && allCanonical arguments
  | literal .. => true
  | var .. => true
  | grouping _ inner => inner.isCanonical
  | _ => false

/-- Whether several trees are. -/
def allCanonical : List Node → Bool
  | [] => true
  | n :: ns => n.isCanonical && allCanonical ns

end

theorem joins_iff {tiers : Tier → Bool} {operator : String} {left right : Node} :
    joins tiers operator left right = true ↔
      ∃ T, Tier.ofLexeme? operator = some T ∧ tiers T = true ∧ T.rank ≤ left.tier.rank ∧
        T.rank < right.tier.rank := by
  unfold joins
  cases Tier.ofLexeme? operator with
  | none => simp
  | some T => simp [and_assoc]

theorem tier_eraseLines (n : Node) : n.eraseLines.tier = n.tier := by
  cases n with
  | binding _ _ initializer => cases initializer <;> rfl
  | conditional _ _ _ elseBranch => cases elseBranch <;> rfl
  | _ => rfl

mutual

/-- Lines are no matter to whether a tree is canonical. -/
theorem isCanonical_eraseLines : (n : Node) → n.eraseLines.isCanonical = n.isCanonical
  | program .. | function .. | block .. | loop .. | print .. | return_ .. | expression .. => rfl
  | binding _ _ none | binding _ _ (some _) => rfl
  | conditional _ _ _ none | conditional _ _ _ (some _) => rfl
  | assign _ _ value => by simp only [eraseLines, isCanonical, value.isCanonical_eraseLines]
  | logical _ _ left right => by
    simp only [eraseLines, isCanonical, joins, tier_eraseLines, left.isCanonical_eraseLines,
      right.isCanonical_eraseLines]
  | binary _ _ left right => by
    simp only [eraseLines, isCanonical, joins, tier_eraseLines, left.isCanonical_eraseLines,
      right.isCanonical_eraseLines]
  | unary _ _ operand => by
    simp only [eraseLines, isCanonical, tier_eraseLines, operand.isCanonical_eraseLines]
  | call _ callee arguments => by
    simp only [eraseLines, isCanonical, tier_eraseLines, callee.isCanonical_eraseLines,
      allCanonical_eraseAllLines arguments]
  | literal .. | var .. | bare _ => rfl
  | grouping _ inner => by simp only [eraseLines, isCanonical, inner.isCanonical_eraseLines]

theorem allCanonical_eraseAllLines :
    (ns : List Node) → allCanonical (eraseAllLines ns) = allCanonical ns
  | [] => rfl
  | n :: ns => by
    simp only [eraseAllLines, allCanonical, n.isCanonical_eraseLines,
      allCanonical_eraseAllLines ns]

end

end Node

/-! ## Operators and their tiers -/

namespace Tier

variable {T U : Tier}

theorem join_eq (T : Tier) (op : Token) (e f : Node) :
    T.join op e f = if T.isLogical then .logical op.line op.text e f
      else .binary op.line op.text e f := by
  cases T <;> rfl

/-- The operator that a kind is written as has the tier of the kind, if it stands between
operands. -/
theorem ofLexeme?_of_lexeme? {k : Kind} {text : String} (hk : k.lexeme? = some text) :
    ofLexeme? text = (ofKind? false k).filter (·.isInfix) := by
  cases k with
  | keyword w =>
    obtain rfl := Option.some.inj hk
    cases w <;> rfl
  | operator op =>
    obtain rfl := Option.some.inj hk
    cases op <;> rfl
  | _ => simp [Kind.lexeme?] at hk

theorem ofLexeme?_of_operators {s : Bool} (hT : T.isInfix = true) {k : Kind}
    (hk : T.operators s k = true) :
    ∃ text, k.lexeme? = some text ∧ ofLexeme? text = some T := by
  have hoperators := operators_false hk
  rw [operators_iff hT] at hoperators
  have hlexeme : ∃ text, k.lexeme? = some text := by
    cases k with
    | keyword w => exact ⟨w.word, rfl⟩
    | operator op => exact ⟨op.symbol, rfl⟩
    | _ => simp [ofKind?] at hoperators
  rcases hlexeme with ⟨text, htext⟩
  refine ⟨text, htext, ?_⟩
  rw [ofLexeme?_of_lexeme? htext, hoperators]
  simp [hT]

theorem operators_of_ofLexeme? {text : String} (h : ofLexeme? text = some T) {k : Kind}
    (hk : k.lexeme? = some text) : T.isInfix = true ∧ T.operators false k = true := by
  rw [ofLexeme?_of_lexeme? hk, Option.filter_eq_some_iff] at h
  exact ⟨h.2, (operators_iff h.2 false k).mpr h.1⟩

end Tier

/-! ## What is spelled is canonical -/

/-- Whether all tokens are written as their kinds are. -/
def AreSpelled (tokens : List Token) : Prop :=
  ∀ t ∈ tokens, t.IsSpelled

theorem AreSpelled.of_suffix {i r : List Token} (h : AreSpelled i) (hr : r <:+ i) : AreSpelled r :=
  fun t ht => h t (hr.mem ht)

/-- What the tokens of `i` in front of `r` show. -/
abbrev Shows (symbols : List Symbol) (i r : List Token) : Prop :=
  Segment Token.symbol symbols i r

/-- The first token in front of the rest is a reserved word or an operator if it shows one. -/
theorem Segment.exists_of_lexeme {text : String} {a : List Symbol} {i r : List Token} {k : Kind}
    (hi : AreSpelled i) (h : Shows (.lexeme text :: a) i r) (hk : k.lexeme? = some text) :
    ∃ t j, i = t :: j ∧ t.kind = k ∧ t.text = text ∧ AreSpelled j ∧ Shows a j r := by
  rcases h.exists_of_cons with ⟨t, j, rfl, ht, hrest⟩
  have hkind := Token.kind_of_symbol_lexeme (hi t (by simp)) hk ht
  have htext := hi t (by simp) text (by rw [hkind]; exact hk)
  exact ⟨t, j, rfl, hkind, htext, hi.of_suffix (List.suffix_cons _ _), hrest⟩

namespace Spells

variable {T : Tier} {s : Bool} {i r : List Token} {e : Node}

theorem flat_join (T : Tier) (op : Token) (e f : Node) :
    (T.join op e f).flat = e.flat ++ .lexeme op.text :: f.flat := by
  cases T <;> rfl

theorem symbol_of_operators (hT : T.isInfix = true) {op : Token}
    (hop : T.operators s op.kind = true) : op.symbol = .lexeme op.text := by
  rcases Tier.ofLexeme?_of_operators hT hop with ⟨text, htext, -⟩
  refine Token.symbol_of_lexeme? htext ?_
  rw [Tier.operators_iff hT] at hop
  unfold Grammar.literalValue?
  split <;> simp_all [Tier.ofKind?]

theorem flatItems_cons {n : Node} {ns : List Node} (h : ns ≠ []) :
    Node.flatItems (n :: ns) = n.flat ++ .lexeme "," :: Node.flatItems ns := by
  cases ns with
  | nil => exact absurd rfl h
  | cons m ns => rfl

/-- Arguments show what they are, with commas between them. -/
theorem shows_separated {i r : List Token} {es : List Node}
    (h : Separated (fun i r e => ∃ _ : Spells .assignment false i r e,
      AreSpelled i → Shows e.flat i r) i r es) (hi : AreSpelled i) :
    Shows (Node.flatItems es) i r := by
  induction h with
  | one he =>
    rcases he with ⟨_, hshows⟩
    exact hshows hi
  | @more i j r comma a as he hcomma hes ih =>
    rcases he with ⟨hspells, hshows⟩
    have hrest := hi.of_suffix hspells.spans.suffix
    have hj := hrest.of_suffix (List.suffix_cons _ _)
    rw [flatItems_cons (by cases hes <;> simp)]
    have hshowsComma := Token.symbol_of_operator (hrest comma (by simp)) hcomma
    exact (hshows hi).append ((Segment.one hshowsComma j).append (ih hj))

/-- Tokens show what the expression that they spell is written as. -/
theorem shows (h : Spells T s i r e) (hi : AreSpelled i) : Shows e.flat i r := by
  induction h using Spells.induct with
  | @assign s i j r line name eq e h heq he ih ihValue =>
    have hrest := hi.of_suffix h.spans.suffix
    have hshows := Token.symbol_of_operator (hrest eq (by simp)) heq
    have hvalue := ihValue (hrest.of_suffix (List.suffix_cons _ _))
    exact (ih hi).append ((Segment.one hshows j).append hvalue)
  | value _ ih => exact ih hi
  | operand _ _ ih => exact ih hi
  | @operation T s i j r op e f hT he hop hf ih ihRight =>
    have hrest := hi.of_suffix he.spans.suffix
    have hright := ihRight (hrest.of_suffix (List.suffix_cons _ _))
    rw [flat_join]
    exact (ih hi).append ((Segment.one (symbol_of_operators hT hop) j).append hright)
  | @unary s i r op e hop h ih =>
    have hshows : op.symbol = .lexeme op.text := by
      unfold Kind.isUnary at hop
      unfold Token.symbol
      split at hop <;> simp_all
    exact (Segment.one hshows i).append (ih (hi.of_suffix (List.suffix_cons _ _)))
  | call _ ih => exact ih hi
  | callee _ ih => exact ih hi
  | @passNone s i r opening closing e h hopen hclose ih =>
    have hrest := hi.of_suffix h.spans.suffix
    have hopening := Token.symbol_of_operator (hrest opening (by simp)) hopen
    have hclosing := Token.symbol_of_operator (hrest closing (by simp)) hclose
    exact (ih hi).append ((Segment.one hopening _).append (Segment.one hclosing r))
  | @pass s i j r opening closing e es h hopen hes hclose ih =>
    have hrest := hi.of_suffix h.spans.suffix
    have hj := hrest.of_suffix (List.suffix_cons _ _)
    have hspans := hes.spans (Q := (·.kind ≠ .eol)) (fun _ _ _ he => he.1.spans)
      fun t ht => by simp [ht]
    have hopening := Token.symbol_of_operator (hrest opening (by simp)) hopen
    have hclosing := Token.symbol_of_operator (hj closing (hspans.suffix.mem (by simp))) hclose
    exact (ih hi).append ((Segment.one hopening j).append
      ((shows_separated hes hj).append (Segment.one hclosing r)))
  | @number s r t v hkind hv =>
    refine Segment.one ?_ r
    simp [Token.symbol, hkind, hv]
  | @literal s r t v hv =>
    refine Segment.one ?_ r
    unfold Grammar.literalValue? at hv
    unfold Token.symbol
    split at hv <;> simp_all
  | @name s r t hkind =>
    refine Segment.one ?_ r
    simp [Token.symbol, hkind]
  | @grouping s i r opening closing e hopen h hclose ih =>
    have hrest := hi.of_suffix (List.suffix_cons opening i)
    have hopening := Token.symbol_of_operator (hi opening (by simp)) hopen
    have hclosing := Token.symbol_of_operator (hrest closing (h.spans.suffix.mem (by simp))) hclose
    exact (Segment.one hopening i).append ((ih hrest).append (Segment.one hclosing r))

theorem isCanonical_join {op : Token} {e f : Node} (hop : Tier.ofLexeme? op.text = some T)
    (he : e.isCanonical = true) (hf : f.isCanonical = true) (hle : T.rank ≤ e.tier.rank)
    (hlt : T.rank < f.tier.rank) :
    (T.join op e f).isCanonical = true ∧ T.rank ≤ (T.join op e f).tier.rank := by
  rw [Tier.join_eq]
  by_cases hlogical : T.isLogical = true
  · rw [if_pos hlogical]
    have hjoins : Node.joins Tier.isLogical op.text e f = true :=
      Node.joins_iff.mpr ⟨T, hop, hlogical, hle, hlt⟩
    refine ⟨by simp [Node.isCanonical, hjoins, he, hf], ?_⟩
    rw [Node.tier, hop]
    exact Nat.le_refl _
  · rw [if_neg hlogical]
    have hjoins : Node.joins (!·.isLogical) op.text e f = true :=
      Node.joins_iff.mpr ⟨T, hop, by simpa using hlogical, hle, hlt⟩
    refine ⟨by simp [Node.isCanonical, hjoins, he, hf], ?_⟩
    rw [Node.tier, hop]
    exact Nat.le_refl _

theorem allCanonical_separated {i r : List Token} {es : List Node}
    (h : Separated (fun i r e => ∃ _ : Spells .assignment false i r e,
      AreSpelled i → e.isCanonical = true ∧ Tier.assignment.rank ≤ e.tier.rank) i r es)
    (hi : AreSpelled i) : Node.allCanonical es = true := by
  induction h with
  | one he =>
    rcases he with ⟨_, hcanonical⟩
    simp [Node.allCanonical, (hcanonical hi).1]
  | @more i j r comma a as he hcomma hes ih =>
    rcases he with ⟨hspells, hcanonical⟩
    have hj := hi.of_suffix ((List.suffix_cons _ _).trans hspells.spans.suffix)
    simp [Node.allCanonical, (hcanonical hi).1, ih hj]

/-- What tokens spell is canonical, and of the tier. -/
theorem isCanonical (h : Spells T s i r e) (hi : AreSpelled i) :
    e.isCanonical = true ∧ T.rank ≤ e.tier.rank := by
  induction h using Spells.induct with
  | @assign s i j r line name eq e h heq he ih ihValue =>
    have hrest := hi.of_suffix h.spans.suffix
    exact ⟨(ihValue (hrest.of_suffix (List.suffix_cons _ _))).1, Nat.zero_le _⟩
  | value _ ih => exact ⟨(ih hi).1, Nat.zero_le _⟩
  | @operand T s i r e hT _ ih =>
    have hrank := Tier.rank_tighter_of_isInfix hT
    have hle := (ih hi).2
    exact ⟨(ih hi).1, by omega⟩
  | @operation T s i j r op e f hT he hop hf ih ihRight =>
    have hrest := hi.of_suffix he.spans.suffix
    have hright := ihRight (hrest.of_suffix (List.suffix_cons _ _))
    have hrank := Tier.rank_tighter_of_isInfix hT
    -- The tree keeps the text of the operator only, from which the tier is found again.
    rcases Tier.ofLexeme?_of_operators hT hop with ⟨text, hlexeme, htier⟩
    rw [← hrest op (by simp) text hlexeme] at htier
    exact isCanonical_join htier (ih hi).1 hright.1 (ih hi).2 (by omega)
  | @unary s i r op e hop h ih =>
    have hoperand := ih (hi.of_suffix (List.suffix_cons _ _))
    have htext : op.text = "!" ∨ op.text = "-" := by
      have hspelled := hi op (by simp)
      unfold Kind.isUnary at hop
      split at hop
      · next hkind => exact Or.inl (hspelled _ (by rw [hkind]; rfl))
      · next hkind => exact Or.inr (hspelled _ (by rw [hkind]; rfl))
      · simp at hop
    refine ⟨?_, Nat.le_refl _⟩
    simp [Node.isCanonical, htext, hoperand.1, hoperand.2]
  | call _ ih => exact ⟨(ih hi).1, Nat.le_trans (by decide) (ih hi).2⟩
  | callee _ ih => exact ⟨(ih hi).1, Nat.le_trans (by decide) (ih hi).2⟩
  | passNone _ _ _ ih =>
    refine ⟨?_, Nat.le_refl _⟩
    simp [Node.isCanonical, Node.allCanonical, (ih hi).1, (ih hi).2]
  | @pass s i j r opening closing e es h hopen hes hclose ih =>
    have hrest := hi.of_suffix h.spans.suffix
    have hj := hrest.of_suffix (List.suffix_cons _ _)
    refine ⟨?_, Nat.le_refl _⟩
    simp [Node.isCanonical, allCanonical_separated hes hj, (ih hi).1, (ih hi).2]
  | number _ _ => exact ⟨rfl, Nat.le_refl _⟩
  | literal _ => exact ⟨rfl, Nat.le_refl _⟩
  | name _ => exact ⟨rfl, Nat.le_refl _⟩
  | grouping _ _ _ ih => exact ⟨(ih (hi.of_suffix (List.suffix_cons _ _))).1, Nat.le_refl _⟩

end Spells

/-! ## What a canonical tree is written as spells it -/

/-- Whether tokens that show what a tree is written as spell the tree, lines aside. -/
def Respells (e : Node) : Prop :=
  ∀ i r, AreSpelled i → Shows e.flat i r →
    ∃ e', Spells e.tier false i r e' ∧ e'.eraseLines = e.eraseLines

theorem join_respells {T : Tier} {operator : String} {e f : Node}
    (htier : Tier.ofLexeme? operator = some T) (hle : T.rank ≤ e.tier.rank)
    (hlt : T.rank < f.tier.rank) (he : Respells e) (hf : Respells f) {i r : List Token}
    (hi : AreSpelled i) (h : Shows (e.flat ++ .lexeme operator :: f.flat) i r) :
    ∃ op e' f', op.text = operator ∧ Spells T false i r (T.join op e' f') ∧
      e'.eraseLines = e.eraseLines ∧ f'.eraseLines = f.eraseLines := by
  rcases h.exists_of_append with ⟨j, hleft, hrest⟩
  rcases he i j hi hleft with ⟨e', hespells, hesame⟩
  have hj := hi.of_suffix hleft.suffix
  rcases hrest.exists_of_cons with ⟨op, k, rfl, hop, hright⟩
  have hspelled := hj op (by simp)
  have hlexeme := Token.lexeme?_of_symbol_lexeme hspelled hop
  rcases Tier.operators_of_ofLexeme? htier hlexeme with ⟨hT, hoperator⟩
  rcases hf k r (hj.of_suffix (List.suffix_cons _ _)) hright with ⟨f', hfspells, hfsame⟩
  have hrank := Tier.rank_tighter_of_isInfix hT
  -- Both operands bind tightly enough to stand in the looser tiers of the two sides.
  refine ⟨op, e', f', hspelled _ hlexeme, ?_, hesame, hfsame⟩
  exact .operation hT (hespells.loosen hle) hoperator (hfspells.loosen (by omega))

theorem literal_respells (line : Int) (v : Literal) : Respells (.literal line v) := by
  intro i r hi h
  rcases h.exists_of_cons with ⟨t, j, rfl, ht, hrest⟩
  obtain rfl := hrest.eq_of_nil
  refine ⟨.literal t.line v, ?_, rfl⟩
  rcases Token.of_symbol_value ht with ⟨hkind, hv⟩ | hv
  · exact .number hkind hv
  · exact .literal hv

theorem var_respells (line : Int) (name : String) : Respells (.var line name) := by
  intro i r hi h
  rcases h.exists_of_cons with ⟨t, j, rfl, ht, hrest⟩
  obtain rfl := hrest.eq_of_nil
  rcases Token.kind_of_symbol_name ht with ⟨hkind, rfl⟩
  exact ⟨.var t.line t.text, .name hkind, rfl⟩

theorem assign_respells (line : Int) (target : String) {value : Node} (h : Respells value) :
    Respells (.assign line target value) := by
  intro i r hi hshows
  rcases hshows.exists_of_cons with ⟨t, j, rfl, ht, hrest⟩
  rcases Token.kind_of_symbol_name ht with ⟨hkind, rfl⟩
  have hj := hi.of_suffix (List.suffix_cons _ _)
  rcases hrest.exists_of_lexeme (k := .operator .assign) hj rfl with ⟨eq, k, rfl, heq, -, hk, hrest⟩
  rcases h k r hk hrest with ⟨value', hvalue, hsame⟩
  -- A name is a value on every tier, also where only targets may stand.
  have htarget : Spells .logicOr false (t :: eq :: k) (eq :: k) (.var t.line t.text) :=
    (Spells.name (s := false) hkind).loosen (by decide)
  refine ⟨.assign t.line t.text value', .assign htarget heq (hvalue.loosen (Nat.zero_le _)), ?_⟩
  simp only [Node.eraseLines, hsame]

theorem unary_respells (line : Int) {operator : String} (hop : operator = "!" ∨ operator = "-")
    {operand : Node} (hle : Tier.unary.rank ≤ operand.tier.rank) (h : Respells operand) :
    Respells (.unary line operator operand) := by
  intro i r hi hshows
  have hkind : ∃ k : Kind, k.lexeme? = some operator ∧ k.isUnary = true := by
    rcases hop with rfl | rfl
    · exact ⟨.operator .bang, rfl, rfl⟩
    · exact ⟨.operator .minus, rfl, rfl⟩
  rcases hkind with ⟨k, hlexeme, hunary⟩
  rcases hshows.exists_of_lexeme hi hlexeme with ⟨op, j, rfl, rfl, rfl, hj, hrest⟩
  rcases h j r hj hrest with ⟨operand', hoperand, hsame⟩
  refine ⟨.unary op.line op.text operand', .unary hunary (hoperand.loosen hle), ?_⟩
  simp only [Node.eraseLines, hsame]

theorem grouping_respells (line : Int) {inner : Node} (h : Respells inner) :
    Respells (.grouping line inner) := by
  intro i r hi hshows
  rcases hshows.exists_of_lexeme (k := .operator .lparen) hi rfl
    with ⟨opening, j, rfl, hopen, -, hj, hrest⟩
  rcases hrest.exists_of_append with ⟨k, hinner, hrest⟩
  rcases h j k hj hinner with ⟨inner', hspells, hsame⟩
  rcases hrest.exists_of_lexeme (k := .operator .rparen) (hj.of_suffix hinner.suffix) rfl
    with ⟨closing, l, rfl, hclose, -, -, hrest⟩
  obtain rfl := hrest.eq_of_nil
  refine ⟨.grouping opening.line inner', ?_, ?_⟩
  · exact .grouping hopen (hspells.loosen (Nat.zero_le _)) hclose
  · simp only [Node.eraseLines, hsame]

theorem call_respells (line : Int) {callee : Node} {arguments : List Node}
    (hle : Tier.call.rank ≤ callee.tier.rank) (h : Respells callee)
    (hall : arguments ≠ [] → ∀ i r, AreSpelled i → Shows (Node.flatItems arguments) i r →
      ∃ es, Separated (Spells .assignment false) i r es ∧
        Node.eraseAllLines es = Node.eraseAllLines arguments) :
    Respells (.call line callee arguments) := by
  intro i r hi hshows
  rcases hshows.exists_of_append with ⟨j, hcallee, hrest⟩
  rcases h i j hi hcallee with ⟨callee', hspells, hsame⟩
  have hspells := hspells.loosen hle
  rcases hrest.exists_of_lexeme (k := .operator .lparen) (hi.of_suffix hcallee.suffix) rfl
    with ⟨opening, k, rfl, hopen, -, hk, hrest⟩
  rcases hrest.exists_of_append with ⟨l, hitems, hrest⟩
  rcases hrest.exists_of_lexeme (k := .operator .rparen) (hk.of_suffix hitems.suffix) rfl
    with ⟨closing, m, rfl, hclose, -, -, hrest⟩
  obtain rfl := hrest.eq_of_nil
  by_cases hne : arguments = []
  · subst hne
    obtain rfl := hitems.eq_of_nil
    refine ⟨.call opening.line callee' [], .passNone hspells hopen hclose, ?_⟩
    simp only [Node.eraseLines, hsame]
  · rcases hall hne k _ hk hitems with ⟨es, hes, hessame⟩
    refine ⟨.call opening.line callee' es, .pass hspells hopen hes hclose, ?_⟩
    simp only [Node.eraseLines, hsame, hessame]

mutual

/-- Tokens that show what a canonical tree is written as spell the tree. -/
theorem respells_of_isCanonical : (e : Node) → e.isCanonical = true → Respells e
  | .assign line target value, h => assign_respells line target (respells_of_isCanonical value h)
  | .logical line operator left right, h => by
    simp only [Node.isCanonical, Bool.and_eq_true, Node.joins_iff] at h
    rcases h with ⟨⟨⟨T, htier, hlogical, hle, hlt⟩, hleft⟩, hright⟩
    intro i r hi hshows
    rcases join_respells htier hle hlt (respells_of_isCanonical left hleft)
      (respells_of_isCanonical right hright) hi hshows with ⟨op, e', f', rfl, hspells, he, hf⟩
    rw [Tier.join_eq, if_pos hlogical] at hspells
    refine ⟨.logical op.line op.text e' f', ?_, by simp only [Node.eraseLines, he, hf]⟩
    simpa only [Node.tier, htier, Option.getD_some] using hspells
  | .binary line operator left right, h => by
    simp only [Node.isCanonical, Bool.and_eq_true, Node.joins_iff] at h
    rcases h with ⟨⟨⟨T, htier, hlogical, hle, hlt⟩, hleft⟩, hright⟩
    intro i r hi hshows
    rcases join_respells htier hle hlt (respells_of_isCanonical left hleft)
      (respells_of_isCanonical right hright) hi hshows with ⟨op, e', f', rfl, hspells, he, hf⟩
    rw [Tier.join_eq, if_neg (by simpa using hlogical)] at hspells
    refine ⟨.binary op.line op.text e' f', ?_, by simp only [Node.eraseLines, he, hf]⟩
    simpa only [Node.tier, htier, Option.getD_some] using hspells
  | .unary line operator operand, h => by
    simp only [Node.isCanonical, Bool.and_eq_true, Bool.or_eq_true, beq_iff_eq,
      decide_eq_true_eq] at h
    exact unary_respells line h.1.1 h.1.2 (respells_of_isCanonical operand h.2)
  | .call line callee arguments, h => by
    simp only [Node.isCanonical, Bool.and_eq_true, decide_eq_true_eq] at h
    exact call_respells line h.1.1 (respells_of_isCanonical callee h.1.2)
      fun hne => separated_of_allCanonical arguments hne h.2
  | .literal line value, _ => literal_respells line value
  | .var line name, _ => var_respells line name
  | .grouping line inner, h => grouping_respells line (respells_of_isCanonical inner h)

/-- The same for several trees with commas between them. -/
theorem separated_of_allCanonical : (es : List Node) → es ≠ [] → Node.allCanonical es = true →
    ∀ i r, AreSpelled i → Shows (Node.flatItems es) i r →
      ∃ es', Separated (Spells .assignment false) i r es' ∧
        Node.eraseAllLines es' = Node.eraseAllLines es
  | [e], _, h, i, r, hi, hshows => by
    simp only [Node.allCanonical, Bool.and_true] at h
    rcases respells_of_isCanonical e h i r hi hshows with ⟨e', hspells, hsame⟩
    refine ⟨[e'], .one (hspells.loosen (Nat.zero_le _)), ?_⟩
    simp only [Node.eraseAllLines, hsame]
  | e :: f :: es, _, h, i, r, hi, hshows => by
    rw [Node.allCanonical, Bool.and_eq_true] at h
    rcases hshows.exists_of_append with ⟨j, hfirst, hrest⟩
    rcases respells_of_isCanonical e h.1 i j hi hfirst with ⟨e', hspells, hsame⟩
    rcases hrest.exists_of_lexeme (k := .operator .comma) (hi.of_suffix hfirst.suffix) rfl
      with ⟨comma, k, rfl, hcomma, -, hk, hrest⟩
    rcases separated_of_allCanonical (f :: es) (by simp) h.2 k r hk hrest with ⟨es', hes, hessame⟩
    refine ⟨e' :: es', .more (hspells.loosen (Nat.zero_le _)) hcomma hes, ?_⟩
    rw [Node.eraseAllLines, hsame, hessame, ← Node.eraseAllLines]

end

end ScriptCheck
