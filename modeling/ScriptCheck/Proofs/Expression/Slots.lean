import ScriptCheck.Proofs.Expression.Severing

/-!
# Slots

What stands between two `and`s that separate is a slot: its parentheses are closed and none of its
`and`s is bare. What a clause spells is one (`Spells.exists_slot`), and there is only one way to
divide tokens at the end of a slot (`IsSlot.eq_of_append`). So the clauses of a `for` are told by
counting, without reading an expression. In a slot that spells an expression it makes no difference
whether `and` separates (`Spells.rejoin`).
-/

namespace ScriptCheck

/-- Whether tokens may stand in front of an `and` that separates, or of the parenthesis that closes
a `for` header: they close the parentheses that they open, and hold no bare `and`. -/
structure IsSlot (w : List Token) : Prop where
  level : Session.countKind (.operator .lparen) w = Session.countKind (.operator .rparen) w
  nested : ∀ v, v <+: w →
    Session.countKind (.operator .rparen) v ≤ Session.countKind (.operator .lparen) v
  joined : ∀ q, ¬ IsBareAnd w 0 q

instance (w : List Token) : Decidable (IsSlot w) :=
  decidable_of_iff
    (Session.countKind (.operator .lparen) w = Session.countKind (.operator .rparen) w ∧
      (∀ i ≤ w.length, Session.countKind (.operator .rparen) (w.take i) ≤
        Session.countKind (.operator .lparen) (w.take i)) ∧
      ∀ q < w.length, ¬ IsBareAnd w 0 q)
    ⟨fun ⟨hlevel, hnested, hjoined⟩ =>
        ⟨hlevel, fun _ hv => List.prefix_iff_eq_take.mp hv ▸ hnested _ hv.length_le,
          fun q hbare => hjoined q hbare.lt_length hbare⟩,
      fun ⟨hlevel, hnested, hjoined⟩ =>
        ⟨hlevel, fun i _ => hnested _ (List.take_prefix i w), fun q _ => hjoined q⟩⟩

/-! ## Slots in front of a token that ends them -/

theorem countKind_append (kind : Kind) (v w : List Token) :
    Session.countKind kind (v ++ w) = Session.countKind kind v + Session.countKind kind w :=
  List.countP_append

namespace IsSlot

variable {w w' r r' : List Token} {t t' : Token}

theorem nil : IsSlot [] := by
  refine ⟨rfl, fun v hv => ?_, fun q hbare => ?_⟩
  · obtain rfl := List.prefix_nil.mp hv
    exact Nat.le_refl _
  · have hand := hbare.is_and
    simp at hand

/-- A slot does not go on behind another one with an `and` or with a closing parenthesis. -/
theorem eq_nil_of_append (hw : IsSlot w) {u : List Token} (h : IsSlot (w ++ u))
    (hu : ∀ t ∈ u.head?, t.kind = .keyword .and_ ∨ t.kind = .operator .rparen) : u = [] := by
  cases u with
  | nil => rfl
  | cons t u =>
    rcases hu t rfl with hand | hclose
    · refine absurd ⟨Nat.zero_le _, ?_, ?_, ?_⟩ (h.joined w.length)
      · simp [hand]
      · simpa using hw.level
      · intro v hv
        exact hw.nested v (by simpa using hv)
    · -- The parenthesis closes one that the slot in front has not left open.
      have hprefix : w ++ [t] <+: w ++ t :: u := ⟨u, by simp⟩
      have hnested := h.nested _ hprefix
      have hlevel := hw.level
      rw [countKind_append, countKind_append] at hnested
      simp [Session.countKind, hclose] at hnested hlevel
      omega

/-- Tokens are divided in one way only into a slot and what an `and` or a closing parenthesis
starts. -/
theorem eq_of_append (hw : IsSlot w) (hw' : IsSlot w')
    (ht : t.kind = .keyword .and_ ∨ t.kind = .operator .rparen)
    (ht' : t'.kind = .keyword .and_ ∨ t'.kind = .operator .rparen)
    (h : w ++ t :: r = w' ++ t' :: r') : w = w' ∧ t = t' ∧ r = r' := by
  have hsame : w = w' := by
    rcases List.append_eq_append_iff.mp h with ⟨u, rfl, hu⟩ | ⟨u, rfl, hu⟩
    · have hnil : u = [] := hw.eq_nil_of_append hw' fun a ha => by
        cases u with
        | nil => simp at ha
        | cons b u =>
          obtain rfl : b = a := by simpa using ha
          obtain rfl : t = b := (List.cons.inj hu).1
          exact ht
      simp [hnil]
    · have hnil : u = [] := hw'.eq_nil_of_append hw fun a ha => by
        cases u with
        | nil => simp at ha
        | cons b u =>
          obtain rfl : b = a := by simpa using ha
          obtain rfl : t' = b := (List.cons.inj hu).1
          exact ht'
      simp [hnil]
  subst hsame
  rcases List.cons.inj (List.append_cancel_left h) with ⟨rfl, rfl⟩
  exact ⟨rfl, rfl, rfl⟩

end IsSlot

/-! ## Words of the ladder are slots -/

/-- Whether a word closes the parentheses that it opens and no other. -/
structure Encloses (w : List Kind) : Prop where
  level : w.count (.operator .lparen) = w.count (.operator .rparen)
  nested : ∀ n, (w.take n).count (.operator .rparen) ≤ (w.take n).count (.operator .lparen)

namespace Encloses

variable {v w : List Kind}

theorem nil : Encloses [] :=
  ⟨rfl, fun n => by simp⟩

theorem one {k : Kind} (hopen : k ≠ .operator .lparen) (hclose : k ≠ .operator .rparen) :
    Encloses [k] := by
  refine ⟨by simp [hopen, hclose], fun n => ?_⟩
  cases n <;> simp [hopen, hclose]

theorem append (hv : Encloses v) (hw : Encloses w) : Encloses (v ++ w) := by
  refine ⟨by rw [List.count_append, List.count_append, hv.level, hw.level], fun n => ?_⟩
  rw [List.take_append, List.count_append, List.count_append]
  have hfront := hv.nested n
  have hbehind := hw.nested (n - v.length)
  omega

theorem cons {k : Kind} (hopen : k ≠ .operator .lparen) (hclose : k ≠ .operator .rparen)
    (hw : Encloses w) : Encloses (k :: w) :=
  (one hopen hclose).append hw

theorem parentheses (hw : Encloses w) :
    Encloses (.operator .lparen :: (w ++ [.operator .rparen])) := by
  refine ⟨by simp [hw.level], fun n => ?_⟩
  cases n with
  | zero => simp
  | succ n =>
    have hinner := hw.nested n
    have hclose : ([Kind.operator .rparen].take (n - w.length)).count (.operator .rparen) ≤ 1 :=
      Nat.le_trans List.count_le_length (List.length_take_le' _ _)
    have hother : ([Kind.operator .rparen].take (n - w.length)).count (.operator .lparen) = 0 := by
      cases n - w.length <;> simp
    simp only [List.take_succ_cons, List.take_append, List.count_cons, List.count_append]
    simp only [beq_self_eq_true, if_true, hother]
    simp
    omega

theorem intercalate {ws : List (List Kind)} (h : ∀ w ∈ ws, Encloses w) :
    Encloses ([Kind.operator .comma].intercalate ws) := by
  induction ws with
  | nil => exact nil
  | cons w ws ih =>
    have hw := h w (by simp)
    have hws := ih fun v hv => h v (by simp [hv])
    cases ws with
    | nil => simpa using hw
    | cons v ws =>
      rw [List.intercalate_cons_cons, List.append_assoc]
      exact hw.append (.append (.one (k := .operator .comma) (by decide) (by decide)) hws)

end Encloses

theorem Tier.Derives.encloses {T : Tier} {w : List Kind} (h : T.Derives w) : Encloses w := by
  induction h with
  | assign _ ih =>
    exact .cons (k := .ident) (by decide) (by decide)
      (.cons (k := .operator .assign) (by decide) (by decide) ih)
  | value _ ih => exact ih
  | operand _ _ ih => exact ih
  | operation hT _ hop _ ih ihRight =>
    rcases ne_parenthesis_of_operators hT hop with ⟨hopen, hclose⟩
    exact ih.append (.cons hopen hclose ihRight)
  | unary hop _ ih => exact .cons (Kind.ne_of_isUnary hop rfl) (Kind.ne_of_isUnary hop rfl) ih
  | call _ ih => exact ih
  | callee _ ih => exact ih
  | pass _ _ ih ihArguments => exact ih.append (Encloses.intercalate ihArguments).parentheses
  | @atom k hk =>
    have hne : k ≠ .operator .lparen ∧ k ≠ .operator .rparen := by
      constructor <;> rintro rfl <;> simp [Kind.isAtom] at hk
    exact .one hne.1 hne.2
  | grouping _ ih => exact ih.parentheses

/-! ## What clauses spell -/

/-- An `and` that is bare behind some kinds is bare. -/
theorem bareAnd_append_of_nested {v u : List Kind} {depth depth' : Nat}
    (hnested : ∀ n, (v.take n).count (.operator .rparen) ≤
      (v.take n).count (.operator .lparen) + depth)
    (hlevel : depth + v.count (.operator .lparen) = depth' + v.count (.operator .rparen))
    (h : bareAnd depth' u = true) : bareAnd depth (v ++ u) = true := by
  induction v generalizing depth with
  | nil =>
    obtain rfl : depth = depth' := by simpa using hlevel
    exact h
  | cons k v ih =>
    by_cases hopen : k = .operator .lparen
    · subst hopen
      refine ih (fun n => ?_) ?_
      · have hnext := hnested (n + 1)
        simp at hnext
        omega
      · simp at hlevel
        omega
    by_cases hclose : k = .operator .rparen
    · subst hclose
      have hfirst := hnested 1
      simp at hfirst
      refine ih (fun n => ?_) ?_
      · have hnext := hnested (n + 1)
        simp at hnext
        omega
      · simp at hlevel
        omega
    · rw [List.cons_append, bareAnd_cons hopen hclose]
      have hrest : bareAnd depth (v ++ u) = true := by
        refine ih (fun n => ?_) ?_
        · have hnext := hnested (n + 1)
          simpa [hopen, hclose] using hnext
        · simpa [hopen, hclose] using hlevel
      rw [hrest, Bool.or_true]

theorem countKind_eq_count (kind : Kind) (w : List Token) :
    Session.countKind kind w = (w.map (·.kind)).count kind := by
  rw [Session.countKind, List.count, List.countP_map]
  rfl

/-- Tokens of such kinds are a slot. -/
theorem IsSlot.of_encloses {w : List Token} (h : Encloses (w.map (·.kind)))
    (hbare : bareAnd 0 (w.map (·.kind)) = false) : IsSlot w := by
  refine ⟨?_, fun v hv => ?_, fun q hq => ?_⟩
  · rw [countKind_eq_count, countKind_eq_count, h.level]
  · have hnested := h.nested v.length
    rw [← List.map_take, ← List.prefix_iff_eq_take.mp hv] at hnested
    rwa [countKind_eq_count, countKind_eq_count]
  · have hand := hq.is_and
    rcases Option.map_eq_some_iff.mp hand with ⟨t, ht, hkind⟩
    have hsplit := (List.take_append_drop q w).symm
    rw [List.drop_eq_getElem_cons (List.getElem?_eq_some_iff.mp ht).1,
      (List.getElem?_eq_some_iff.mp ht).2] at hsplit
    have hlevel := hq.level
    rw [List.drop_zero, countKind_eq_count, countKind_eq_count] at hlevel
    rw [hsplit, List.map_append, List.map_cons, hkind] at hbare
    have hfront : ∀ n, (((w.take q).map (·.kind)).take n).count (.operator .rparen) ≤
        (((w.take q).map (·.kind)).take n).count (.operator .lparen) + 0 := by
      intro n
      have hprefix := h.nested (min n q)
      rw [← List.map_take] at hprefix
      rw [← List.map_take, List.take_take]
      exact hprefix
    have htrue := bareAnd_append_of_nested hfront (by omega)
      (show bareAnd 0 (.keyword .and_ :: (w.drop (q + 1)).map (·.kind)) = true by simp [bareAnd])
    rw [hbare] at htrue
    cases htrue

/-- What is spelled while `and` separates is a slot. -/
theorem Spells.exists_slot {T : Tier} {i r : List Token} {e : Node} (h : Spells T true i r e) :
    ∃ v, i = v ++ r ∧ IsSlot v ∧ ∀ r', Spells T true (v ++ r') r' e := by
  rcases h.detach with ⟨v, rfl, hv⟩
  rcases h.exists_word with ⟨ks, ⟨w, hw, rfl⟩, hderives, hbare⟩
  obtain rfl := List.append_cancel_right hw
  exact ⟨v, rfl, .of_encloses hderives.encloses (hbare rfl), hv⟩

/-- What is spelled while `and` separates is spelled where it is an operator, too. -/
theorem Spells.rejoin {T : Tier} {s : Bool} {i r : List Token} {e : Node} (h : Spells T s i r e) :
    Spells T false i r e := by
  induction h using Spells.induct with
  | assign _ heq _ ih ihValue => exact .assign ih heq ihValue
  | value _ ih => exact .value ih
  | operand hT _ ih => exact .operand hT ih
  | operation hT _ hop _ ih ihRight => exact .operation hT ih (Tier.operators_false hop) ihRight
  | unary hop _ ih => exact .unary hop ih
  | call _ ih => exact .call ih
  | callee _ ih => exact .callee ih
  | passNone _ hopen hclose ih => exact .passNone ih hopen hclose
  | pass _ hopen hes hclose ih => exact .pass ih hopen (hes.mono fun _ _ _ he => he.1) hclose
  | number hkind hv => exact .number hkind hv
  | literal hv => exact .literal hv
  | name hkind => exact .name hkind
  | grouping hopen h hclose _ => exact .grouping hopen h hclose

end ScriptCheck
