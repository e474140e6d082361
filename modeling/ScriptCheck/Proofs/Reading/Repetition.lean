import ScriptCheck.Proofs.Reading.Run

/-!
# How repetitions end

`whileNext` and `untilNext` are opened here once: each turn of a loop is one equation on the tokens
ahead, and an induction over the turns is one lemma with the property to be kept as its parameter.
Lists with commas between the items are the one repetition that several rules share, so they have a
relation of their own, `Separated`, whose items may be anything.
-/

namespace ScriptCheck

variable {α : Type}

namespace Rule

/-! ## As long as the next token is wanted -/

section While

variable {wanted : Kind → Bool} {step : Token → α → Rule α}

theorem whileNextFrom_stop {c : Cursor} (h : wanted (nextKind c.ahead) = false) (a : α) :
    whileNextFrom wanted step a c = .done a c := by
  rw [whileNextFrom, dif_neg]
  rintro ⟨-, hwanted⟩
  rw [Cursor.kind_peek, h] at hwanted
  exact absurd hwanted (by decide)

theorem whileNextFrom_go {c : Cursor} {t : Token} {r : List Token} (hc : c.ahead = t :: r)
    (hwanted : wanted t.kind = true) (a : α) :
    whileNextFrom wanted step a c =
      match (step t a).run c.advance with
      | .done b d => whileNextFrom wanted step b d
      | .failed failure d => .failed failure d := by
  have hgo : c.atEnd = false ∧ wanted c.peek.kind = true := by
    rw [Cursor.peek_of_ahead hc]
    exact ⟨Cursor.atEnd_of_ahead hc, hwanted⟩
  have hturn := run_whileNext wanted step a c
  rw [if_pos hgo, Cursor.peek_of_ahead hc] at hturn
  exact hturn

/-- One turn of the loop, whose step may turn out to be nested too deeply. -/
theorem whileNextFrom_comes {c : Cursor} {t : Token} {r : List Token} (hc : c.ahead = t :: r)
    (hwanted : wanted t.kind = true) {a b : α} {fits : Prop} {p : Cursor → Prop}
    (h : ((step t a).run c.advance).Comes fits p (.done b)) :
    (whileNextFrom wanted step a c).Comes fits p (whileNextFrom wanted step b) := by
  rw [whileNextFrom_go hc hwanted]
  rcases h with ⟨hfits, d, hp, hrun⟩ | ⟨hno, failure, d, hrun, hcause⟩
  · rw [hrun]
    exact .intro hfits hp rfl
  · rw [hrun]
    exact Or.inr ⟨hno, failure, d, rfl, hcause⟩

/-- A property that every turn keeps holds where the loop ends, and there no further token is
wanted. -/
theorem whileNextFrom_done {P : α → Cursor → Prop} (heof : wanted .eof = false)
    (hstep : ∀ t r a b c d, P a c → c.ahead = t :: r → wanted t.kind = true →
      (step t a).run c.advance = .done b d → P b d)
    {a b : α} {c d : Cursor} (hP : P a c) (h : whileNextFrom wanted step a c = .done b d) :
    P b d ∧ wanted (nextKind d.ahead) = false := by
  fun_induction whileNextFrom wanted step a c with
  | case1 a c hgo b' d' hrun _ ih =>
    rcases Cursor.exists_ahead_of_atEnd hgo.1 with ⟨t, r, hc⟩
    rw [Cursor.peek_of_ahead hc] at hgo hrun
    exact ih (hstep t r a b' c d' hP hc hgo.2 hrun) h
  | case2 a c hgo failure d' hrun => simp at h
  | case3 a c hstop =>
    cases h
    refine ⟨hP, ?_⟩
    cases hc : d.ahead with
    | nil => exact heof
    | cons t r =>
      rw [Cursor.peek_of_ahead hc] at hstop
      simpa [Cursor.atEnd_of_ahead hc] using hstop

end While

/-! ## Until a token stops it -/

section Until

variable {stop : Kind → Bool} {item : Rule α}

/-- The position grows as less remains. -/
theorem position_lt_iff {r : Rule α} {c d : Cursor} {a : α} (hrun : r.run c = .done a d) :
    c.position < d.position ↔ d.remaining < c.remaining := by
  have hsum := (r.forward c).position_add_remaining
  rw [hrun] at hsum
  change d.position + d.remaining = c.position + c.remaining at hsum
  constructor <;> intro hlt <;> omega

/-- Where items are read on, there is a token, and not one that stops them. -/
theorem untilNextFrom_goesOn {c : Cursor} (h : ¬ (c.atEnd || stop c.peek.kind) = true) :
    c.ahead ≠ [] ∧ stop (nextKind c.ahead) = false := by
  have hne : c.ahead ≠ [] := by
    intro hnil
    simp [Cursor.atEnd, hnil] at h
  exact ⟨hne, by simpa [Cursor.atEnd, Cursor.kind_peek, hne] using h⟩

theorem untilNextFrom_stop {c : Cursor} (h : c.ahead = [] ∨ stop (nextKind c.ahead) = true)
    (read : Array α) : untilNextFrom stop item read c = .done read.toList c := by
  rw [untilNextFrom, if_pos]
  rcases h with hnil | hstop
  · simp [Cursor.atEnd, hnil]
  · simp [Cursor.kind_peek, hstop]

/-- What a turn comes to where items are read on. -/
theorem untilNextFrom_turn {c : Cursor} (hne : c.ahead ≠ [])
    (hstop : stop (nextKind c.ahead) = false) (read : Array α) :
    untilNextFrom stop item read c =
      match item.run c with
      | .done a d =>
        if c.position < d.position then untilNextFrom stop item (read.push a) d
        else .done (read.push a).toList d
      | .failed failure d => .failed failure d := by
  have hgo : ¬ (c.atEnd || stop c.peek.kind) = true := by
    simp [Cursor.atEnd, Cursor.kind_peek, hne, hstop]
  have hturn := run_untilNextAfter stop item read c
  rw [if_neg hgo] at hturn
  exact hturn

theorem untilNextFrom_go {c d : Cursor} {a : α} (hne : c.ahead ≠ [])
    (hstop : stop (nextKind c.ahead) = false) (hrun : item.run c = .done a d)
    (hlt : d.remaining < c.remaining) (read : Array α) :
    untilNextFrom stop item read c = untilNextFrom stop item (read.push a) d := by
  have hmore : c.position < d.position := (position_lt_iff hrun).mpr hlt
  rw [untilNextFrom_turn hne hstop, hrun]
  exact if_pos hmore

theorem untilNextFrom_failed {c d : Cursor} {failure : Failure} (hne : c.ahead ≠ [])
    (hstop : stop (nextKind c.ahead) = false) (hrun : item.run c = .failed failure d)
    (read : Array α) : untilNextFrom stop item read c = .failed failure d := by
  rw [untilNextFrom_turn hne hstop, hrun]

/-- An item that takes no token is the last one. -/
theorem untilNextFrom_last {c d : Cursor} {a : α} (hne : c.ahead ≠ [])
    (hstop : stop (nextKind c.ahead) = false) (hrun : item.run c = .done a d)
    (hlt : ¬ d.remaining < c.remaining) (read : Array α) :
    untilNextFrom stop item read c = .done (read.push a).toList d := by
  have hsame : ¬ c.position < d.position := fun hmore => hlt ((position_lt_iff hrun).mp hmore)
  rw [untilNextFrom_turn hne hstop, hrun]
  exact if_neg hsame

/-- One turn of the loop, whose item may turn out to be nested too deeply. -/
theorem untilNextFrom_comes {c : Cursor} {a : α} {fits : Prop} {p : Cursor → Prop}
    (htakes : item.Takes) (hne : c.ahead ≠ []) (hstop : stop (nextKind c.ahead) = false)
    (h : (item.run c).Comes fits p (.done a)) (read : Array α) :
    (untilNextFrom stop item read c).Comes fits p (untilNextFrom stop item (read.push a)) := by
  rcases h with ⟨hfits, d, hp, hrun⟩ | ⟨hno, failure, d, hrun, hcause⟩
  · exact .intro hfits hp (untilNextFrom_go hne hstop hrun (htakes c a d hrun) read)
  · exact Or.inr ⟨hno, failure, d, untilNextFrom_failed hne hstop hrun read, hcause⟩

/-- What holds of no item, and of one more in front of the others, holds of all items read. -/
theorem untilNextFrom_done {R : Cursor → Cursor → List α → Prop} (htakes : item.Takes)
    (hnil : ∀ c, R c c [])
    (hcons : ∀ c a d as e, c.ahead ≠ [] → stop (nextKind c.ahead) = false →
      item.run c = .done a d → R d e as → R c e (a :: as))
    {read : Array α} {all : List α} {c e : Cursor}
    (h : untilNextFrom stop item read c = .done all e) :
    ∃ as, all = read.toList ++ as ∧ R c e as := by
  fun_induction untilNextFrom stop item read c with
  | case1 read c hend =>
    cases h
    exact ⟨[], by simp, hnil e⟩
  | case2 read c hgo a d hrun hmore _ ih =>
    rcases ih h with ⟨as, hall, hR⟩
    rcases untilNextFrom_goesOn hgo with ⟨hne, hstop⟩
    exact ⟨a :: as, by simp [hall], hcons c a d as e hne hstop hrun hR⟩
  | case3 read c hgo a d hrun hmore =>
    -- An item that takes a token moves the place.
    exact absurd ((position_lt_iff hrun).mpr (htakes c a d hrun)) hmore
  | case4 read c hgo failure d hrun => simp at h

end Until

end Rule

/-! ## Items with commas between them -/

/-- `Separated item i r as`: in front of `r`, the tokens of `i` are those of the items `as`, with a
comma between each and the next. -/
inductive Separated (item : List Token → List Token → α → Prop) :
    List Token → List Token → List α → Prop where
  | one {i r : List Token} {a : α} : item i r a → Separated item i r [a]
  | more {i j r : List Token} {comma : Token} {a : α} {as : List α} :
      item i (comma :: j) a → comma.kind = .operator .comma → Separated item j r as →
      Separated item i r (a :: as)

namespace Separated

variable {item item' : List Token → List Token → α → Prop}

/-- One item more, behind a comma. -/
theorem snoc {i j r : List Token} {comma : Token} {as : List α} {a : α}
    (h : Separated item i (comma :: j) as) (hcomma : comma.kind = .operator .comma)
    (ha : item j r a) : Separated item i r (as ++ [a]) := by
  generalize hk : comma :: j = k at h
  induction h with
  | one hfirst =>
    subst hk
    exact .more hfirst hcomma (.one ha)
  | more hfirst hcomma' _ ih => exact .more hfirst hcomma' (ih hk)

theorem mono (himp : ∀ i r a, item i r a → item' i r a) {i r : List Token} {as : List α}
    (h : Separated item i r as) : Separated item' i r as := by
  induction h with
  | one ha => exact .one (himp _ _ _ ha)
  | more ha hcomma _ ih => exact .more (himp _ _ _ ha) hcomma ih

theorem exists_item {i r : List Token} {as : List α} (h : Separated item i r as) :
    ∀ a ∈ as, ∃ j k, item j k a := by
  induction h with
  | one ha =>
    intro b hb
    rw [List.mem_singleton] at hb
    exact hb ▸ ⟨_, _, ha⟩
  | more ha _ _ ih =>
    intro b hb
    rcases List.mem_cons.mp hb with rfl | hb
    · exact ⟨_, _, ha⟩
    · exact ih b hb

theorem spans {Q : Token → Prop} (hitem : ∀ i r a, item i r a → Spans Q i r)
    (hcomma : ∀ t : Token, t.kind = .operator .comma → Q t) {i r : List Token} {as : List α}
    (h : Separated item i r as) : Spans Q i r := by
  induction h with
  | one ha => exact hitem _ _ _ ha
  | more ha hkind _ ih => exact ((hitem _ _ _ ha).trans (.one (hcomma _ hkind) _)).trans ih

/-- What stands behind the items is no matter to them if it is none to each of them. -/
theorem detach (hitem : ∀ i r a, item i r a → ∃ v, i = v ++ r ∧ ∀ r', item' (v ++ r') r' a)
    {i r : List Token} {as : List α} (h : Separated item i r as) :
    ∃ v, i = v ++ r ∧ ∀ r', Separated item' (v ++ r') r' as := by
  induction h with
  | one ha =>
    rcases hitem _ _ _ ha with ⟨v, hv, hfree⟩
    exact ⟨v, hv, fun r' => .one (hfree r')⟩
  | @more i j r comma a as ha hkind _ ih =>
    rcases hitem _ _ _ ha with ⟨v, rfl, hfree⟩
    rcases ih with ⟨w, rfl, hrest⟩
    refine ⟨v ++ comma :: w, by simp, fun r' => ?_⟩
    have hwhole := Separated.more (hfree (comma :: (w ++ r'))) hkind (hrest r')
    simpa using hwhole

theorem exists_first {i r : List Token} {as : List α} (h : Separated item i r as) :
    ∃ j a, item i j a := by
  cases h with
  | one ha => exact ⟨_, _, ha⟩
  | more ha _ _ => exact ⟨_, _, ha⟩

end Separated

namespace Rule

variable {item : Rule α} {R : List Token → List Token → α → Prop}

/-- What a list with commas does with an item: it goes behind those that have been read. -/
def addItem (item : Rule α) (read : Array α) : Rule (Array α) := do
  let next ← item
  return read.push next

theorem commaSeparated_eq (item : Rule α) :
    commaSeparated item = do
      let read ← addItem item #[]
      let read ← whileNext (· == .operator .comma) (fun _ => addItem item) read
      return read.toList := by
  apply ext
  intro c
  rw [commaSeparated, addItem, run_bind, run_bind, run_bind]
  cases item.run c <;> rfl

/-- The tokens that a list with commas takes are those of its items. -/
theorem commaSeparated_done (hitem : ∀ c a d, item.run c = .done a d → R c.ahead d.ahead a)
    {c d : Cursor} {as : List α} (h : (commaSeparated item).run c = .done as d) :
    Separated R c.ahead d.ahead as := by
  rcases bind_done h with ⟨first, d₁, hfirst, h⟩
  rcases bind_done h with ⟨read, d₂, hloop, h⟩
  rcases pure_done h with ⟨rfl, rfl⟩
  have hstart : Separated R c.ahead d₁.ahead (#[first] : Array α).toList :=
    .one (hitem _ _ _ hfirst)
  -- The loop keeps that the items read so far are all that lies behind.
  refine (whileNextFrom_done (P := fun read d => Separated R c.ahead d.ahead read.toList)
    (by decide) ?_ hstart hloop).1
  intro t r read b e f hread he hwanted hrun
  rcases bind_done hrun with ⟨a, g, ha, hpure⟩
  rcases pure_done hpure with ⟨rfl, rfl⟩
  rw [he] at hread
  have hitem' := hitem _ _ _ ha
  rw [Cursor.ahead_advance he] at hitem'
  rw [Array.toList_push]
  exact hread.snoc (by simpa using hwanted) hitem'

section

variable {fits : α → Prop} (stops : Kind → Prop) (hcomma : stops (.operator .comma))
  (hitem : ∀ i r a, R i r a → stops (nextKind r) → ∀ c : Cursor, c.ahead = i →
    (item.run c).Comes (fits a) (·.ahead = r) (.done a))

include hcomma hitem

/-- Whatever has been read before, the items that are still ahead are added to it. -/
theorem addItem_comes {i r : List Token} {as : List α} (h : Separated R i r as)
    (hr : stops (nextKind r)) (hne : nextKind r ≠ .operator .comma) :
    ∀ (read : Array α) (c : Cursor), c.ahead = i →
      ((addItem item read >>= whileNext (· == .operator .comma) fun _ => addItem item).run c).Comes
        (∀ a ∈ as, fits a) (·.ahead = r) (.done (read ++ as.toArray)) := by
  induction h with
  | @one i r a ha =>
    intro read c hc
    have hadd : ((addItem item read).run c).Comes (fits a) (·.ahead = r) (.done (read.push a)) :=
      Comes.bind (hitem i r a ha hr c hc) _
    have hstop : ((addItem item read >>=
        whileNext (· == .operator .comma) fun _ => addItem item).run c).Comes
        (fits a) (·.ahead = r) (.done (read.push a)) :=
      (Comes.bind hadd _).step fun d hd => ⟨d, hd, whileNextFrom_stop (by simpa [hd] using hne) _⟩
    simpa using hstop
  | @more i j r comma a as ha hkind _ ih =>
    intro read c hc
    have hadd : ((addItem item read).run c).Comes (fits a) (·.ahead = comma :: j)
        (.done (read.push a)) :=
      Comes.bind (hitem i _ a ha (by simpa [hkind] using hcomma) c hc) _
    refine ((Comes.bind hadd _).trans (G := ∀ b ∈ as, fits b) ?_).congr (by simp)
    intro _ d hd
    -- The turn of the loop behind the comma is the same rule again, with one item more.
    have hrest := ih hr hne (read.push a) d.advance (Cursor.ahead_advance hd)
    have hread : read.push a ++ as.toArray = read ++ (a :: as).toArray := by simp
    rw [run_bind, hread] at hrest
    change (whileNextFrom _ _ _ d).Comes _ _ _
    rw [whileNextFrom_go hd (by simp [hkind])]
    exact hrest

/-- Items with commas between them are read one by one, up to one behind which no comma stands.
`stops` is what has to follow an item for its rule to leave off there. -/
theorem commaSeparated_comes {i r : List Token} {as : List α} (h : Separated R i r as)
    (hr : stops (nextKind r)) (hne : nextKind r ≠ .operator .comma) {c : Cursor}
    (hc : c.ahead = i) :
    ((commaSeparated item).run c).Comes (∀ a ∈ as, fits a) (·.ahead = r) (.done as) := by
  have hall := addItem_comes stops hcomma hitem h hr hne #[] c hc
  -- The first item is read like the others, and the list is given back at the end.
  have hassoc : (commaSeparated item).run c =
      ((addItem item #[] >>= whileNext (· == .operator .comma) fun _ => addItem item) >>=
        fun read => (return read.toList : Rule (List α))).run c := by
    rw [commaSeparated_eq, run_bind, run_bind, run_bind]
    cases (addItem item #[]).run c <;> rfl
  rw [hassoc]
  refine (Comes.bind hall _).step fun d hd => ⟨d, hd, ?_⟩
  simp

end

end Rule

end ScriptCheck
