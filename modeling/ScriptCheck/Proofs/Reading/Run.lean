import ScriptCheck.Grammar.Progress
import ScriptCheck.Proofs.Reading.Place

/-!
# How rules end

Two kinds of lemma about the ways to build rules. The lemmas `..._done` take a run that ended with a
value apart: which tokens were ahead, and which parts ended how. The others go forward, from the
tokens ahead to the run. As any construct may turn out to be nested too deeply, what they give is
`Outcome.Comes`: the run gets to a place, provided that something fits, and gives up with the
nesting otherwise. So one induction says both when a construct is read and when it is too deep.
-/

namespace ScriptCheck

variable {α β γ : Type}

/-! ## Outcomes up to the nesting limit -/

namespace Outcome

/-- The failure to go as deep as the nesting does. -/
def TooDeep (o : Outcome α) : Prop :=
  ∃ failure d, o = .failed failure d ∧ failure.cause = .tooDeep

/-- If `fits` holds, the outcome is what `next` gives at some place with the property `p`; otherwise
the nesting is too deep. -/
def Comes (o : Outcome β) (fits : Prop) (p : Cursor → Prop) (next : Cursor → Outcome β) : Prop :=
  (fits ∧ ∃ d, p d ∧ o = next d) ∨ (¬ fits ∧ o.TooDeep)

variable {o : Outcome β} {fits G : Prop} {p q : Cursor → Prop} {next next' : Cursor → Outcome β}

theorem Comes.intro {d : Cursor} (hfits : fits) (hp : p d) (h : o = next d) :
    o.Comes fits p next :=
  Or.inl ⟨hfits, d, hp, h⟩

theorem Comes.congr (h : o.Comes fits p next) (hiff : fits ↔ G) : o.Comes G p next := by
  rcases h with ⟨hfits, hplace⟩ | ⟨hno, hdeep⟩
  · exact Or.inl ⟨hiff.mp hfits, hplace⟩
  · exact Or.inr ⟨fun hfits => hno (hiff.mpr hfits), hdeep⟩

/-- What fits is read on from where it led to. -/
theorem Comes.trans (h : o.Comes fits p next)
    (hnext : fits → ∀ d, p d → (next d).Comes G q next') :
    o.Comes (fits ∧ G) q next' := by
  rcases h with ⟨hfits, d, hp, rfl⟩ | ⟨hno, hdeep⟩
  · rcases hnext hfits d hp with ⟨hG, hplace⟩ | ⟨hno, hdeep⟩
    · exact Or.inl ⟨⟨hfits, hG⟩, hplace⟩
    · exact Or.inr ⟨fun hboth => hno hboth.2, hdeep⟩
  · exact Or.inr ⟨fun hboth => hno hboth.1, hdeep⟩

/-- Where nothing more can be too deep, going on keeps the condition. -/
theorem Comes.step (h : o.Comes fits p next)
    (hnext : ∀ d, p d → ∃ e, q e ∧ next d = next' e) : o.Comes fits q next' := by
  rcases h with ⟨hfits, d, hp, rfl⟩ | hdeep
  · rcases hnext d hp with ⟨e, hq, he⟩
    exact Or.inl ⟨hfits, e, hq, he⟩
  · exact Or.inr hdeep

/-- The same, where several steps follow. -/
theorem Comes.andThen (h : o.Comes fits p next)
    (hnext : ∀ d, p d → (next d).Comes True q next') : o.Comes fits q next' :=
  (h.trans fun _ => hnext).congr (by simp)

end Outcome

namespace Rule

/-! ## Sequences and single tokens -/

theorem Comes.bind {r : Rule α} {c : Cursor} {fits : Prop} {p : Cursor → Prop} {a : α}
    (h : (r.run c).Comes fits p (.done a)) (next : α → Rule β) :
    ((r >>= next).run c).Comes fits p (next a).run := by
  rw [run_bind]
  rcases h with ⟨hfits, d, hp, hrun⟩ | ⟨hno, failure, d, hrun, hcause⟩
  · rw [hrun]
    exact Or.inl ⟨hfits, d, hp, rfl⟩
  · rw [hrun]
    exact Or.inr ⟨hno, failure, d, rfl, hcause⟩

theorem run_bind_of_done {r : Rule α} {c d : Cursor} {a : α} (h : r.run c = .done a d)
    (next : α → Rule β) : (r >>= next).run c = (next a).run d := by
  rw [run_bind, h]

theorem bind_done {r : Rule α} {next : α → Rule β} {c e : Cursor} {b : β}
    (h : (r >>= next).run c = .done b e) :
    ∃ a d, r.run c = .done a d ∧ (next a).run d = .done b e := by
  rw [run_bind] at h
  split at h
  · next a d hd => exact ⟨a, d, hd, h⟩
  · simp at h

theorem pure_done {a b : α} {c d : Cursor} (h : (pure a : Rule α).run c = .done b d) :
    b = a ∧ d = c := by
  rw [run_pure] at h
  cases h
  exact ⟨rfl, rfl⟩

/-- Giving back what a rule ends with changes nothing. -/
theorem bind_return (r : Rule α) : r = r >>= fun a => (return a : Rule α) := by
  apply ext
  intro c
  rw [run_bind]
  cases r.run c <;> rfl

theorem run_advance_bind {c : Cursor} {t : Token} {r : List Token} (h : c.ahead = t :: r)
    (next : Token → Rule β) : (advance >>= next).run c = (next t).run c.advance := by
  rw [← Cursor.peek_of_ahead h]
  rfl

theorem run_expect {kind : Kind} {c : Cursor} {t : Token} {r : List Token} (h : c.ahead = t :: r)
    (hkind : t.kind = kind) (message : String) :
    (expect kind message).run c = .done t c.advance := by
  simp [expect, Cursor.peek_of_ahead h, hkind]

theorem expect_done {kind : Kind} (hkind : kind ≠ .eof) {message : String} {c d : Cursor}
    {t : Token} (h : (expect kind message).run c = .done t d) :
    c.ahead = t :: d.ahead ∧ t.kind = kind := by
  simp only [expect] at h
  split at h
  · next hpeek =>
    cases h
    rw [Cursor.kind_peek] at hpeek
    rcases exists_cons_of_nextKind hpeek hkind with ⟨t, r, hc, ht⟩
    rw [Cursor.peek_of_ahead hc, Cursor.ahead_advance hc]
    exact ⟨hc, ht⟩
  · simp at h

/-- Behind a token that is there, a sequence goes on. -/
theorem expect_comes {kind : Kind} {message : String} {c : Cursor} {t : Token} {r : List Token}
    {next : Token → Rule α} {fits : Prop} {p : Cursor → Prop} {nextO : Cursor → Outcome α}
    (hc : c.ahead = t :: r) (hkind : t.kind = kind)
    (h : ∀ d, d.ahead = r → ((next t).run d).Comes fits p nextO) :
    ((expect kind message >>= next).run c).Comes fits p nextO := by
  rw [run_bind_of_done (run_expect hc hkind message)]
  exact h _ (Cursor.ahead_advance hc)

theorem run_accept_of_true {wanted : Kind → Bool} {c : Cursor} {t : Token} {r : List Token}
    (h : c.ahead = t :: r) (hwanted : wanted t.kind = true) :
    (accept wanted).run c = .done (some t) c.advance := by
  simp [accept, Cursor.peek_of_ahead h, hwanted]

theorem run_accept_of_false {wanted : Kind → Bool} {c : Cursor}
    (hwanted : wanted (nextKind c.ahead) = false) : (accept wanted).run c = .done none c := by
  simp [accept, Cursor.kind_peek, hwanted]

/-- What `accept` finds: a token of the wanted kind, which it takes, or another one. -/
theorem accept_done {wanted : Kind → Bool} (heof : wanted .eof = false) {c d : Cursor}
    {found : Option Token} (h : (accept wanted).run c = .done found d) :
    (∃ t, found = some t ∧ c.ahead = t :: d.ahead ∧ wanted t.kind = true) ∨
      (found = none ∧ d = c ∧ wanted (nextKind c.ahead) = false) := by
  simp only [accept] at h
  split at h
  · next hpeek =>
    cases h
    rw [Cursor.kind_peek] at hpeek
    have hne : nextKind c.ahead ≠ .eof := by
      intro hnil
      rw [hnil, heof] at hpeek
      exact absurd hpeek (by decide)
    rcases exists_cons_of_nextKind rfl hne with ⟨t, r, hc, ht⟩
    rw [Cursor.peek_of_ahead hc, Cursor.ahead_advance hc]
    rw [← ht] at hpeek
    exact Or.inl ⟨t, rfl, hc, hpeek⟩
  · next hpeek =>
    cases h
    rw [Cursor.kind_peek] at hpeek
    exact Or.inr ⟨rfl, rfl, by simpa using hpeek⟩

theorem run_unlessNext_of_eq {stop : Kind} {c : Cursor} (h : nextKind c.ahead = stop)
    (r : Rule α) : (unlessNext stop r).run c = .done none c := by
  rw [unlessNext, run_peek_bind, Cursor.kind_peek, if_pos h]
  rfl

theorem run_unlessNext_of_ne {stop : Kind} {c : Cursor} (h : nextKind c.ahead ≠ stop)
    (r : Rule α) :
    (unlessNext stop r).run c = (r >>= fun a => (return some a : Rule (Option α))).run c := by
  rw [unlessNext, run_peek_bind, Cursor.kind_peek, if_neg h]

theorem unlessNext_done {stop : Kind} {r : Rule α} {c d : Cursor} {found : Option α}
    (h : (unlessNext stop r).run c = .done found d) :
    (found = none ∧ d = c ∧ nextKind c.ahead = stop) ∨
      (∃ a, found = some a ∧ nextKind c.ahead ≠ stop ∧ r.run c = .done a d) := by
  by_cases hstop : nextKind c.ahead = stop
  · rw [run_unlessNext_of_eq hstop] at h
    cases h
    exact Or.inl ⟨rfl, rfl, hstop⟩
  · rw [run_unlessNext_of_ne hstop] at h
    rcases bind_done h with ⟨a, e, ha, hpure⟩
    rcases pure_done hpure with ⟨rfl, rfl⟩
    exact Or.inr ⟨a, rfl, hstop, ha⟩

/-! ## Nesting -/

theorem deeper_done {way : Nesting} {budget : Nat} {inner : (rest : Nat) → rest < budget → Rule α}
    {c d : Cursor} {a : α} (h : (deeper way budget inner).run c = .done a d) :
    way.weight ≤ budget ∧
      ∃ hrest, (inner (budget - way.weight) hrest).run c = .done a d := by
  rw [deeper] at h
  split at h
  · next hle => exact ⟨hle, _, h⟩
  · simp [fail] at h

/-- A construct inside another fits if what it needs and what the nesting takes do. -/
theorem deeper_comes {way : Nesting} {budget need : Nat}
    {inner : (rest : Nat) → rest < budget → Rule α} {c : Cursor} {p : Cursor → Prop}
    {next : Cursor → Outcome α}
    (h : ∀ hrest, ((inner (budget - way.weight) hrest).run c).Comes
      (need ≤ budget - way.weight) p next) :
    ((deeper way budget inner).run c).Comes (way.weight + need ≤ budget) p next := by
  rw [deeper]
  split
  · next hle =>
    refine Outcome.Comes.congr (h _) ?_
    omega
  · next hle =>
    refine Or.inr ⟨by omega, _, c, rfl, rfl⟩

theorem insideBlock_done {r : Rule α} {c d : Cursor} {a : α}
    (h : (insideBlock r).run c = .done a d) : r.run c = .done a d := by
  simp only [insideBlock] at h
  split at h
  · next b e hrun =>
    cases h
    exact hrun
  · simp at h

theorem insideBlock_comes {r : Rule α} {c : Cursor} {fits : Prop} {p : Cursor → Prop} {a : α}
    (h : (r.run c).Comes fits p (.done a)) : ((insideBlock r).run c).Comes fits p (.done a) := by
  rcases h with ⟨hfits, d, hp, hrun⟩ | ⟨hno, failure, d, hrun, hcause⟩
  · refine Or.inl ⟨hfits, d, hp, ?_⟩
    simp only [insideBlock, hrun]
  · refine Or.inr ⟨hno, { failure with unclosed := failure.unclosed + 1 }, d, ?_, hcause⟩
    simp only [insideBlock, hrun]

end Rule

end ScriptCheck
