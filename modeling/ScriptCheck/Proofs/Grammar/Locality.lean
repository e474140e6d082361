import ScriptCheck.Proofs.Grammar.Closure

/-!
# Rules only see the tokens up to where they end

A rule looks at one token at a time and never past the place where it ends. So two places at which
the same tokens come next, up to `r` at the one and up to `r'` at the other, are the same to a rule
that ends in front of `r`: it runs in the same way from both, whatever `r` and `r'` are
(`closed_local`). The end of the input counts as a token that comes last.

The case that matters most is that of more tokens behind the last one (`Local.failed_extends`).
There `more` is what comes at the end, and `none` where the end is the same.
-/

namespace ScriptCheck

open ScriptCheck.Rule

namespace Cursor

/-- What comes at a place: the tokens ahead of it and the end of the input. -/
def upcoming (c : Cursor) : List Token :=
  c.ahead ++ [c.finish]

/-- Whether the same tokens come at two places, up to `r` at the one and up to `r'` at the other. -/
def Shares (r r' : List Token) (c d : Cursor) : Prop :=
  ∃ w, c.upcoming = w ++ r ∧ d.upcoming = w ++ r'

/-- Whether there is a token in front of `r` at a place where `r` comes. -/
def Precedes (r : List Token) (c : Cursor) : Prop :=
  r.length < c.upcoming.length

variable {r r' l : List Token} {c c' d : Cursor} {t : Token}

theorem length_upcoming (c : Cursor) : c.upcoming.length = c.remaining + 1 := by
  simp [upcoming, remaining]

theorem peek_of_upcoming (h : c.upcoming = t :: l) : c.peek = t := by
  unfold upcoming at h
  unfold peek
  cases hc : c.ahead with
  | nil =>
    rw [hc] at h
    simpa using (List.cons.inj h).1
  | cons u r =>
    rw [hc] at h
    simpa using (List.cons.inj h).1

/-- A place where another kind of token than the end comes next is in front of one. -/
theorem ahead_ne_nil_of_kind_peek (h : c.peek.kind ≠ .eof) : c.ahead ≠ [] := by
  intro hnil
  rw [kind_peek, hnil] at h
  exact h rfl

theorem kind_peek_ne_eof (h : c.ahead ≠ []) : c.peek.kind ≠ .eof := by
  rcases List.exists_cons_of_ne_nil h with ⟨t, r, hr⟩
  rw [peek_of_ahead hr]
  exact c.ahead_ne_eof t (by simp [hr])

theorem upcoming_advance (h : c.upcoming = t :: l) (ht : t.kind ≠ .eof) :
    c.advance.upcoming = l := by
  rw [← peek_of_upcoming h] at ht
  rcases List.exists_cons_of_ne_nil (ahead_ne_nil_of_kind_peek ht) with ⟨u, r, hr⟩
  have hfinish := (reaches_skip 1 c).finish_eq
  change c.advance.finish = c.finish at hfinish
  unfold upcoming at h ⊢
  rw [hr] at h
  rw [ahead_advance hr, hfinish]
  exact (List.cons.inj h).2

theorem Precedes.of_reaches (h : d.Precedes r) (hreaches : c.Reaches d) : c.Precedes r := by
  have hle := hreaches.remaining_le
  unfold Precedes at h ⊢
  rw [length_upcoming] at h ⊢
  omega

/-- Some token comes at every place. -/
theorem precedes_nil (c : Cursor) : c.Precedes [] := by
  rw [Precedes, length_upcoming]
  exact Nat.succ_pos _

/-- The same comes at two places, the end of the input included, if the same tokens are ahead and
the end is the same. -/
theorem shares_nil_iff : c.Shares [] [] d ↔ d.ahead = c.ahead ∧ d.finish = c.finish := by
  constructor
  · rintro ⟨w, hw, hw'⟩
    have hsame : d.upcoming = c.upcoming := by rw [hw, hw']
    rcases List.append_inj' hsame rfl with ⟨hahead, hfinish⟩
    exact ⟨hahead, List.singleton_inj.mp hfinish⟩
  · rintro ⟨hahead, hfinish⟩
    exact ⟨c.upcoming, by simp, by simp [upcoming, hahead, hfinish]⟩

namespace Shares

variable (h : c.Shares r r' c') (hc : c.Precedes r)

include h

theorem remaining_add : c'.remaining + r.length = c.remaining + r'.length := by
  rcases h with ⟨w, hw, hw'⟩
  have hlength := congrArg List.length hw
  have hlength' := congrArg List.length hw'
  rw [length_upcoming, List.length_append] at hlength hlength'
  omega

include hc

theorem exists_next : ∃ t w, c.upcoming = t :: (w ++ r) ∧ c'.upcoming = t :: (w ++ r') := by
  rcases h with ⟨w, hw, hw'⟩
  cases w with
  | nil =>
    unfold Precedes at hc
    rw [hw] at hc
    exact absurd hc (Nat.lt_irrefl _)
  | cons t w => exact ⟨t, w, hw, hw'⟩

theorem peek_eq : c'.peek = c.peek := by
  rcases h.exists_next hc with ⟨t, w, hw, hw'⟩
  rw [peek_of_upcoming hw, peek_of_upcoming hw']

theorem nextKind_eq : nextKind c'.ahead = nextKind c.ahead := by
  rw [← kind_peek, ← kind_peek, h.peek_eq hc]

theorem advance (hkind : c.peek.kind ≠ .eof) : c.advance.Shares r r' c'.advance := by
  rcases h.exists_next hc with ⟨t, w, hw, hw'⟩
  rw [peek_of_upcoming hw] at hkind
  exact ⟨w, upcoming_advance hw hkind, upcoming_advance hw' hkind⟩

/-- There is a token ahead of the one place if there is one ahead of the other. -/
theorem ahead_ne_nil (hne : c.ahead ≠ []) : c'.ahead ≠ [] := by
  apply ahead_ne_nil_of_kind_peek
  rw [h.peek_eq hc]
  exact kind_peek_ne_eof hne

theorem ahead_eq_nil (hnil : c.ahead = []) : c'.ahead = [] := by
  by_cases hne : c'.ahead = []
  · exact hne
  · have hkind := kind_peek_ne_eof hne
    rw [h.peek_eq hc, kind_peek, hnil] at hkind
    exact absurd rfl hkind

end Shares

end Cursor

/-- The same outcome at another place. -/
def Outcome.withPlace {α : Type} (o : Outcome α) (d : Cursor) : Outcome α :=
  match o with
  | .done a _ => .done a d
  | .failed failure _ => .failed failure d

/-- Whether two outcomes are the same, at places of which the one shares what comes with the
other. -/
def Outcome.Shares {α : Type} (r r' : List Token) (o o' : Outcome α) : Prop :=
  ∃ d, o.place.Shares r r' d ∧ o' = o.withPlace d

/-- Whether a rule that ends in front of `r` runs in the same way from a place at which the same
tokens come in front of `r'`. -/
def Local (r r' : List Token) (α : Type) (rule : Rule α) (c : Cursor) : Prop :=
  ∀ c', c.Shares r r' c' → (rule.run c).place.Precedes r →
    (rule.run c).Shares r r' (rule.run c')

variable {r r' : List Token} {α : Type}

/-- What a local rule ends with, it ends with at the other place. -/
theorem Local.done {rule : Rule α} {c c' d : Cursor} {a : α} (h : Local r r' α rule c)
    (hc' : c.Shares r r' c') (hrun : rule.run c = .done a d) (hd : d.Precedes r) :
    ∃ d', d.Shares r r' d' ∧ rule.run c' = .done a d' := by
  have hshares := h c' hc'
  rw [hrun] at hshares
  exact hshares hd

/-- And it fails there as it does here. -/
theorem Local.failed {rule : Rule α} {c c' d : Cursor} {failure : Failure}
    (h : Local r r' α rule c) (hc' : c.Shares r r' c') (hrun : rule.run c = .failed failure d)
    (hd : d.Precedes r) : ∃ d', d.Shares r r' d' ∧ rule.run c' = .failed failure d' := by
  have hshares := h c' hc'
  rw [hrun] at hshares
  exact hshares hd

/-! ## The ways to build rules -/

theorem local_bind {β : Type} {rule : Rule α} {next : α → Rule β} {c : Cursor}
    (hr : Local r r' α rule c)
    (hnext : ∀ a d, rule.run c = .done a d → Local r r' β (next a) d) :
    Local r r' β (rule >>= next) c := by
  intro c' hc' hplace
  rw [run_bind] at hplace
  rw [run_bind, run_bind]
  cases hrun : rule.run c with
  | done a d =>
    rw [hrun] at hplace
    have hd : d.Precedes r := hplace.of_reaches ((next a).forward d)
    rcases hr.done hc' hrun hd with ⟨d', hd', hrun'⟩
    rw [hrun']
    exact hnext a d hrun d' hd' hplace
  | failed failure d =>
    rw [hrun] at hplace
    rcases hr.failed hc' hrun hplace with ⟨d', hd', hrun'⟩
    rw [hrun']
    exact ⟨d', hd', rfl⟩

theorem local_fail (cause : Token → Cause) (c : Cursor) :
    Local r r' α (fail cause) c := by
  intro c' hc' hplace
  refine ⟨c', hc', ?_⟩
  change Outcome.failed { cause := cause c'.peek } c' = _
  rw [hc'.peek_eq hplace]
  rfl

theorem local_advance {c : Cursor} (hc : c.peek.kind ≠ .eof) : Local r r' Token advance c := by
  intro c' hc' hplace
  have hbefore : c.Precedes r := hplace.of_reaches (Cursor.reaches_skip 1 c)
  refine ⟨c'.advance, hc'.advance hbefore hc, ?_⟩
  change Outcome.done c'.peek c'.advance = _
  rw [hc'.peek_eq hbefore]
  rfl

theorem local_accept {wanted : Kind → Bool} (c : Cursor) (heof : wanted .eof = false) :
    Local r r' (Option Token) (accept wanted) c := by
  intro c' hc' hplace
  have hbefore : c.Precedes r := hplace.of_reaches ((accept wanted).forward c)
  by_cases hwanted : wanted c.peek.kind = true
  · have hkind : c.peek.kind ≠ .eof := by
      intro hkind
      simp [hkind, heof] at hwanted
    refine ⟨c'.advance, ?_, ?_⟩
    · simpa [accept, hwanted, Outcome.place] using hc'.advance hbefore hkind
    · simp [accept, hc'.peek_eq hbefore, hwanted, Outcome.withPlace]
  · have hno : (accept wanted).run c = .done none c := by
      simp [accept, hwanted]
    rw [hno]
    refine ⟨c', hc', ?_⟩
    simp [accept, hc'.peek_eq hbefore, hwanted, Outcome.withPlace]

theorem local_expect {kind : Kind} (message : String) (c : Cursor) (heof : kind ≠ .eof) :
    Local r r' Token (expect kind message) c := by
  intro c' hc' hplace
  have hbefore : c.Precedes r := hplace.of_reaches ((expect kind message).forward c)
  by_cases hkind : c.peek.kind = kind
  · refine ⟨c'.advance, ?_, ?_⟩
    · simpa [expect, hkind, Outcome.place] using hc'.advance hbefore (by rw [hkind]; exact heof)
    · simp [expect, hc'.peek_eq hbefore, hkind, Outcome.withPlace]
  · have hno : (expect kind message).run c =
        .failed { cause := .invalid (.unexpected message c.peek (some kind)) } c := by
      simp [expect, hkind]
    rw [hno]
    refine ⟨c', hc', ?_⟩
    simp [expect, hc'.peek_eq hbefore, hkind, Outcome.withPlace]

theorem local_insideBlock {rule : Rule α} {c : Cursor} (h : Local r r' α rule c) :
    Local r r' α (insideBlock rule) c := by
  intro c' hc' hplace
  simp only [insideBlock] at hplace ⊢
  cases hrun : rule.run c with
  | done a d =>
    rw [hrun] at hplace
    rcases h.done hc' hrun hplace with ⟨d', hd', hrun'⟩
    rw [hrun']
    exact ⟨d', hd', rfl⟩
  | failed failure d =>
    rw [hrun] at hplace
    rcases h.failed hc' hrun hplace with ⟨d', hd', hrun'⟩
    rw [hrun']
    exact ⟨d', hd', rfl⟩

theorem local_whileNext {wanted : Kind → Bool} {step : Token → α → Rule α}
    (heof : wanted .eof = false) (hstep : ∀ t a c, Local r r' α (step t a) c) (a : α)
    (c : Cursor) : Local r r' α (whileNext wanted step a) c := by
  intro c'
  change c.Shares r r' c' → (whileNextFrom wanted step a c).place.Precedes r →
    (whileNextFrom wanted step a c).Shares r r' (whileNextFrom wanted step a c')
  generalize hn : c.remaining = n
  induction n using Nat.strongRecOn generalizing a c c' with
  | ind n ih =>
    intro hc' hplace
    have hc : c.Precedes r := hplace.of_reaches (reaches_whileNextFrom wanted step a c)
    have hnext := hc'.nextKind_eq hc
    by_cases hwanted : wanted (nextKind c.ahead) = true
    · -- Both loops take a turn, and go on from places at which the same tokens come.
      have hne : nextKind c.ahead ≠ .eof := by
        intro hkind
        simp [hkind, heof] at hwanted
      rcases exists_cons_of_nextKind rfl hne with ⟨t, l, hl, ht⟩
      rcases exists_cons_of_nextKind hnext hne with ⟨t', l', hl', -⟩
      have hsame : t' = t := by
        rw [← Cursor.peek_of_ahead hl', ← Cursor.peek_of_ahead hl, hc'.peek_eq hc]
      subst hsame
      rw [← ht] at hwanted
      rw [whileNextFrom_go hl hwanted] at hplace ⊢
      rw [whileNextFrom_go hl' hwanted]
      have hadvance : c.advance.Shares r r' c'.advance :=
        hc'.advance hc (by rwa [Cursor.kind_peek])
      cases hrun : (step t' a).run c.advance with
      | done b d =>
        rw [hrun] at hplace
        have hd : d.Precedes r := hplace.of_reaches (reaches_whileNextFrom wanted step b d)
        rcases (hstep t' a c.advance).done hadvance hrun hd with ⟨d', hd', hrun'⟩
        rw [hrun']
        have hle := remaining_le_of_run hrun rfl
        have hlt := Cursor.remaining_advance_lt (Cursor.atEnd_of_ahead hl)
        change d.remaining ≤ c.advance.remaining at hle
        exact ih d.remaining (by omega) b d d' rfl hd' hplace
      | failed failure d =>
        rw [hrun] at hplace
        rcases (hstep t' a c.advance).failed hadvance hrun hplace with ⟨d', hd', hrun'⟩
        rw [hrun']
        exact ⟨d', hd', rfl⟩
    · -- Both loops stop, since the next token is the same.
      have hno : wanted (nextKind c.ahead) = false := by simpa using hwanted
      have hno' : wanted (nextKind c'.ahead) = false := by rwa [hnext]
      rw [whileNextFrom_stop hno, whileNextFrom_stop hno']
      exact ⟨c', hc', rfl⟩

theorem local_untilNext {stop : Kind → Bool} {item : Rule α}
    (hitem : ∀ c, Local r r' α item c) (c : Cursor) :
    Local r r' (List α) (untilNext stop item) c := by
  intro c'
  change c.Shares r r' c' → (untilNextFrom stop item #[] c).place.Precedes r →
    (untilNextFrom stop item #[] c).Shares r r' (untilNextFrom stop item #[] c')
  generalize (#[] : Array α) = read
  generalize hn : c.remaining = n
  induction n using Nat.strongRecOn generalizing read c c' with
  | ind n ih =>
    intro hc' hplace
    have hc : c.Precedes r := hplace.of_reaches (reaches_untilNextFrom stop item read c)
    have hnext := hc'.nextKind_eq hc
    by_cases hend : c.ahead = [] ∨ stop (nextKind c.ahead) = true
    · -- Both loops stop, at the same token or at the end.
      have hend' : c'.ahead = [] ∨ stop (nextKind c'.ahead) = true := by
        rcases hend with hnil | hstop
        · exact Or.inl (hc'.ahead_eq_nil hc hnil)
        · exact Or.inr (by rwa [hnext])
      rw [untilNextFrom_stop hend, untilNextFrom_stop hend']
      exact ⟨c', hc', rfl⟩
    · -- Both loops read an item, and both go on behind it if it takes a token.
      have hne : c.ahead ≠ [] := fun hnil => hend (Or.inl hnil)
      have hstop : stop (nextKind c.ahead) = false := by
        simpa using fun hstop => hend (Or.inr hstop)
      have hne' : c'.ahead ≠ [] := hc'.ahead_ne_nil hc hne
      have hstop' : stop (nextKind c'.ahead) = false := by rwa [hnext]
      cases hrun : item.run c with
      | done a d =>
        by_cases hlt : d.remaining < c.remaining
        · rw [untilNextFrom_go hne hstop hrun hlt] at hplace ⊢
          have hd : d.Precedes r :=
            hplace.of_reaches (reaches_untilNextFrom stop item (read.push a) d)
          rcases (hitem c).done hc' hrun hd with ⟨d', hd', hrun'⟩
          have hlt' : d'.remaining < c'.remaining := by
            have hsum := hc'.remaining_add
            have hsum' := hd'.remaining_add
            omega
          rw [untilNextFrom_go hne' hstop' hrun' hlt']
          exact ih d.remaining (by omega) d d' (read.push a) rfl hd' hplace
        · rw [untilNextFrom_last hne hstop hrun hlt] at hplace ⊢
          rcases (hitem c).done hc' hrun hplace with ⟨d', hd', hrun'⟩
          have hlt' : ¬ d'.remaining < c'.remaining := by
            have hsum := hc'.remaining_add
            have hsum' := hd'.remaining_add
            omega
          rw [untilNextFrom_last hne' hstop' hrun' hlt']
          exact ⟨d', hd', rfl⟩
      | failed failure d =>
        rw [untilNextFrom_failed hne hstop hrun] at hplace ⊢
        rcases (hitem c).failed hc' hrun hplace with ⟨d', hd', hrun'⟩
        rw [untilNextFrom_failed hne' hstop' hrun']
        exact ⟨d', hd', rfl⟩

theorem closed_local (r r' : List Token) : Closed (Local r r') where
  pure a c := fun c' hc' _ => ⟨c', hc', rfl⟩
  bind := local_bind
  look {β next c} h := by
    intro c' hc' hplace
    have hc : c.Precedes r := hplace.of_reaches ((peek >>= next).forward c)
    rw [run_peek_bind] at hplace
    rw [run_peek_bind, run_peek_bind, hc'.peek_eq hc]
    exact h c' hc' hplace
  advance := local_advance
  accept := local_accept
  expect message c hkind := local_expect message c hkind
  tooDeep c := local_fail _ c
  invalid c _ := local_fail _ c
  numeral hkind _ := local_bind (local_advance (by simp [hkind])) fun _ d _ => local_fail _ d
  insideBlock := local_insideBlock
  whileNext heof h a c := local_whileNext heof h a c
  untilNext h c := local_untilNext h c

/-! ## More tokens behind the last one -/

/-- Whether `more` comes behind the tokens ahead of `c` at the place `d`. -/
def Cursor.Extends (more : Option (List Token)) (c d : Cursor) : Prop :=
  d.ahead = c.ahead ++ more.getD [] ∧ (more = none → d.finish = c.finish)

/-- Whether the end of what is ahead of a place is no matter: it has not been reached, or it is the
same in any case. -/
def Cursor.Within (more : Option (List Token)) (c : Cursor) : Prop :=
  c.ahead ≠ [] ∨ more = none

variable {more : Option (List Token)}

theorem Cursor.Extends.peek_eq {c c' : Cursor} (h : c.Extends more c') (hc : c.Within more) :
    c'.peek = c.peek := by
  rcases hc with hne | rfl
  · rcases List.exists_cons_of_ne_nil hne with ⟨t, r, hr⟩
    have hr' : c'.ahead = t :: (r ++ more.getD []) := by rw [h.1, hr, List.cons_append]
    rw [peek_of_ahead hr, peek_of_ahead hr']
  · have hahead : c'.ahead = c.ahead := by simpa using h.1
    simp only [peek, hahead, h.2 rfl]

/-- A rule that fails within the tokens ahead of a place fails in the same way where `more` comes
behind them. -/
theorem Local.failed_extends {rule : Rule α} (h : ∀ r r', Always (Local r r') rule)
    {c c' d : Cursor} {failure : Failure} (hc : c.Extends more c') (hwithin : d.Within more)
    (hrun : rule.run c = .failed failure d) :
    ∃ d', d.Extends more d' ∧ rule.run c' = .failed failure d' := by
  have hforward := rule.forward c
  rw [hrun] at hforward
  have hfinish : d.finish = c.finish := hforward.finish_eq
  cases more with
  | none =>
    -- All that comes at the one place comes at the other.
    have hahead : c'.ahead = c.ahead := by simpa using hc.1
    have hshares : c.Shares [] [] c' := Cursor.shares_nil_iff.mpr ⟨hahead, hc.2 rfl⟩
    rcases (h [] [] c).failed hshares hrun d.precedes_nil with ⟨d', hd', hrun'⟩
    rcases Cursor.shares_nil_iff.mp hd' with ⟨hahead', hfinish'⟩
    exact ⟨d', ⟨by simpa using hahead', fun _ => hfinish'⟩, hrun'⟩
  | some more =>
    have hshares : c.Shares [c.finish] (more ++ [c'.finish]) c' :=
      ⟨c.ahead, rfl, by simp [Cursor.upcoming, hc.1]⟩
    have hplace : d.Precedes [c.finish] := by
      rcases hwithin with hne | hnone
      · have hpos := List.length_pos_iff.mpr hne
        simpa [Cursor.Precedes, Cursor.upcoming] using hpos
      · cases hnone
    rcases (h _ _ c).failed hshares hrun hplace with ⟨d', ⟨w, hw, hw'⟩, hrun'⟩
    have hforward' := rule.forward c'
    rw [hrun'] at hforward'
    have hfinish' : d'.finish = c'.finish := hforward'.finish_eq
    refine ⟨d', ⟨?_, fun hnone => by cases hnone⟩, hrun'⟩
    unfold Cursor.upcoming at hw hw'
    rw [hfinish] at hw
    rw [hfinish', ← List.append_assoc] at hw'
    rw [List.append_cancel_right hw', List.append_cancel_right hw]
    rfl

end ScriptCheck
