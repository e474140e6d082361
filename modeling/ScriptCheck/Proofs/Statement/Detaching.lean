import ScriptCheck.Proofs.Statement.Forming

/-!
# What stands behind a statement

A statement does not depend on the tokens behind it, with three exceptions: in front of some tokens
it may end without an end of line, a conditional looks for an `else`, and it passes the ends of line
on the way. `Replaces` says when other tokens may stand behind a statement in the place of those
that do, and `Forms.detach` that they may. `Sequence.detach` does the same for the declarations in
front of a place, and lets others follow there.
-/

namespace ScriptCheck

/-! ## Other tokens behind a place -/

/-- Whether the tokens of `r'` may stand behind a statement that is formed in front of `r`. -/
structure Replaces (r r' : List Token) : Prop where
  closes : (nextKind r).closesStatement = true → (nextKind r').closesStatement = true
  else_of : nextKind r' = .keyword .else_ → nextKind r = .keyword .else_
  eol_of : nextKind r' = .eol → nextKind r = .eol

namespace Replaces

variable {r r' : List Token}

theorem of_nextKind_eq (h : nextKind r' = nextKind r) : Replaces r r' := by
  constructor
  · intro hcloses
    rwa [h]
  · intro helse
    rwa [← h]
  · intro heol
    rwa [← h]

/-- What closes a block or the input may stand behind any statement. -/
theorem of_closes (hcloses : (nextKind r').closesStatement = true)
    (helse : nextKind r' ≠ .keyword .else_) : Replaces r r' := by
  refine ⟨fun _ => hcloses, fun h => absurd h helse, fun h => ?_⟩
  rw [h] at hcloses
  exact absurd hcloses (by decide)

/-- Behind the same tokens, others may be replaced as well. -/
theorem append (h : Replaces r r') (w : List Token) : Replaces (w ++ r) (w ++ r') := by
  cases w with
  | nil => exact h
  | cons t w => exact of_nextKind_eq rfl

theorem nextKind_ne_eol (h : Replaces r r') (hr : nextKind r ≠ .eol) : nextKind r' ≠ .eol :=
  fun heol => hr (h.eol_of heol)

/-- What is replaced behind ends of line is what is left when they are passed. -/
theorem dropBlank_append (h : Replaces r r') (hr : nextKind r ≠ .eol) {es : List Token}
    (hes : ∀ t ∈ es, t.kind = .eol) : dropBlank (es ++ r') = r' := by
  rw [dropBlank_append_of_blank hes, dropBlank_of_nextKind_ne (h.nextKind_ne_eol hr)]

end Replaces

theorem Terminated.detach {j r : List Token} (h : Terminated j r) :
    ∃ v, j = v ++ r ∧ ∀ r', Replaces r r' → Terminated (v ++ r') r' := by
  cases h with
  | @line r t ht => exact ⟨[t], rfl, fun _ _ => .line ht⟩
  | closed hcloses => exact ⟨[], rfl, fun _ hr => .closed (hr.closes hcloses)⟩

/-! ## Statements -/

/-- Whether other tokens may stand behind what is formed, as far as `Replaces` allows it. -/
def Detaches (L : Level) (i r : List Token) (a : Nat) (n : Node) : Prop :=
  ∃ v, i = v ++ r ∧ ∀ r', Replaces r r' → Forms L (v ++ r') r' a n

/-- The same of what is formed behind ends of line. -/
theorem Detaches.behind_blank {L : Level} {j k : List Token} {a : Nat} {n : Node}
    (h : Detaches L (dropBlank j) k a n) :
    ∃ w, j = w ++ k ∧ w ≠ [] ∧
      ∀ k', Replaces k k' → Forms L (dropBlank (w ++ k')) k' a n := by
  rcases h with ⟨v, hv, hforms⟩
  rcases exists_blank_append j with ⟨es, hes, hblank⟩
  have hself := hforms k (.of_nextKind_eq rfl)
  have hne : v ≠ [] := by
    rintro rfl
    exact absurd hself.spans.length_lt (Nat.lt_irrefl _)
  rw [hv] at hes
  refine ⟨es ++ v, by rw [hes, List.append_assoc], by simp [hne], fun k' hk => ?_⟩
  have hkind : nextKind (v ++ k) ≠ .eol := by
    rw [← hv]
    exact nextKind_dropBlank_ne j
  rw [List.append_assoc, (hk.append v).dropBlank_append hkind hblank]
  exact hforms k' hk

/-- Declarations of which this is known may stand in front of others, if the first token behind them
allows it. -/
theorem Sequence.detach_of {stop : Kind} (stop' : Kind) {weight a : Nat} {i r : List Token}
    {ns : List Node}
    (h : Sequence (fun i r a n => ∃ _ : Forms .declaration i r a n, Detaches .declaration i r a n)
      stop weight i r a ns) :
    ∃ u, i = u ++ r ∧ ∀ r' k b ms, Replaces r r' →
      Sequence (Forms .declaration) stop' weight r' k b ms →
      Sequence (Forms .declaration) stop' weight (u ++ r') k (max a b) (ns ++ ms) := by
  induction h with
  | @done r hr =>
    refine ⟨[], rfl, fun r' k b ms _ hms => ?_⟩
    rw [Nat.zero_max]
    exact hms
  | @next i j r c d n ns hn hns ih =>
    rcases hn with ⟨hforms, v, rfl, hv⟩
    rcases exists_blank_append j with ⟨es, hes, hblank⟩
    rcases ih with ⟨u, hu, hrest⟩
    have hne : nextKind (u ++ r) ≠ .eol := by
      rw [← hu]
      exact nextKind_dropBlank_ne j
    rw [hu] at hes
    refine ⟨v ++ (es ++ u), by rw [hes]; simp, fun r' k b ms hr hms => ?_⟩
    -- The ends of line behind the first declaration are the same, and so is what follows them.
    have hfirst := hv (es ++ (u ++ r')) (by rw [hes]; exact (hr.append u).append es)
    have hbehind := hrest r' k b ms hr hms
    rw [← (hr.append u).dropBlank_append hne hblank] at hbehind
    have hwhole := Sequence.next hfirst hbehind
    rw [← Nat.max_assoc] at hwhole
    simpa using hwhole

namespace Forms

/-- What is formed does not depend on the tokens behind it, as far as `Replaces` allows it. -/
theorem detach {L : Level} {i r : List Token} {a : Nat} {n : Node} (h : Forms L i r a n) :
    ∃ v, i = v ++ r ∧ ∀ r', Replaces r r' → Forms L (v ++ r') r' a n := by
  induction h using Forms.induct with
  | @print i j r start e hstart he hend =>
    rcases he.detach with ⟨v, rfl, hv⟩
    rcases hend.detach with ⟨w, rfl, hw⟩
    refine ⟨start :: (v ++ w), by simp, fun r' hr => ?_⟩
    simpa using Forms.print hstart (hv (w ++ r')) (hw r' hr)
  | @return_ i j r start e hstart he hend =>
    rcases he.detach with ⟨v, rfl, hv⟩
    rcases hend.detach with ⟨w, rfl, hw⟩
    refine ⟨start :: (v ++ w), by simp, fun r' hr => ?_⟩
    simpa using Forms.return_ hstart (hv (w ++ r')) (hw r' hr)
  | expression he hend =>
    rcases he.detach with ⟨v, rfl, hv⟩
    rcases hend.detach with ⟨w, rfl, hw⟩
    refine ⟨v ++ w, by simp, fun r' hr => ?_⟩
    simpa using Forms.expression (hv (w ++ r')) (hw r' hr)
  | @conditional i j k a start e n hstart he hstop hn hno ih =>
    rcases he.detach with ⟨v, rfl, hv⟩
    rcases Detaches.behind_blank ih with ⟨w, rfl, hw, hbody⟩
    rcases exists_blank_append k with ⟨es, hes, hblank⟩
    refine ⟨start :: (v ++ (w ++ es)), by simp [← hes], fun r' hr => ?_⟩
    have hend : dropBlank (es ++ r') = r' := hr.dropBlank_append (nextKind_dropBlank_ne k) hblank
    have hbehind : Replaces k (es ++ r') := by
      have happend := hr.append es
      rwa [← hes] at happend
    have hno' : nextKind (dropBlank (es ++ r')) ≠ .keyword .else_ := by
      rw [hend]
      exact fun helse => hno (hr.else_of helse)
    have hwhole := Forms.conditional hstart (hv (w ++ (es ++ r')))
      (by rwa [nextKind_append hw] at hstop ⊢) (hbody _ hbehind) hno'
    rw [hend] at hwhole
    simpa using hwhole
  | @alternative i j k l r a b start other e n m hstart he hstop hn hk hother hm ih ihElse =>
    rcases he.detach with ⟨v, rfl, hv⟩
    rcases Detaches.behind_blank ih with ⟨w, rfl, hw, hbody⟩
    rcases Detaches.behind_blank ihElse with ⟨u, rfl, hu, helse⟩
    rcases exists_blank_append k with ⟨es, hes, hblank⟩
    rw [hk] at hes
    refine ⟨start :: (v ++ (w ++ (es ++ other :: u))), by simp [hes], fun r' hr => ?_⟩
    -- The `else` stays where it is, so the first branch ends in front of the same tokens.
    have hsame : Replaces (other :: (u ++ r)) (other :: (u ++ r')) := .of_nextKind_eq rfl
    have hbehind : Replaces k (es ++ other :: (u ++ r')) := by
      rw [hes]
      exact hsame.append es
    have hend : dropBlank (es ++ other :: (u ++ r')) = other :: (u ++ r') :=
      hsame.dropBlank_append (by simp [hother]) hblank
    have hwhole := Forms.alternative hstart (hv (w ++ (es ++ other :: (u ++ r'))))
      (by rwa [nextKind_append hw] at hstop ⊢) (hbody _ hbehind) hend hother (helse r' hr)
    simpa using hwhole
  | @loop i j r a start opening closing e n hstart hopen he hclose hn ih =>
    rcases he.detach with ⟨v, rfl, hv⟩
    rcases Detaches.behind_blank ih with ⟨w, rfl, -, hbody⟩
    refine ⟨start :: opening :: (v ++ closing :: w), by simp, fun r' hr => ?_⟩
    simpa using Forms.loop hstart hopen (hv (closing :: (w ++ r'))) hclose (hbody r' hr)
  | @forLoop i j k l r a start opening and₁ and₂ closing initializer condition increment n hstart
      hopen hinitializer hcondition hincrement hn ih =>
    rcases hinitializer.detach with ⟨v₁, rfl, hv₁⟩
    rcases hcondition.detach with ⟨v₂, rfl, hv₂⟩
    rcases hincrement.detach with ⟨v₃, rfl, hv₃⟩
    rcases Detaches.behind_blank ih with ⟨w, rfl, -, hbody⟩
    refine ⟨start :: opening :: (v₁ ++ and₁ :: (v₂ ++ and₂ :: (v₃ ++ closing :: w))), by simp,
      fun r' hr => ?_⟩
    have hwhole := Forms.forLoop hstart hopen
      (hv₁ (v₂ ++ and₂ :: (v₃ ++ closing :: (w ++ r')))) (hv₂ (v₃ ++ closing :: (w ++ r')))
      (hv₃ (w ++ r')) (hbody r' hr)
    simpa using hwhole
  | blockStatement _ ih =>
    rcases ih with ⟨v, hi, hv⟩
    exact ⟨v, hi, fun r' hr => .blockStatement (hv r' hr)⟩
  | @block i r a opening closing ns hopen hns =>
    rcases exists_blank_append i with ⟨es, hes, hblank⟩
    rcases Sequence.detach_of (.keyword .end_) hns with ⟨u, hu, hbody⟩
    have hne : nextKind (u ++ closing :: r) ≠ .eol := by
      rw [← hu]
      exact nextKind_dropBlank_ne i
    rw [hu] at hes
    refine ⟨opening :: (es ++ (u ++ [closing])), by simp [hes], fun r' _ => ?_⟩
    -- The word that closes the block stays where it is.
    have hsame : Replaces (closing :: r) (closing :: r') := .of_nextKind_eq rfl
    have hsequence := hbody (closing :: r') _ _ _ hsame (.done hns.nextKind_eq)
    rw [← (hsame.append u).dropBlank_append hne hblank] at hsequence
    simpa using Forms.block hopen hsequence
  | @function i j r a start name opening closing params body hstart hname hopen hparams hbody ih =>
    rcases hparams.detach with ⟨v, rfl, hv⟩
    rcases Detaches.behind_blank ih with ⟨w, rfl, -, hblock⟩
    refine ⟨start :: name :: opening :: (v ++ closing :: w), by simp, fun r' hr => ?_⟩
    simpa using Forms.function hstart hname hopen (hv (w ++ r')) (hblock r' hr)
  | declared _ ih =>
    rcases ih with ⟨v, hi, hv⟩
    exact ⟨v, hi, fun r' hr => .declared (hv r' hr)⟩

end Forms

/-- Other declarations may follow those in front of a place, if the first tokens allow it. -/
theorem Sequence.detach {stop : Kind} (stop' : Kind) {weight a : Nat} {i r : List Token}
    {ns : List Node} (h : Sequence (Forms .declaration) stop weight i r a ns) :
    ∃ u, i = u ++ r ∧ ∀ r' k b ms, Replaces r r' →
      Sequence (Forms .declaration) stop' weight r' k b ms →
      Sequence (Forms .declaration) stop' weight (u ++ r') k (max a b) (ns ++ ms) :=
  (h.mono fun _ _ _ _ hforms => ⟨hforms, hforms.detach⟩).detach_of stop'

end ScriptCheck
