import ScriptCheck.Proofs.Statement.Forming

/-!
# How deep in blocks tokens lead

`blockDepth` counts the blocks that are open behind some tokens: each `do` opens one, and each `end`
closes one, unless none is open. What is formed opens no more blocks than it closes and closes none
that it has not opened, so it leads back to the depth where it started, whatever that is
(`Forms.opens`). `Opens` says the same of tokens that leave blocks open.
-/

namespace ScriptCheck

/-- The depth behind one more token. -/
def stepDepth (depth : Nat) (t : Token) : Nat :=
  if t.kind = .keyword .do_ then depth + 1
  else if t.kind = .keyword .end_ then depth - 1
  else depth

/-- How many blocks are open behind `tokens`, where `start` blocks are open in front of them. An
`end` closes nothing where no block is open. -/
def blockDepth (start : Nat) (tokens : List Token) : Nat :=
  tokens.foldl stepDepth start

@[simp] theorem blockDepth_nil (start : Nat) : blockDepth start [] = start := rfl

@[simp] theorem blockDepth_cons (start : Nat) (t : Token) (tokens : List Token) :
    blockDepth start (t :: tokens) = blockDepth (stepDepth start t) tokens := rfl

theorem blockDepth_append (start : Nat) (v w : List Token) :
    blockDepth start (v ++ w) = blockDepth (blockDepth start v) w :=
  List.foldl_append

/-- Whether a token neither opens nor closes a block. -/
def Token.IsQuiet (t : Token) : Prop :=
  t.kind ≠ .keyword .do_ ∧ t.kind ≠ .keyword .end_

theorem Token.IsQuiet.of_kind {t : Token} {k : Kind} (ht : t.kind = k)
    (hdo : k ≠ .keyword .do_) (hend : k ≠ .keyword .end_) : t.IsQuiet :=
  ⟨ht ▸ hdo, ht ▸ hend⟩

theorem stepDepth_of_isQuiet {t : Token} (h : t.IsQuiet) (depth : Nat) :
    stepDepth depth t = depth := by
  rw [stepDepth, if_neg h.1, if_neg h.2]

theorem blockDepth_of_isQuiet {tokens : List Token} (h : ∀ t ∈ tokens, t.IsQuiet) (start : Nat) :
    blockDepth start tokens = start := by
  induction tokens with
  | nil => rfl
  | cons t tokens ih =>
    rw [blockDepth_cons, stepDepth_of_isQuiet (h t (by simp))]
    exact ih fun u hu => h u (by simp [hu])

/-! ## Tokens that leave blocks open -/

/-- In front of `r`, the tokens of `i` leave `k` blocks more open than there were, and close none of
those. -/
def Opens (k : Nat) (i r : List Token) : Prop :=
  ∃ w, i = w ++ r ∧ ∀ start, blockDepth start w = start + k

namespace Opens

variable {k l : Nat} {i j r : List Token}

theorem refl (r : List Token) : Opens 0 r r :=
  ⟨[], rfl, fun _ => rfl⟩

theorem trans (h : Opens k i j) (h' : Opens l j r) : Opens (k + l) i r := by
  rcases h with ⟨v, rfl, hv⟩
  rcases h' with ⟨w, rfl, hw⟩
  refine ⟨v ++ w, by simp, fun start => ?_⟩
  rw [blockDepth_append, hv, hw, Nat.add_assoc]

/-- What opens no block in the end may stand in front. -/
theorem through (h : Opens 0 i j) (h' : Opens k j r) : Opens k i r := by
  have hboth := h.trans h'
  rwa [Nat.zero_add] at hboth

theorem of_isQuiet {w : List Token} (hw : ∀ t ∈ w, t.IsQuiet) (r : List Token) :
    Opens 0 (w ++ r) r :=
  ⟨w, rfl, blockDepth_of_isQuiet hw⟩

theorem one {t : Token} (ht : t.IsQuiet) (r : List Token) : Opens 0 (t :: r) r :=
  of_isQuiet (w := [t]) (by simpa using ht) r

theorem do_ {t : Token} (ht : t.kind = .keyword .do_) (r : List Token) : Opens 1 (t :: r) r :=
  ⟨[t], rfl, fun start => by simp [stepDepth, ht]⟩

/-- An `end` closes one of the blocks that have been left open. -/
theorem close {t : Token} (h : Opens (k + 1) i (t :: r)) (ht : t.kind = .keyword .end_) :
    Opens k i r := by
  rcases h with ⟨w, rfl, hw⟩
  refine ⟨w ++ [t], by simp, fun start => ?_⟩
  rw [blockDepth_append, hw]
  simp [stepDepth, ht]

theorem dropBlank (r : List Token) : Opens 0 r (dropBlank r) := by
  rcases exists_blank_append r with ⟨es, hes, hblank⟩
  refine ⟨es, hes, blockDepth_of_isQuiet fun t ht => ?_⟩
  exact .of_kind (hblank t ht) (by decide) (by decide)

end Opens

/-! ## What is formed -/

theorem Token.IsQuiet.of_isInExpression {t : Token} (h : t.kind.isInExpression = true) :
    t.IsQuiet := by
  constructor
  · intro hdo
    rw [hdo] at h
    exact absurd h (by decide)
  · intro hend
    rw [hend] at h
    exact absurd h (by decide)

theorem Spells.opens {T : Tier} {s : Bool} {i r : List Token} {e : Node} (h : Spells T s i r e) :
    Opens 0 i r := by
  rcases h.inExpression with ⟨w, rfl, -, hw⟩
  exact .of_isQuiet (fun t ht => .of_isInExpression (hw t ht)) r

theorem Terminated.opens {j r : List Token} (h : Terminated j r) : Opens 0 j r := by
  cases h with
  | line ht => exact .one (.of_kind ht (by decide) (by decide)) r
  | closed _ => exact .refl _

theorem Clause.opens {stop : Kind} {i r : List Token} {clause : Option Node}
    (h : Clause stop i r clause) : Opens 0 i r := by
  cases h with
  | none _ => exact .refl _
  | some _ he => exact he.opens

theorem Separated.opens {α : Type} {item : List Token → List Token → α → Prop} {i r : List Token}
    {as : List α} (hitem : ∀ i r a, item i r a → Opens 0 i r) (h : Separated item i r as) :
    Opens 0 i r := by
  induction h with
  | one ha => exact hitem _ _ _ ha
  | more ha hcomma _ ih =>
    have hrest := Opens.through (.one (.of_kind hcomma (by decide) (by decide)) _) ih
    exact (hitem _ _ _ ha).through hrest

theorem IsParameter.opens {i r : List Token} {name : String} (h : IsParameter i r name) :
    Opens 0 i r := by
  rcases h with ⟨t, rfl, hkind, -⟩
  exact .one (.of_kind hkind (by decide) (by decide)) r

theorem Parameters.opens {i r : List Token} {names : List String} (h : Parameters i r names) :
    Opens 0 i r := by
  cases h with
  | none _ => exact .refl _
  | some _ hnames => exact hnames.opens fun _ _ _ => IsParameter.opens

/-- Declarations that each lead back to their depth do so together, with the ends of line between
them. -/
theorem Sequence.opens {item : List Token → List Token → Nat → Node → Prop} {stop : Kind}
    {weight a : Nat} {i r : List Token} {ns : List Node}
    (hitem : ∀ i r a n, item i r a n → Opens 0 i r) (h : Sequence item stop weight i r a ns) :
    Opens 0 i r := by
  induction h with
  | done _ => exact .refl _
  | next hn _ ih => exact (hitem _ _ _ _ hn).through ((Opens.dropBlank _).through ih)

namespace Forms

/-- What is formed leads back to the depth where it started. -/
theorem opens {L : Level} {i r : List Token} {a : Nat} {n : Node} (h : Forms L i r a n) :
    Opens 0 i r := by
  -- The words and the punctuation of statements open no block, apart from `do`.
  have hone : ∀ {t : Token} {k : Kind} {i r : List Token}, t.kind = k → Opens 0 i r →
      k ≠ .keyword .do_ → k ≠ .keyword .end_ → Opens 0 (t :: i) r := by
    intro t k i r ht hi hdo hend
    exact (Opens.one (.of_kind ht hdo hend) i).through hi
  induction h using Forms.induct with
  | print hstart he hend =>
    exact hone hstart (he.opens.through hend.opens) (by decide) (by decide)
  | return_ hstart he hend =>
    exact hone hstart (he.opens.through hend.opens) (by decide) (by decide)
  | expression he hend => exact he.opens.through hend.opens
  | conditional hstart he _ _ _ ih =>
    have hbody := (Opens.dropBlank _).through (ih.through (.dropBlank _))
    exact hone hstart (he.opens.through hbody) (by decide) (by decide)
  | alternative hstart he _ _ hk hother _ ih ihElse =>
    have helse := hone hother ((Opens.dropBlank _).through ihElse) (by decide) (by decide)
    have hthen := ih.through (.dropBlank _)
    rw [hk] at hthen
    have hbody := (Opens.dropBlank _).through (hthen.through helse)
    exact hone hstart (he.opens.through hbody) (by decide) (by decide)
  | loop hstart hopen he hclose _ ih =>
    have hbody := hone hclose ((Opens.dropBlank _).through ih) (by decide) (by decide)
    exact hone hstart (hone hopen (he.opens.through hbody) (by decide) (by decide))
      (by decide) (by decide)
  | forLoop hstart hopen hinitializer hcondition hincrement _ ih =>
    have hbody := hone hincrement.nextKind_eq ((Opens.dropBlank _).through ih)
      (by decide) (by decide)
    have hthird := hone hcondition.nextKind_eq (hincrement.opens.through hbody)
      (by decide) (by decide)
    have hsecond := hone hinitializer.nextKind_eq (hcondition.opens.through hthird)
      (by decide) (by decide)
    exact hone hstart (hone hopen (hinitializer.opens.through hsecond) (by decide) (by decide))
      (by decide) (by decide)
  | blockStatement _ ih => exact ih
  | block hopen hns =>
    have hbody := (Opens.dropBlank _).through (hns.opens fun _ _ _ _ hn => hn.2)
    exact ((Opens.do_ hopen _).trans hbody).close hns.nextKind_eq
  | function hstart hname hopen hparams _ ih =>
    have hbody := hone hparams.nextKind_eq ((Opens.dropBlank _).through ih)
      (by decide) (by decide)
    exact hone hstart (hone hname (hone hopen (hparams.opens.through hbody)
      (by decide) (by decide)) (by decide) (by decide)) (by decide) (by decide)
  | declared _ ih => exact ih

end Forms

end ScriptCheck
