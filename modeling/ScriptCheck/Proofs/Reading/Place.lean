import ScriptCheck.Cursor

/-!
# Places by the tokens ahead

The grammar decides on the kind of the next token and never looks back, so what matters of a place
is the list of tokens ahead of it. `nextKind` is what a decision is made on, `dropBlank` what is
ahead once the ends of line are passed, and the lemmas on cursors say what peeking and advancing are
in these terms.
-/

namespace ScriptCheck

/-- The kind of the first token ahead; where none is left, it is the end of the input. -/
def nextKind : List Token → Kind
  | [] => .eof
  | t :: _ => t.kind

@[simp] theorem nextKind_nil : nextKind [] = .eof := rfl

@[simp] theorem nextKind_cons (t : Token) (r : List Token) : nextKind (t :: r) = t.kind := rfl

/-- A kind other than the end of the input is that of a token ahead. -/
theorem exists_cons_of_nextKind {r : List Token} {k : Kind} (h : nextKind r = k) (hk : k ≠ .eof) :
    ∃ t r', r = t :: r' ∧ t.kind = k := by
  cases r with
  | nil => exact absurd h.symm hk
  | cons t r' => exact ⟨t, r', rfl, h⟩

/-! ## Ends of line -/

/-- Whether a token is an end of line. -/
def isBlank (t : Token) : Bool :=
  t.kind == .eol

/-- What is ahead behind the ends of line at the front. -/
def dropBlank (r : List Token) : List Token :=
  r.dropWhile isBlank

@[simp] theorem dropBlank_nil : dropBlank [] = [] := rfl

theorem dropBlank_cons_eol {t : Token} (h : t.kind = .eol) (r : List Token) :
    dropBlank (t :: r) = dropBlank r := by
  simp [dropBlank, isBlank, h]

theorem dropBlank_of_nextKind_ne {r : List Token} (h : nextKind r ≠ .eol) : dropBlank r = r := by
  cases r with
  | nil => rfl
  | cons t r =>
    have ht : isBlank t = false := by
      simpa [isBlank] using h
    simp [dropBlank, ht]

theorem dropBlank_cons_of_ne {t : Token} (h : t.kind ≠ .eol) (r : List Token) :
    dropBlank (t :: r) = t :: r :=
  dropBlank_of_nextKind_ne (by simpa using h)

/-- Behind the ends of line comes something else. -/
theorem nextKind_dropBlank_ne (r : List Token) : nextKind (dropBlank r) ≠ .eol := by
  induction r with
  | nil => simp
  | cons t r ih =>
    by_cases h : t.kind = .eol
    · rw [dropBlank_cons_eol h]
      exact ih
    · rw [dropBlank_of_nextKind_ne (by simpa using h)]
      simpa using h

@[simp] theorem dropBlank_dropBlank (r : List Token) : dropBlank (dropBlank r) = dropBlank r :=
  dropBlank_of_nextKind_ne (nextKind_dropBlank_ne r)

theorem dropBlank_suffix (r : List Token) : dropBlank r <:+ r :=
  List.dropWhile_suffix _

/-- What stands in front of `dropBlank` is a run of ends of line. -/
theorem exists_blank_append (r : List Token) :
    ∃ es, r = es ++ dropBlank r ∧ ∀ t ∈ es, t.kind = .eol := by
  refine ⟨r.takeWhile isBlank, List.takeWhile_append_dropWhile.symm, ?_⟩
  intro t ht
  have hall := List.all_eq_true.mp (List.all_takeWhile (p := isBlank) (l := r)) t ht
  simpa [isBlank] using hall

theorem dropBlank_append_of_blank {es : List Token} (hes : ∀ t ∈ es, t.kind = .eol)
    (r : List Token) : dropBlank (es ++ r) = dropBlank r := by
  induction es with
  | nil => rfl
  | cons t es ih =>
    rw [List.cons_append, dropBlank_cons_eol (hes t (by simp))]
    exact ih fun u hu => hes u (by simp [hu])

theorem dropBlank_eq_nil_iff {r : List Token} : dropBlank r = [] ↔ ∀ t ∈ r, t.kind = .eol := by
  induction r with
  | nil => simp
  | cons t r ih =>
    by_cases ht : t.kind = .eol
    · rw [dropBlank_cons_eol ht, ih]
      simp [ht]
    · rw [dropBlank_of_nextKind_ne (by simpa using ht)]
      simp [ht]

/-- What is left without the ends of line at the front and at the back. -/
def trimBlank (r : List Token) : List Token :=
  (dropBlank (dropBlank r).reverse).reverse

/-- What `trimBlank` leaves off at the back is a run of ends of line. -/
theorem exists_trimBlank_append (r : List Token) :
    ∃ es, dropBlank r = trimBlank r ++ es ∧ ∀ t ∈ es, t.kind = .eol := by
  rcases exists_blank_append (dropBlank r).reverse with ⟨es, hes, hall⟩
  refine ⟨es.reverse, ?_, fun t ht => hall t (List.mem_reverse.mp ht)⟩
  rw [← List.reverse_reverse (dropBlank r), hes, List.reverse_append]
  rfl

theorem trimBlank_eq {i w r : List Token} (hi : dropBlank i = w ++ r) (hw : ∀ t ∈ w, t.kind ≠ .eol)
    (hr : dropBlank r = []) : trimBlank i = w := by
  have hblank : ∀ t ∈ r.reverse, t.kind = .eol := by
    intro t ht
    exact dropBlank_eq_nil_iff.mp hr t (List.mem_reverse.mp ht)
  -- Neither end of `w` is an end of line, so nothing of it is taken off.
  have hlast : nextKind w.reverse ≠ .eol := by
    cases hv : w.reverse with
    | nil => simp
    | cons t v =>
      have ht : t ∈ w := by
        rw [← List.mem_reverse, hv]
        simp
      exact hw t ht
  rw [trimBlank, hi, List.reverse_append, dropBlank_append_of_blank hblank,
    dropBlank_of_nextKind_ne hlast, List.reverse_reverse]

/-! ## More tokens behind a place -/

theorem nextKind_append {r : List Token} (hr : r ≠ []) (more : List Token) :
    nextKind (r ++ more) = nextKind r := by
  cases r with
  | nil => exact absurd rfl hr
  | cons t r => rfl

theorem dropBlank_append (r more : List Token) :
    dropBlank (r ++ more) = dropBlank (dropBlank r ++ more) := by
  rcases exists_blank_append r with ⟨es, hes, hall⟩
  conv => lhs; rw [hes, List.append_assoc]
  exact dropBlank_append_of_blank hall _

theorem dropBlank_append_of_ne {r : List Token} (hr : dropBlank r ≠ []) (more : List Token) :
    dropBlank (r ++ more) = dropBlank r ++ more := by
  rw [dropBlank_append]
  refine dropBlank_of_nextKind_ne ?_
  rw [nextKind_append hr]
  exact nextKind_dropBlank_ne r

theorem nextKind_dropBlank_append_ne {r more : List Token} {k : Kind}
    (hr : nextKind (dropBlank r) ≠ k) (hmore : nextKind (dropBlank more) ≠ k) :
    nextKind (dropBlank (r ++ more)) ≠ k := by
  by_cases hnil : dropBlank r = []
  · rw [dropBlank_append, hnil]
    exact hmore
  · rw [dropBlank_append_of_ne hnil, nextKind_append hnil]
    exact hr

theorem suffix_cons_cons (t u : Token) (r : List Token) : r <:+ t :: u :: r :=
  (List.suffix_cons u r).trans (List.suffix_cons t _)

/-! ## What lies between two places -/

/-- In front of `r`, there is at least one token in `i`, and all of them are as `Q` says. -/
def Spans (Q : Token → Prop) (i r : List Token) : Prop :=
  ∃ w, i = w ++ r ∧ w ≠ [] ∧ ∀ t ∈ w, Q t

namespace Spans

variable {Q Q' : Token → Prop} {i j r : List Token}

theorem one {t : Token} (ht : Q t) (r : List Token) : Spans Q (t :: r) r :=
  ⟨[t], rfl, by simp, by simpa using ht⟩

theorem trans (h : Spans Q i j) (h' : Spans Q j r) : Spans Q i r := by
  rcases h with ⟨v, rfl, hv, hvall⟩
  rcases h' with ⟨w, rfl, -, hwall⟩
  refine ⟨v ++ w, by simp, by simp [hv], ?_⟩
  intro t ht
  rcases List.mem_append.mp ht with hmem | hmem
  · exact hvall t hmem
  · exact hwall t hmem

theorem mono (himp : ∀ t, Q t → Q' t) (h : Spans Q i r) : Spans Q' i r := by
  rcases h with ⟨w, hi, hw, hall⟩
  exact ⟨w, hi, hw, fun t ht => himp t (hall t ht)⟩

theorem suffix (h : Spans Q i r) : r <:+ i := by
  rcases h with ⟨w, rfl, -, -⟩
  exact List.suffix_append w r

theorem length_lt (h : Spans Q i r) : r.length < i.length := by
  rcases h with ⟨w, rfl, hw, -⟩
  have hpos := List.length_pos_iff.mpr hw
  simp only [List.length_append]
  omega

theorem ne_nil (h : Spans Q i r) : i ≠ [] := by
  rintro rfl
  exact absurd h.length_lt (Nat.not_lt_zero _)

theorem one_of_kind {t : Token} {k k' : Kind} (ht : t.kind = k) (hne : k ≠ k') (r : List Token) :
    Spans (·.kind ≠ k') (t :: r) r :=
  one (by rwa [ht]) r

/-- Behind some tokens, the ends of line lie between two places as well. -/
theorem passBlank (heol : ∀ t : Token, t.kind = .eol → Q t) (h : Spans Q i r) :
    Spans Q i (dropBlank r) := by
  rcases h with ⟨w, rfl, hw, hall⟩
  rcases exists_blank_append r with ⟨es, hes, hblank⟩
  refine ⟨w ++ es, ?_, by simp [hw], ?_⟩
  · rw [List.append_assoc, ← hes]
  · intro t ht
    rcases List.mem_append.mp ht with hmem | hmem
    · exact hall t hmem
    · exact heol t (hblank t hmem)

end Spans

/-- In front of `r`, the tokens of `i` are given by what `f` makes of them. -/
def Segment {β : Type} (f : Token → β) (bs : List β) (i r : List Token) : Prop :=
  ∃ w, i = w ++ r ∧ w.map f = bs

namespace Segment

variable {β : Type} {f : Token → β} {b : β} {bs cs : List β} {i j r : List Token}

theorem one {t : Token} (ht : f t = b) (r : List Token) : Segment f [b] (t :: r) r :=
  ⟨[t], rfl, by simp [ht]⟩

theorem append (h : Segment f bs i j) (h' : Segment f cs j r) : Segment f (bs ++ cs) i r := by
  rcases h with ⟨v, rfl, rfl⟩
  rcases h' with ⟨w, rfl, rfl⟩
  exact ⟨v ++ w, by simp, by simp⟩

theorem suffix (h : Segment f bs i r) : r <:+ i := by
  rcases h with ⟨w, rfl, -⟩
  exact List.suffix_append w r

theorem eq_of_nil (h : Segment f [] i r) : i = r := by
  rcases h with ⟨w, rfl, hw⟩
  rw [List.map_eq_nil_iff.mp hw]
  rfl

theorem exists_of_cons (h : Segment f (b :: bs) i r) :
    ∃ t j, i = t :: j ∧ f t = b ∧ Segment f bs j r := by
  rcases h with ⟨w, rfl, hw⟩
  rcases List.map_eq_cons_iff.mp hw with ⟨t, v, rfl, ht, hv⟩
  exact ⟨t, v ++ r, rfl, ht, v, rfl, hv⟩

theorem exists_of_append (h : Segment f (bs ++ cs) i r) :
    ∃ j, Segment f bs i j ∧ Segment f cs j r := by
  rcases h with ⟨w, rfl, hw⟩
  rcases List.map_eq_append_iff.mp hw with ⟨v, v', rfl, hv, hv'⟩
  exact ⟨v' ++ r, ⟨v, by simp, hv⟩, v', rfl, hv'⟩

end Segment

/-! ## Cursors -/

namespace Cursor

/-- Tokens before the end of the input are passed on the way to it. -/
theorem takeWhile_isBeforeEnd_append {tokens : List Token} (h : ∀ t ∈ tokens, t.kind ≠ .eof)
    (more : List Token) :
    (tokens ++ more).takeWhile isBeforeEnd = tokens ++ more.takeWhile isBeforeEnd := by
  apply List.takeWhile_append_of_pos
  intro t ht
  simpa [isBeforeEnd] using h t ht

theorem takeWhile_isBeforeEnd {tokens : List Token} (h : ∀ t ∈ tokens, t.kind ≠ .eof) :
    tokens.takeWhile isBeforeEnd = tokens := by
  have hwhole := takeWhile_isBeforeEnd_append h []
  simpa using hwhole

/-- Ahead of the start are the tokens up to the first end of the input. -/
theorem ahead_ofTokens (tokens : List Token) :
    (ofTokens tokens).ahead = tokens.takeWhile isBeforeEnd := by
  -- What is put behind the tokens is an end of the input, if anything.
  have hclosing : (closing tokens).takeWhile isBeforeEnd = [] := by
    unfold closing
    split
    · rfl
    · split <;> rfl
  have hall : (tokens ++ closing tokens).takeWhile isBeforeEnd = tokens.takeWhile isBeforeEnd := by
    rw [List.takeWhile_append, hclosing, List.append_nil]
    split
    · next hlength => exact ((List.takeWhile_prefix _).eq_of_length hlength).symm
    · rfl
  unfold ofTokens
  split <;> exact hall

theorem kind_peek (c : Cursor) : c.peek.kind = nextKind c.ahead := by
  unfold peek
  cases h : c.ahead with
  | nil => simp [c.finish_eq_eof]
  | cons t r => simp

theorem peek_of_ahead {c : Cursor} {t : Token} {r : List Token} (h : c.ahead = t :: r) :
    c.peek = t := by
  simp [peek, h]

/-- A token at a place that is not the end of the input is ahead. -/
theorem exists_ahead_of_peek {c : Cursor} {k : Kind} (h : c.peek.kind = k) (hk : k ≠ .eof) :
    ∃ t r, c.ahead = t :: r ∧ c.peek = t ∧ t.kind = k := by
  rw [kind_peek] at h
  rcases exists_cons_of_nextKind h hk with ⟨t, r, hc, ht⟩
  exact ⟨t, r, hc, peek_of_ahead hc, ht⟩

theorem atEnd_of_ahead {c : Cursor} {t : Token} {r : List Token} (h : c.ahead = t :: r) :
    c.atEnd = false := by
  simp [atEnd, h]

theorem exists_ahead_of_atEnd {c : Cursor} (h : c.atEnd = false) : ∃ t r, c.ahead = t :: r := by
  cases hc : c.ahead with
  | nil => simp [atEnd, hc] at h
  | cons t r => exact ⟨t, r, rfl⟩

theorem ahead_advance {c : Cursor} {t : Token} {r : List Token} (h : c.ahead = t :: r) :
    c.advance.ahead = r := by
  simp [advance, skip, h]

theorem Reaches.suffix {c d : Cursor} : c.Reaches d → d.ahead <:+ c.ahead := by
  rintro ⟨n, rfl⟩
  exact List.drop_suffix n c.ahead

theorem Reaches.finish_eq {c d : Cursor} : c.Reaches d → d.finish = c.finish := by
  rintro ⟨n, rfl⟩
  rfl

/-- No movement changes what the tokens in front of a place and ahead of it are together. -/
theorem Reaches.behind_append_ahead {c d : Cursor} (h : c.Reaches d) :
    d.behind.reverse ++ d.ahead = c.behind.reverse ++ c.ahead := by
  rcases h with ⟨n, rfl⟩
  simp [skip]

/-- The tokens that a movement passes come behind the place. -/
theorem Reaches.behind_eq {c d : Cursor} {w : List Token} (h : c.Reaches d)
    (hw : c.ahead = w ++ d.ahead) : d.behind.reverse = c.behind.reverse ++ w := by
  have hsame := h.behind_append_ahead
  rw [hw, ← List.append_assoc] at hsame
  exact List.append_cancel_right hsame

theorem behind_ofTokens (tokens : List Token) : (ofTokens tokens).behind = [] := by
  unfold ofTokens
  split <;> rfl

/-- A place divides the tokens in front of the end of the input. -/
theorem Reaches.takeWhile_eq {tokens : List Token} {c : Cursor} (h : (ofTokens tokens).Reaches c) :
    tokens.takeWhile isBeforeEnd = c.behind.reverse ++ c.ahead := by
  rw [h.behind_append_ahead, behind_ofTokens, ahead_ofTokens]
  rfl

/-- The position of a place is the number of tokens that have been passed. -/
theorem Reaches.take_position {tokens : List Token} {c : Cursor} (h : (ofTokens tokens).Reaches c) :
    tokens.take c.position = c.behind.reverse := by
  have hsplit := List.takeWhile_append_dropWhile (p := isBeforeEnd) (l := tokens)
  rw [h.takeWhile_eq, List.append_assoc] at hsplit
  rw [← hsplit, c.position_eq_length]
  exact List.take_left' (by simp)

end Cursor

end ScriptCheck
