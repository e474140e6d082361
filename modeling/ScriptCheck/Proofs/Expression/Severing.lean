import ScriptCheck.Proofs.Expression.Separating

/-!
# Severing tokens at the first bare `and`

The first `and` outside all parentheses is found by counting: `IsFirstBareAnd` says where it is
among the tokens from some index on. An end of line in its place severs the tokens there
(`cut_of_first`), so that an expression is read while `and` separates as it is read without that up
to this end of line (`expression_separating`).
-/

namespace ScriptCheck

/-! ## The index of a bare `and` -/

/-- Whether the token at the index `q` is an `and` that is outside all parentheses opened behind the
index `p`: as many parentheses are opened as closed between the two, and none of them is closed
before it is opened. -/
structure IsBareAnd (tokens : List Token) (p q : Nat) : Prop where
  le : p ≤ q
  is_and : (tokens[q]?).map (·.kind) = some (.keyword .and_)
  level : Session.countKind (.operator .lparen) ((tokens.take q).drop p) =
    Session.countKind (.operator .rparen) ((tokens.take q).drop p)
  nested : ∀ w, w <+: (tokens.take q).drop p →
    Session.countKind (.operator .rparen) w ≤ Session.countKind (.operator .lparen) w

theorem IsBareAnd.lt_length {tokens : List Token} {p q : Nat} (h : IsBareAnd tokens p q) :
    q < tokens.length := by
  refine Nat.lt_of_not_le fun hle => ?_
  have hand := h.is_and
  simp [List.getElem?_eq_none hle] at hand

/-- Whether the index is that of the first such `and`. -/
def IsFirstBareAnd (tokens : List Token) (p q : Nat) : Prop :=
  IsBareAnd tokens p q ∧ ∀ r < q, ¬ IsBareAnd tokens p r

/-- The same in the rest of a list, where `depth` parentheses are open in front. -/
structure BareAt (depth : Nat) (r : List Token) (j : Nat) : Prop where
  is_and : (r[j]?).map (·.kind) = some (.keyword .and_)
  level : Session.countKind (.operator .lparen) (r.take j) + depth =
    Session.countKind (.operator .rparen) (r.take j)
  nested : ∀ i ≤ j, Session.countKind (.operator .rparen) (r.take i) ≤
    Session.countKind (.operator .lparen) (r.take i) + depth

theorem isBareAnd_iff {tokens : List Token} {p q : Nat} (hle : p ≤ q) :
    IsBareAnd tokens p q ↔ BareAt 0 (tokens.drop p) (q - p) := by
  have hbetween : (tokens.take q).drop p = (tokens.drop p).take (q - p) := List.drop_take
  have hget : (tokens.drop p)[q - p]? = tokens[q]? := by
    rw [List.getElem?_drop, Nat.add_sub_cancel' hle]
  constructor
  · rintro ⟨-, hand, hlevel, hnested⟩
    rw [hbetween] at hlevel hnested
    refine ⟨by rw [hget]; exact hand, hlevel, fun i hi => ?_⟩
    exact hnested _ (List.take_prefix_take_left hi)
  · rintro ⟨hand, hlevel, hnested⟩
    refine ⟨hle, by rw [← hget]; exact hand, by rw [hbetween]; exact hlevel, fun w hw => ?_⟩
    rw [hbetween] at hw
    have hlength := hw.length_le
    rw [List.length_take] at hlength
    have hprefix := hnested w.length (Nat.le_trans hlength (Nat.min_le_left _ _))
    rwa [← List.prefix_iff_eq_take.mp (hw.trans (List.take_prefix _ _))] at hprefix

instance (depth : Nat) (r : List Token) (j : Nat) : Decidable (BareAt depth r j) :=
  decidable_of_iff
    ((r[j]?).map (·.kind) = some (.keyword .and_) ∧
      Session.countKind (.operator .lparen) (r.take j) + depth =
        Session.countKind (.operator .rparen) (r.take j) ∧
      ∀ i ≤ j, Session.countKind (.operator .rparen) (r.take i) ≤
        Session.countKind (.operator .lparen) (r.take i) + depth)
    ⟨fun ⟨hand, hlevel, hnested⟩ => ⟨hand, hlevel, hnested⟩,
      fun ⟨hand, hlevel, hnested⟩ => ⟨hand, hlevel, hnested⟩⟩

instance (tokens : List Token) (p q : Nat) : Decidable (IsBareAnd tokens p q) :=
  if hle : p ≤ q then decidable_of_iff _ (isBareAnd_iff hle).symm
  else isFalse fun h => hle h.le

instance (tokens : List Token) (p q : Nat) : Decidable (IsFirstBareAnd tokens p q) :=
  inferInstanceAs (Decidable (_ ∧ _))

theorem bareAt_zero_iff {depth : Nat} {t : Token} {r : List Token} :
    BareAt depth (t :: r) 0 ↔ depth = 0 ∧ t.kind = .keyword .and_ := by
  constructor
  · rintro ⟨hand, hlevel, -⟩
    exact ⟨by simpa [Session.countKind] using hlevel, by simpa using hand⟩
  · rintro ⟨rfl, hand⟩
    refine ⟨by simp [hand], rfl, fun i hi => ?_⟩
    obtain rfl : i = 0 := by omega
    exact Nat.le_refl _

/-- How a token in front changes the depth. -/
theorem bareAt_succ_iff {depth depth' : Nat} {t : Token} {r : List Token} {j : Nat}
    (h : depth' + Session.countKind (.operator .rparen) [t] =
      depth + Session.countKind (.operator .lparen) [t]) :
    BareAt depth (t :: r) (j + 1) ↔ BareAt depth' r j := by
  have hcount : ∀ kind i, Session.countKind kind ((t :: r).take (i + 1)) =
      Session.countKind kind (r.take i) + Session.countKind kind [t] := by
    intro kind i
    rw [List.take_succ_cons, ← List.singleton_append, Session.countKind, List.countP_append,
      Nat.add_comm]
    rfl
  constructor
  · rintro ⟨hand, hlevel, hnested⟩
    rw [hcount, hcount] at hlevel
    refine ⟨by simpa using hand, by omega, fun i hi => ?_⟩
    have hnext := hnested (i + 1) (by omega)
    rw [hcount, hcount] at hnext
    omega
  · rintro ⟨hand, hlevel, hnested⟩
    refine ⟨by simpa using hand, by rw [hcount, hcount]; omega, fun i hi => ?_⟩
    cases i with
    | zero => exact Nat.zero_le _
    | succ i =>
      have hnext := hnested i (by omega)
      rw [hcount, hcount]
      omega

theorem not_bareAt_unmatched {t : Token} {r : List Token} {j : Nat}
    (h : t.kind = .operator .rparen) : ¬ BareAt 0 (t :: r) j := by
  intro hbare
  cases j with
  | zero =>
    have hand := (bareAt_zero_iff.mp hbare).2
    rw [h] at hand
    cases hand
  | succ j =>
    have hnested := hbare.nested 1 (by omega)
    simp [Session.countKind, h] at hnested

/-- The first bare `and`, if there is one, is where tokens are severed. -/
theorem cut_of_first {depth : Nat} {r r' : List Token}
    (h : (∃ j t e, BareAt depth r j ∧ (∀ i < j, ¬ BareAt depth r i) ∧ r[j]? = some t ∧
      e.kind = .eol ∧ e.line = t.line ∧ r' = r.set j e) ∨
      ((∀ j, ¬ BareAt depth r j) ∧ r' = r)) : Cut depth r r' := by
  induction r generalizing depth r' with
  | nil =>
    rcases h with ⟨j, t, e, -, -, hget, -⟩ | ⟨-, rfl⟩
    · simp at hget
    · exact .nil
  | cons t r ih =>
    -- A token that is no bare `and` itself is passed, and the rest is at the depth behind it.
    have hpass : ∀ depth', depth' + Session.countKind (.operator .rparen) [t] =
        depth + Session.countKind (.operator .lparen) [t] → ¬ BareAt depth (t :: r) 0 →
        ∃ r'', r' = t :: r'' ∧ Cut depth' r r'' := by
      intro depth' hdepth hzero
      rcases h with ⟨j, u, e, hbare, hfirst, hget, heol, hline, rfl⟩ | ⟨hnone, rfl⟩
      · cases j with
        | zero => exact absurd hbare hzero
        | succ j =>
          refine ⟨r.set j e, rfl, ih (Or.inl ⟨j, u, e, (bareAt_succ_iff hdepth).mp hbare,
            fun i hi hno => ?_, by simpa using hget, heol, hline, rfl⟩)⟩
          exact hfirst (i + 1) (by omega) ((bareAt_succ_iff hdepth).mpr hno)
      · exact ⟨r, rfl, ih (Or.inr ⟨fun j hbare =>
          hnone (j + 1) ((bareAt_succ_iff hdepth).mpr hbare), rfl⟩)⟩
    have hzero : t.kind ≠ .keyword .and_ → ¬ BareAt depth (t :: r) 0 := fun hne hbare =>
      hne (bareAt_zero_iff.mp hbare).2
    by_cases hopen : t.kind = .operator .lparen
    · rcases hpass (depth + 1) (by simp [Session.countKind, hopen]) (hzero (by simp [hopen]))
        with ⟨r'', rfl, hrest⟩
      exact .opening hopen hrest
    by_cases hclose : t.kind = .operator .rparen
    · cases depth with
      | zero =>
        rcases h with ⟨j, u, e, hbare, -⟩ | ⟨-, rfl⟩
        · exact absurd hbare (not_bareAt_unmatched hclose)
        · exact .unmatched hclose
      | succ depth =>
        rcases hpass depth (by simp [Session.countKind, hclose]) (hzero (by simp [hclose]))
          with ⟨r'', rfl, hrest⟩
        exact .closing hclose hrest
    have hsame : depth + Session.countKind (.operator .rparen) [t] =
        depth + Session.countKind (.operator .lparen) [t] := by
      simp [Session.countKind, hopen, hclose]
    by_cases hand : depth = 0 ∧ t.kind = .keyword .and_
    · rcases h with ⟨j, u, e, -, hfirst, hget, heol, hline, rfl⟩ | ⟨hnone, -⟩
      · obtain rfl : j = 0 := Nat.eq_zero_of_not_pos fun hpos =>
          hfirst 0 hpos (bareAt_zero_iff.mpr hand)
        obtain rfl : t = u := by simpa using hget
        rcases hand with ⟨rfl, hand⟩
        exact .bare hand heol hline
      · exact absurd (bareAt_zero_iff.mpr hand) (hnone 0)
    · rcases hpass depth hsame (fun hbare => hand (bareAt_zero_iff.mp hbare))
        with ⟨r'', rfl, hrest⟩
      exact .inner hopen hclose (fun hkind hdepth => hand ⟨hdepth, hkind⟩) hrest

/-! ## Places in severed tokens -/

theorem Cut.takeWhile {depth : Nat} {i i' : List Token} (h : Cut depth i i') :
    Cut depth (i.takeWhile Cursor.isBeforeEnd) (i'.takeWhile Cursor.isBeforeEnd) := by
  have hbefore : ∀ {t : Token} (r : List Token), t.kind ≠ .eof →
      (t :: r).takeWhile Cursor.isBeforeEnd = t :: r.takeWhile Cursor.isBeforeEnd :=
    fun r ht => List.takeWhile_cons_of_pos (by simpa [Cursor.isBeforeEnd] using ht)
  induction h with
  | nil => exact .nil
  | bare hand heol hline =>
    rw [hbefore _ (by simp [hand]), hbefore _ (by simp [heol])]
    exact .bare hand heol hline
  | unmatched hclose =>
    rw [hbefore _ (by simp [hclose])]
    exact .unmatched hclose
  | opening hopen _ ih =>
    rw [hbefore _ (by simp [hopen]), hbefore _ (by simp [hopen])]
    exact .opening hopen ih
  | closing hclose _ ih =>
    rw [hbefore _ (by simp [hclose]), hbefore _ (by simp [hclose])]
    exact .closing hclose ih
  | @inner _ t _ _ hopen hclose hand _ ih =>
    by_cases hend : t.kind = .eof
    · rw [List.takeWhile_cons_of_neg (by simp [Cursor.isBeforeEnd, hend]),
        List.takeWhile_cons_of_neg (by simp [Cursor.isBeforeEnd, hend])]
      exact .nil
    · rw [hbefore _ hend, hbefore _ hend]
      exact .inner hopen hclose hand ih

/-- Behind an index, the tokens in front of the end of the input are those of the rest, unless the
index is behind the end. -/
theorem drop_takeWhile {α : Type} (P : α → Bool) (p : Nat) (l : List α) :
    (l.takeWhile P).drop p = [] ∨ (l.takeWhile P).drop p = (l.drop p).takeWhile P := by
  induction p generalizing l with
  | zero => exact Or.inr rfl
  | succ p ih =>
    cases l with
    | nil => exact Or.inl rfl
    | cons a l =>
      by_cases ha : P a = true
      · rw [List.takeWhile_cons_of_pos ha]
        exact ih l
      · rw [List.takeWhile_cons_of_neg ha]
        exact Or.inl rfl

/-- Tokens in which one before the end of the input is replaced with another. -/
theorem takeWhile_set {tokens : List Token} {q : Nat} {t e : Token} (ht : tokens[q]? = some t)
    (hkind : t.kind ≠ .eof) (he : e.kind ≠ .eof) :
    (tokens.set q e).takeWhile Cursor.isBeforeEnd =
      (tokens.takeWhile Cursor.isBeforeEnd).set q e := by
  induction tokens generalizing q with
  | nil => rfl
  | cons u tokens ih =>
    cases q with
    | zero =>
      obtain rfl : u = t := by simpa using ht
      rw [List.set_cons_zero, List.takeWhile_cons_of_pos (by simpa [Cursor.isBeforeEnd] using he),
        List.takeWhile_cons_of_pos (by simpa [Cursor.isBeforeEnd] using hkind),
        List.set_cons_zero]
    | succ q =>
      have hrest := ih (q := q) (by simpa using ht)
      rw [List.set_cons_succ]
      by_cases hu : Cursor.isBeforeEnd u = true
      · rw [List.takeWhile_cons_of_pos hu, List.takeWhile_cons_of_pos hu, List.set_cons_succ, hrest]
      · rw [List.takeWhile_cons_of_neg hu, List.takeWhile_cons_of_neg hu]
        rfl

theorem dropWhile_set {tokens more : List Token} {q : Nat} {t e : Token} (ht : tokens[q]? = some t)
    (hkind : t.kind ≠ .eof) (he : e.kind ≠ .eof) (end_ : Token) :
    ((tokens.set q e ++ more).dropWhile Cursor.isBeforeEnd).headD end_ =
      ((tokens ++ more).dropWhile Cursor.isBeforeEnd).headD end_ := by
  induction tokens generalizing q with
  | nil => rfl
  | cons u tokens ih =>
    cases q with
    | zero =>
      obtain rfl : u = t := by simpa using ht
      rw [List.set_cons_zero, List.cons_append, List.cons_append,
        List.dropWhile_cons_of_pos (by simpa [Cursor.isBeforeEnd] using he),
        List.dropWhile_cons_of_pos (by simpa [Cursor.isBeforeEnd] using hkind)]
    | succ q =>
      have hrest := ih (q := q) (by simpa using ht)
      rw [List.set_cons_succ, List.cons_append, List.cons_append]
      by_cases hu : Cursor.isBeforeEnd u = true
      · rw [List.dropWhile_cons_of_pos hu, List.dropWhile_cons_of_pos hu, hrest]
      · rw [List.dropWhile_cons_of_neg hu, List.dropWhile_cons_of_neg hu]
        rfl

/-- What has to follow depends on the line of the last token only, if it is no end of the input. -/
theorem closing_set {tokens : List Token} {q : Nat} {t e : Token} (ht : tokens[q]? = some t)
    (hkind : t.kind ≠ .eof) (he : e.kind ≠ .eof) (hline : e.line = t.line) :
    Cursor.closing (tokens.set q e) = Cursor.closing tokens := by
  unfold Cursor.closing
  rw [List.getLast?_eq_getElem?, List.getLast?_eq_getElem?, List.length_set, List.getElem?_set]
  by_cases hq : q = tokens.length - 1
  · have hlt : q < tokens.length := (List.getElem?_eq_some_iff.mp ht).1
    rw [if_pos hq, if_pos hlt, ← hq, ht]
    simp [he, hkind, hline]
  · rw [if_neg hq]

/-- The end of the input is the same if the token is replaced with one on its line. -/
theorem finish_set {tokens : List Token} {q : Nat} {t e : Token} (ht : tokens[q]? = some t)
    (hkind : t.kind ≠ .eof) (he : e.kind ≠ .eof) (hline : e.line = t.line) :
    (Cursor.ofTokens (tokens.set q e)).finish = (Cursor.ofTokens tokens).finish := by
  rw [Session.finish_ofTokens, Session.finish_ofTokens, closing_set ht hkind he hline,
    dropWhile_set ht hkind he]

/-- From an index on, tokens are severed at a place with that position, if there is one. -/
theorem severed_set {tokens : List Token} {p q : Nat} {t e : Token} (hle : p ≤ q)
    (ht : tokens[q]? = some t) (hkind : t.kind ≠ .eof) (he : e.kind ≠ .eof)
    (hline : e.line = t.line) (hcut : Cut 0 (tokens.drop p) ((tokens.drop p).set (q - p) e)) :
    ((Cursor.ofTokens tokens).skip p).Severed 0 ((Cursor.ofTokens (tokens.set q e)).skip p) := by
  have hset := takeWhile_set ht hkind he
  refine ⟨?_, finish_set ht hkind he hline, ?_⟩
  · change Cut 0 ((Cursor.ofTokens tokens).ahead.drop p)
      ((Cursor.ofTokens (tokens.set q e)).ahead.drop p)
    rw [Cursor.ahead_ofTokens, Cursor.ahead_ofTokens, hset, List.drop_set, if_neg (by omega)]
    rcases drop_takeWhile Cursor.isBeforeEnd p tokens with hnil | hrest
    · rw [hnil]
      exact .nil
    · have hget : (tokens.drop p)[q - p]? = some t := by
        rw [List.getElem?_drop, Nat.add_sub_cancel' hle, ht]
      rw [hrest, ← takeWhile_set hget hkind he]
      exact hcut.takeWhile
  · change (Cursor.ofTokens (tokens.set q e)).position +
        ((Cursor.ofTokens (tokens.set q e)).ahead.take p).length =
      (Cursor.ofTokens tokens).position + ((Cursor.ofTokens tokens).ahead.take p).length
    rw [Cursor.position_eq_length, Cursor.position_eq_length, Cursor.behind_ofTokens,
      Cursor.behind_ofTokens, Cursor.ahead_ofTokens, Cursor.ahead_ofTokens, hset,
      List.length_take, List.length_take, List.length_set]

theorem severed_refl {tokens : List Token} {p : Nat}
    (hcut : Cut 0 (tokens.drop p) (tokens.drop p)) :
    ((Cursor.ofTokens tokens).skip p).Severed 0 ((Cursor.ofTokens tokens).skip p) := by
  refine ⟨?_, rfl, rfl⟩
  change Cut 0 ((Cursor.ofTokens tokens).ahead.drop p) ((Cursor.ofTokens tokens).ahead.drop p)
  rw [Cursor.ahead_ofTokens]
  rcases drop_takeWhile Cursor.isBeforeEnd p tokens with hnil | hrest
  · rw [hnil]
    exact .nil
  · rw [hrest]
    exact hcut.takeWhile

/-! ## Expressions -/

/-- Reading an expression while `and` separates is reading it as ever, up to the first bare `and`:
from any position of any tokens, with an end of line on the same line in place of that `and`, the
same tree is read and ends at the same position, or the same error arises there but for the token
that it blames. Where no `and` is bare, all of them are operators and nothing has to be replaced. -/
theorem expression_separating (tokens : List Token) (p budget : Nat) :
    (∀ q t e, IsFirstBareAnd tokens p q → tokens[q]? = some t → e.kind = .eol → e.line = t.line →
      ((Grammar.expression true budget).run ((Cursor.ofTokens tokens).skip p)).Matches
        (fun d d' => d'.position = d.position)
        ((Grammar.expression false budget).run ((Cursor.ofTokens (tokens.set q e)).skip p))) ∧
      ((∀ q, ¬ IsBareAnd tokens p q) →
        ((Grammar.expression true budget).run ((Cursor.ofTokens tokens).skip p)).Matches
          (fun d d' => d'.position = d.position)
          ((Grammar.expression false budget).run ((Cursor.ofTokens tokens).skip p))) := by
  have hruns : ∀ {c c' : Cursor}, c.Severed 0 c' →
      ((Grammar.expression true budget).run c).Matches (fun d d' => d'.position = d.position)
        ((Grammar.expression false budget).run c') := by
    intro c c' h
    rw [Grammar.expression, Grammar.expression]
    exact (Grammar.ofTier_endsAlike budget .assignment 0 c c' h).mono fun _ _ hplace =>
      hplace.position_eq
  constructor
  · rintro q t e ⟨hbare, hfirst⟩ ht heol hline
    have hand : t.kind = .keyword .and_ := by
      have hkind := hbare.is_and
      rw [ht] at hkind
      simpa using hkind
    refine hruns (severed_set hbare.le ht (by simp [hand]) (by simp [heol]) hline ?_)
    have hget : (tokens.drop p)[q - p]? = some t := by
      rw [List.getElem?_drop, Nat.add_sub_cancel' hbare.le, ht]
    refine cut_of_first (Or.inl ⟨q - p, t, e, (isBareAnd_iff hbare.le).mp hbare, ?_, hget, heol,
      hline, rfl⟩)
    intro i hi hno
    refine hfirst (p + i) (by omega) ((isBareAnd_iff (Nat.le_add_right p i)).mpr ?_)
    rwa [Nat.add_sub_cancel_left]
  · intro hnone
    refine hruns (severed_refl (cut_of_first (Or.inr ⟨fun j hbare => ?_, rfl⟩)))
    refine hnone (p + j) ((isBareAnd_iff (Nat.le_add_right p j)).mpr ?_)
    rwa [Nat.add_sub_cancel_left]

/-- The tokens of `(a and b) and c`. -/
def groupedAnd : List Token :=
  [⟨.operator .lparen, "(", 1, 1, none⟩, ⟨.ident, "a", 1, 2, none⟩,
    ⟨.keyword .and_, "and", 1, 4, none⟩, ⟨.ident, "b", 1, 8, none⟩,
    ⟨.operator .rparen, ")", 1, 9, none⟩,
    ⟨.keyword .and_, "and", 1, 11, none⟩, ⟨.ident, "c", 1, 15, none⟩]

/-- The second `and` of `(a and b) and c` is the first bare one, so that the clause ends there. -/
theorem expression_separating_grouped :
    IsFirstBareAnd groupedAnd 0 5 ∧
      ((Grammar.expression true Nesting.limit).run ((Cursor.ofTokens groupedAnd).skip 0)).Matches
        (fun d d' => d'.position = d.position)
        ((Grammar.expression false Nesting.limit).run
          ((Cursor.ofTokens (groupedAnd.set 5 ⟨.eol, "", 1, 11, none⟩)).skip 0)) := by
  have hfirst : IsFirstBareAnd groupedAnd 0 5 := by decide
  exact ⟨hfirst,
    (expression_separating groupedAnd 0 Nesting.limit).1 5 _ _ hfirst rfl rfl rfl⟩

end ScriptCheck
