import Mathlib
import ScriptCheck.Proofs.Program.Lines
import ScriptCheck.Proofs.Program.SourceOrder

/-!
# Where reading resumes

After an error, reading resumes at the first safe point behind the token where the error arose: a
place behind an end of line, in front of a word that starts a statement, or at the end of the input
(`Cursor.synchronize_isLeast`). The token itself is passed over whatever it is, and no later one is
if it starts a statement.
-/

namespace ScriptCheck

/-- Whether the token with the given index is of a kind with the property. -/
def HasKindAt (tokens : List Token) (index : Nat) (P : Kind → Prop) : Prop :=
  ∃ t, tokens[index]? = some t ∧ P t.kind

/-- Whether reading may resume in front of the token with the given index: behind an end of line, in
front of a word that starts a statement, or at the end of the input. -/
def IsSafePoint (tokens : List Token) (index : Nat) : Prop :=
  HasKindAt tokens (index - 1) (· = .eol) ∨
    HasKindAt tokens index (fun k => k.startsStatement = true) ∨ HasKindAt tokens index (· = .eof)

theorem hasKindAt_cons_succ {t : Token} {tokens : List Token} {index : Nat} {P : Kind → Prop} :
    HasKindAt (t :: tokens) (index + 1) P ↔ HasKindAt tokens index P := by
  rw [HasKindAt, HasKindAt, List.getElem?_cons_succ]

theorem hasKindAt_zero {t : Token} {tokens : List Token} {P : Kind → Prop} :
    HasKindAt (t :: tokens) 0 P ↔ P t.kind := by
  simp [HasKindAt]

theorem hasKindAt_append {before tokens : List Token} {index : Nat} {P : Kind → Prop} :
    HasKindAt (before ++ tokens) (before.length + index) P ↔ HasKindAt tokens index P := by
  rw [HasKindAt, HasKindAt, List.getElem?_append_right (Nat.le_add_right _ _),
    Nat.add_sub_cancel_left]

/-! ## Safe points ahead -/

/-- Behind the first token, points are as safe as they are without it. -/
theorem isSafePoint_cons {t : Token} {tokens : List Token} {index : Nat} (h : 0 < index) :
    IsSafePoint (t :: tokens) (index + 1) ↔ IsSafePoint tokens index := by
  rcases Nat.exists_eq_add_one_of_ne_zero (Nat.ne_of_gt h) with ⟨i, rfl⟩
  simp only [IsSafePoint, Nat.add_sub_cancel, hasKindAt_cons_succ]

/-- Right behind a token is a safe point if the token is an end of line, or if the next one starts a
statement or is the end of the input. -/
theorem isSafePoint_one {t u : Token} {tokens : List Token} :
    IsSafePoint (t :: u :: tokens) 1 ↔
      t.kind = .eol ∨ u.kind.startsStatement = true ∨ u.kind = .eof := by
  rw [IsSafePoint, hasKindAt_cons_succ, hasKindAt_cons_succ, hasKindAt_zero, hasKindAt_zero,
    hasKindAt_zero]

/-- The tokens passed over after an error end at the first safe point. -/
theorem resumeDistance_isLeast {ahead beyond : List Token} {finish : Token} (hne : ahead ≠ [])
    (hahead : ∀ t ∈ ahead, t.kind ≠ .eof) (hfinish : finish.kind = .eof) :
    IsLeast {n | 0 < n ∧ IsSafePoint (ahead ++ finish :: beyond) n}
      (Cursor.resumeDistance ahead) := by
  fun_induction Cursor.resumeDistance ahead with
  | case1 => exact absurd rfl hne
  | case2 t => exact ⟨⟨Nat.one_pos, isSafePoint_one.mpr (.inr (.inr hfinish))⟩, fun n hn => hn.1⟩
  | case3 t u rest hstop =>
    refine ⟨⟨Nat.one_pos, isSafePoint_one.mpr ?_⟩, fun n hn => hn.1⟩
    rw [← or_assoc]
    exact .inl (by simpa using hstop)
  | case4 t u rest hgo ih =>
    rcases List.forall_mem_cons.mp hahead with ⟨-, hrest⟩
    rcases ih (by simp) hrest with ⟨⟨hpos, hsafe⟩, hleast⟩
    refine ⟨⟨Nat.succ_pos _, (isSafePoint_cons hpos).mpr hsafe⟩, ?_⟩
    rintro n ⟨hn, hsafe⟩
    obtain ⟨m, rfl⟩ := Nat.exists_eq_add_one_of_ne_zero (Nat.ne_of_gt hn)
    rcases Nat.eq_zero_or_pos m with rfl | hm
    · -- The next token neither ends the input nor starts a statement, and this one ends no line.
      rw [List.cons_append, List.cons_append, isSafePoint_one, ← or_assoc] at hsafe
      rcases hsafe with hstop | hend
      · exact absurd (by simpa using hstop) hgo
      · exact absurd hend (hrest u (.head _))
    · exact Nat.succ_le_succ (hleast ⟨hm, (isSafePoint_cons hm).mp hsafe⟩)

namespace Cursor

variable {c : Cursor}

/-! ## Places -/

/-- Whether a cursor is at a position in a sequence of tokens, which an end of the input closes. -/
def IsAt (tokens : List Token) (p : Nat) (c : Cursor) : Prop :=
  c.tokens = tokens ++ closing tokens ∧ c.position = p

/-- Every position of a sequence of tokens is the place of a cursor, also behind an end of the
input that is not the last. -/
theorem exists_isAt {tokens : List Token} {p : Nat} (hp : p < (tokens ++ closing tokens).length) :
    ∃ c, IsAt tokens p c := by
  generalize htokens : tokens ++ closing tokens = all at hp
  rcases exists_getLast?_closed tokens with ⟨last, hlast, hkind⟩
  rw [htokens] at hlast
  have hmem : last ∈ all.drop p := by
    have hdrop := List.getLast?_drop (l := all) (i := p)
    rw [if_neg (Nat.not_le.mpr hp), hlast] at hdrop
    exact List.mem_of_getLast? hdrop
  have hsplit := List.takeWhile_append_dropWhile (p := isBeforeEnd) (l := all.drop p)
  have hend := List.head?_dropWhile_not isBeforeEnd (all.drop p)
  cases hrest : (all.drop p).dropWhile isBeforeEnd with
  | nil =>
    rw [hrest, List.append_nil] at hsplit
    rw [← hsplit] at hmem
    exact absurd hkind (ne_eof_of_mem_takeWhile hmem)
  | cons t beyond =>
    rw [hrest] at hsplit hend
    refine ⟨{ behind := (all.take p).reverse, ahead := (all.drop p).takeWhile isBeforeEnd,
              finish := t, beyond, position := p, position_eq_length := ?_,
              ahead_ne_eof := fun _ => ne_eof_of_mem_takeWhile,
              finish_eq_eof := by simpa [isBeforeEnd] using hend }, ?_, rfl⟩
    · rw [List.length_reverse, List.length_take_of_le (Nat.le_of_lt hp)]
    · rw [htokens, Cursor.tokens, List.reverse_reverse, List.append_assoc, hsplit,
        List.take_append_drop]

/-! ## Resuming -/

/-- Points behind a place are as safe as they are among the tokens from the place on. -/
theorem isSafePoint_position_add {n : Nat} (hn : 0 < n) :
    IsSafePoint c.tokens (c.position + n) ↔ IsSafePoint (c.ahead ++ c.finish :: c.beyond) n := by
  have hlength : c.position = c.behind.reverse.length := by
    rw [c.position_eq_length, List.length_reverse]
  rw [tokens, List.append_assoc, hlength, IsSafePoint, Nat.add_sub_assoc hn, hasKindAt_append,
    hasKindAt_append, hasKindAt_append, IsSafePoint]

theorem position_synchronize (c : Cursor) :
    c.synchronize.position = c.position + resumeDistance c.ahead := by
  change c.position + (c.ahead.take (resumeDistance c.ahead)).length = _
  rw [List.length_take_of_le (resumeDistance_le c.ahead)]

/-- Away from the end of the input, reading resumes at the first safe point behind the place. -/
theorem synchronize_isLeast (h : c.atEnd = false) :
    IsLeast {q | c.position < q ∧ IsSafePoint c.tokens q} c.synchronize.position := by
  have hne : c.ahead ≠ [] := by
    simpa [atEnd] using h
  have hdistance : IsLeast {n | 0 < n ∧ IsSafePoint (c.ahead ++ c.finish :: c.beyond) n}
      (resumeDistance c.ahead) := resumeDistance_isLeast hne c.ahead_ne_eof c.finish_eq_eof
  rcases hdistance with ⟨⟨hpos, hsafe⟩, hleast⟩
  rw [position_synchronize]
  refine ⟨⟨Nat.lt_add_of_pos_right hpos, (isSafePoint_position_add hpos).mpr hsafe⟩, ?_⟩
  rintro q ⟨hq, hsafe⟩
  obtain ⟨n, rfl⟩ := Nat.exists_eq_add_of_lt hq
  rw [Nat.add_assoc] at hsafe ⊢
  exact Nat.add_le_add_left
    (hleast ⟨Nat.succ_pos n, (isSafePoint_position_add (Nat.succ_pos n)).mp hsafe⟩) _

/-- Where no token is left, no token is passed over. -/
theorem synchronize_of_atEnd (h : c.atEnd = true) : c.synchronize = c := by
  have hnil : c.ahead = [] := by
    simpa [atEnd] using h
  rw [synchronize, hnil]
  exact skip_zero c

/-- After an error, reading resumes at the first safe point behind the place, and nowhere else if
the place is the end of the input. So at least one token is passed over, and of those that are, none
but the first opens a block and none but the last is an end of line. -/
theorem synchronize_position (tokens : List Token) {p : Nat}
    (hp : p < (tokens ++ closing tokens).length) :
    (∃ c, IsAt tokens p c) ∧
    ∀ c, IsAt tokens p c →
      c.synchronize.tokens = c.tokens ∧
      (HasKindAt c.tokens p (· = .eof) → c.synchronize.position = p) ∧
      (¬ HasKindAt c.tokens p (· = .eof) →
        IsLeast {q | p < q ∧ IsSafePoint c.tokens q} c.synchronize.position ∧
        (∀ r, p ≤ r → r < c.synchronize.position → HasKindAt c.tokens r (· = .keyword .do_) →
          r = p) ∧
        ∀ r, p ≤ r → r < c.synchronize.position → HasKindAt c.tokens r (· = .eol) →
          r + 1 = c.synchronize.position) := by
  refine ⟨exists_isAt hp, ?_⟩
  rintro c ⟨-, rfl⟩
  have hend : HasKindAt c.tokens c.position (· = .eof) ↔ c.atEnd = true := by
    rw [← kind_peek_eq_eof_iff, HasKindAt, getElem?_position]
    simp
  rw [hend]
  refine ⟨tokens_skip _ c, fun h => by rw [synchronize_of_atEnd h], fun h => ?_⟩
  have hleast := synchronize_isLeast (by simpa using h)
  refine ⟨hleast, fun r hle hlt hdo => ?_, fun r hle hlt heol => ?_⟩
  · -- A block that is opened further on would be a safe point in front of the first.
    rcases Nat.eq_or_lt_of_le hle with heq | hbehind
    · exact heq.symm
    · have hstarts : HasKindAt c.tokens r (fun k => k.startsStatement = true) := by
        rcases hdo with ⟨t, ht, hkind⟩
        exact ⟨t, ht, by rw [hkind]; rfl⟩
      exact absurd (hleast.2 ⟨hbehind, .inr (.inl hstarts)⟩) (Nat.not_le.mpr hlt)
  · have hsafe : IsSafePoint c.tokens (r + 1) := .inl heol
    exact Nat.le_antisymm hlt (hleast.2 ⟨Nat.lt_succ_of_le hle, hsafe⟩)

/-- A malformed line behind an end of the input that is not the last: `do )` and then `print`. -/
def lineBehindEnd : List Token :=
  [⟨.eof, "", 1, 1, none⟩, ⟨.keyword .do_, "do", 2, 1, none⟩, ⟨.operator .rparen, ")", 2, 4, none⟩,
    ⟨.eol, "", 2, 5, none⟩, ⟨.keyword .print, "print", 3, 1, none⟩]

/-- From the `do`, reading resumes on the next line. -/
theorem synchronize_position_lineBehindEnd :
    1 < (lineBehindEnd ++ closing lineBehindEnd).length ∧
      ∃ c, IsAt lineBehindEnd 1 c ∧ c.synchronize.position = 4 := by
  have hp : 1 < (lineBehindEnd ++ closing lineBehindEnd).length := by decide
  rcases synchronize_position lineBehindEnd hp with ⟨⟨c, hc⟩, hall⟩
  rcases hall c hc with ⟨-, -, hgo⟩
  rw [hc.1] at hgo
  rcases hgo (by simp [HasKindAt, lineBehindEnd]) with ⟨⟨⟨hlt, hsafe⟩, hleast⟩, -⟩
  have hle : c.synchronize.position ≤ 4 :=
    hleast ⟨by decide, by simp [IsSafePoint, HasKindAt, lineBehindEnd]⟩
  refine ⟨hp, c, hc, ?_⟩
  generalize c.synchronize.position = q at hlt hsafe hle
  interval_cases q
  · simp [IsSafePoint, HasKindAt, lineBehindEnd, Kind.startsStatement] at hsafe
  · simp [IsSafePoint, HasKindAt, lineBehindEnd, Kind.startsStatement] at hsafe
  · rfl

end Cursor

end ScriptCheck
