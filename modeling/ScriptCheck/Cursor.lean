import ScriptCheck.Token

/-!
# Cursors

A cursor is a place in a sequence of tokens that ends with the end of the input. It only moves
forward and comes to rest at the first token of that kind, so the tokens are kept in four parts:
those behind the place, those ahead of it, the end, and those beyond the end, which nothing ever
reaches. That no token ahead is an end is part of the type.

`Cursor.skip` is the only movement. `Cursor.Reaches` relates a cursor to the places that movements
lead to.
-/

namespace ScriptCheck

/-- A place in a sequence of tokens. -/
structure Cursor where
  /-- The tokens in front of the place, the latest first. -/
  behind : List Token
  /-- The tokens from the place up to the end of the input. -/
  ahead : List Token
  /-- The end of the input. -/
  finish : Token
  /-- The tokens after the end of the input. -/
  beyond : List Token
  /-- The number of tokens in front of the place. -/
  position : Nat
  position_eq_length : position = behind.length
  ahead_ne_eof : ∀ t ∈ ahead, t.kind ≠ .eof
  finish_eq_eof : finish.kind = .eof

namespace Cursor

/-! ## The tokens of a cursor -/

/-- The end of the input on the given line. -/
def endMarker (line : Int) : Token where
  kind := .eof
  text := ""
  line := line

/-- Whether `t` is not the end of the input. -/
def isBeforeEnd (t : Token) : Bool :=
  t.kind != .eof

/-- A run of tokens in front of an end holds no end. -/
theorem ne_eof_of_mem_takeWhile {tokens : List Token} {t : Token}
    (h : t ∈ tokens.takeWhile isBeforeEnd) : t.kind ≠ .eof := by
  have hall := List.all_eq_true.mp (List.all_takeWhile (p := isBeforeEnd) (l := tokens)) t h
  simpa [isBeforeEnd] using hall

/-- What has to follow `tokens` for their last to be an end of the input: nothing, or an end on the
line of the last token. -/
def closing (tokens : List Token) : List Token :=
  match tokens.getLast? with
  | none => [endMarker 1]
  | some t => if t.kind = .eof then [] else [endMarker t.line]

/-- The cursor at the start of a sequence of tokens. The closing token is an end of the input, so
the first of the two cases does not arise. -/
def ofTokens (tokens : List Token) : Cursor :=
  match h : (tokens ++ closing tokens).dropWhile isBeforeEnd with
  | [] =>
    { behind := [], ahead := (tokens ++ closing tokens).takeWhile isBeforeEnd,
      finish := endMarker 1, beyond := [], position := 0, position_eq_length := rfl,
      ahead_ne_eof := fun _ ht => ne_eof_of_mem_takeWhile ht,
      finish_eq_eof := rfl }
  | t :: rest =>
    { behind := [], ahead := (tokens ++ closing tokens).takeWhile isBeforeEnd,
      finish := t, beyond := rest, position := 0, position_eq_length := rfl,
      ahead_ne_eof := fun _ ht => ne_eof_of_mem_takeWhile ht,
      finish_eq_eof := by
        have hhead := List.head?_dropWhile_not isBeforeEnd (tokens ++ closing tokens)
        rw [h] at hhead
        simpa [isBeforeEnd] using hhead }

/-- All tokens of a cursor, wherever its place is. -/
def tokens (c : Cursor) : List Token :=
  c.behind.reverse ++ c.ahead ++ c.finish :: c.beyond

/-- The number of tokens from the place up to the end of the input. -/
def remaining (c : Cursor) : Nat :=
  c.ahead.length

/-- The token at the place. -/
def peek (c : Cursor) : Token :=
  c.ahead.headD c.finish

/-- Whether the place is the end of the input. -/
def atEnd (c : Cursor) : Bool :=
  c.ahead.isEmpty

/-- The token at the place as it is shown in messages. -/
def display (c : Cursor) : String :=
  "TokenCursor(position=" ++ toString c.position ++ ", current=" ++ c.peek.display ++ ")"

/-! ## Movement -/

/-- The place `n` tokens on, or the end of the input if it is nearer. -/
def skip (n : Nat) (c : Cursor) : Cursor where
  behind := (c.ahead.take n).reverse ++ c.behind
  ahead := c.ahead.drop n
  finish := c.finish
  beyond := c.beyond
  position := c.position + (c.ahead.take n).length
  position_eq_length := by simp [c.position_eq_length, Nat.add_comm]
  ahead_ne_eof := fun t ht => c.ahead_ne_eof t (List.mem_of_mem_drop ht)
  finish_eq_eof := c.finish_eq_eof

/-- The place after the token at this one. -/
def advance (c : Cursor) : Cursor :=
  c.skip 1

/-- Whether the token at the place is of one of the given kinds. -/
def check (c : Cursor) (kinds : List Kind) : Bool :=
  kinds.contains c.peek.kind

@[simp] theorem skip_zero (c : Cursor) : c.skip 0 = c := by
  simp [skip]

@[simp] theorem skip_skip (m n : Nat) (c : Cursor) : (c.skip m).skip n = c.skip (m + n) := by
  simp only [skip, List.drop_drop, mk.injEq, true_and]
  rw [List.take_add, List.reverse_append, List.append_assoc, List.length_append, Nat.add_assoc]
  exact ⟨rfl, rfl⟩

@[simp] theorem remaining_skip (n : Nat) (c : Cursor) :
    (c.skip n).remaining = c.remaining - n := by
  simp [remaining, skip]

/-- No movement adds, drops or changes a token. -/
@[simp] theorem tokens_skip (n : Nat) (c : Cursor) : (c.skip n).tokens = c.tokens := by
  simp only [tokens, skip, List.reverse_append, List.reverse_reverse]
  rw [List.append_assoc c.behind.reverse, List.take_append_drop]

/-- A place is the end of the input exactly when no token is ahead. -/
theorem atEnd_iff (c : Cursor) : c.atEnd = true ↔ c.remaining = 0 := by
  simp [atEnd, remaining]

theorem atEnd_eq_false_iff (c : Cursor) : c.atEnd = false ↔ c.remaining ≠ 0 := by
  simp [atEnd, remaining]

/-- The token at a place is the end of the input exactly when no token is ahead. -/
theorem kind_peek_eq_eof_iff (c : Cursor) : c.peek.kind = .eof ↔ c.atEnd = true := by
  unfold atEnd peek
  cases h : c.ahead with
  | nil => simp [c.finish_eq_eof]
  | cons t rest =>
    have ht := c.ahead_ne_eof t (by simp [h])
    simp [ht]

/-- Movements keep the sum of what lies in front of the place and what remains. -/
theorem position_add_remaining_skip (n : Nat) (c : Cursor) :
    (c.skip n).position + (c.skip n).remaining = c.position + c.remaining := by
  simp only [skip, remaining, List.length_take, List.length_drop]
  omega

/-! ## Reachable places -/

/-- Whether movements lead from `c` to `d`. -/
def Reaches (c d : Cursor) : Prop :=
  ∃ n, d = c.skip n

theorem Reaches.refl (c : Cursor) : c.Reaches c :=
  ⟨0, by simp⟩

theorem Reaches.trans {c d e : Cursor} : c.Reaches d → d.Reaches e → c.Reaches e := by
  rintro ⟨m, rfl⟩ ⟨n, rfl⟩
  exact ⟨m + n, by simp⟩

theorem reaches_skip (n : Nat) (c : Cursor) : c.Reaches (c.skip n) :=
  ⟨n, rfl⟩

theorem Reaches.remaining_le {c d : Cursor} : c.Reaches d → d.remaining ≤ c.remaining := by
  rintro ⟨n, rfl⟩
  simp

theorem Reaches.position_add_remaining {c d : Cursor} :
    c.Reaches d → d.position + d.remaining = c.position + c.remaining := by
  rintro ⟨n, rfl⟩
  exact position_add_remaining_skip n c

/-- Past a token that is not the end of the input, less remains. -/
theorem remaining_advance_lt {c : Cursor} (h : c.atEnd = false) :
    c.advance.remaining < c.remaining := by
  rw [atEnd_eq_false_iff] at h
  simp only [advance, remaining_skip]
  omega

/-! ## Resuming after an error -/

/-- How many tokens are skipped after an error when `ahead` are left: the first of them in any case,
and all up to an end of line, which is skipped as well, or up to a token that starts a statement,
which is not. -/
def resumeDistance : List Token → Nat
  | [] => 0
  | [_] => 1
  | t :: u :: rest =>
    if t.kind = .eol || u.kind.startsStatement then 1 else resumeDistance (u :: rest) + 1

/-- The place where reading is resumed after an error. -/
def synchronize (c : Cursor) : Cursor :=
  c.skip (resumeDistance c.ahead)

theorem resumeDistance_pos {ahead : List Token} (h : ahead ≠ []) : 0 < resumeDistance ahead := by
  unfold resumeDistance
  split
  · exact absurd rfl h
  · decide
  · split <;> omega

/-- Resuming passes a token unless none is left. -/
theorem remaining_synchronize_lt {c : Cursor} (h : c.atEnd = false) :
    c.synchronize.remaining < c.remaining := by
  rw [atEnd_eq_false_iff] at h
  have hpos : 0 < resumeDistance c.ahead := resumeDistance_pos (by
    intro hnil
    simp [remaining, hnil] at h)
  simp only [synchronize, remaining_skip]
  omega

end Cursor

end ScriptCheck
