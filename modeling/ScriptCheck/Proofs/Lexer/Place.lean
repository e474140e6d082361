import ScriptCheck.Lexer.Stream

/-!
# Where a stream stands

A stream counts lines and columns as it goes. `Stream.Behind before s` says that it has counted
right: `s` is a place in its text, the characters `before` are in front of it, and the line and the
column are those that `before` leads to. Every movement of a stream keeps that.
-/

namespace ScriptCheck

/-! ## Lines and columns -/

/-- The line of what comes behind `before`: there is one more for each end of line. -/
def lineAfter (before : List Char) : Int :=
  1 + (before.count '\n' : Nat)

/-- The column of what comes behind `before`: the characters since the last end of line, and one. -/
def columnAfter (before : List Char) : Int :=
  1 + (before.reverse.takeWhile (· != '\n')).length

theorem lineAfter_append_singleton (before : List Char) (c : Char) :
    lineAfter (before ++ [c]) = if c = '\n' then lineAfter before + 1 else lineAfter before := by
  unfold lineAfter
  split
  · next h => simp [h, Int.add_assoc]
  · next h => simp [h]

theorem columnAfter_append_singleton (before : List Char) (c : Char) :
    columnAfter (before ++ [c]) = if c = '\n' then 1 else columnAfter before + 1 := by
  unfold columnAfter
  split
  · next h => simp [h]
  · next h => simp [h, Int.add_assoc]

/-- Lines only go up. -/
theorem lineAfter_le_append (before w : List Char) :
    lineAfter before ≤ lineAfter (before ++ w) := by
  simp only [lineAfter, List.count_append]
  omega

namespace Stream

/-! ## Steps -/

theorem skip_of_ahead_nil {s : Stream} (h : s.ahead = []) (n : Nat) : s.skip n = s := by
  cases n with
  | zero => rfl
  | succ n => rw [skip, h]

theorem skip_succ_of_ahead {s : Stream} {c : Char} {r : List Char} (h : s.ahead = c :: r)
    (n : Nat) : s.skip (n + 1) = (s.after c r).skip n := by
  rw [skip, h]

theorem skip_add (m n : Nat) (s : Stream) : s.skip (m + n) = (s.skip m).skip n := by
  induction m generalizing s with
  | zero =>
    rw [Nat.zero_add]
    rfl
  | succ m ih =>
    rw [Nat.succ_add]
    cases h : s.ahead with
    | nil => rw [skip_of_ahead_nil h, skip_of_ahead_nil h, skip_of_ahead_nil h]
    | cons c r => rw [skip_succ_of_ahead h, skip_succ_of_ahead h, ih]

theorem ahead_skip_of_append {s : Stream} {w r : List Char} (h : s.ahead = w ++ r) :
    (s.skip w.length).ahead = r := by
  rw [ahead_skip, h, List.drop_left]

theorem next?_of_ahead {s : Stream} {c : Char} {r : List Char} (h : s.ahead = c :: r) :
    s.next? = some (c, s.skip 1) := by
  simp [next?, skip, h]

theorem next?_of_ahead_nil {s : Stream} (h : s.ahead = []) : s.next? = none := by
  simp [next?, h]

/-- A stream that has `before` in front of it and has counted its lines and columns right. -/
structure Behind (before : List Char) (s : Stream) : Prop where
  text_eq : s.text = before ++ s.ahead
  position_eq : s.position = before.length
  line_eq : s.line = lineAfter before
  column_eq : s.column = columnAfter before

theorem behind_ofText (source : String) : (ofText source).Behind [] where
  text_eq := rfl
  position_eq := rfl
  line_eq := rfl
  column_eq := rfl

variable {before w r : List Char} {s : Stream}

/-- A step keeps the count. -/
theorem Behind.after {c : Char} (hs : s.Behind before) (h : s.ahead = c :: r) :
    (s.after c r).Behind (before ++ [c]) where
  text_eq := by
    rw [Stream.after, hs.text_eq, h, List.append_assoc]
    rfl
  position_eq := by
    simp [Stream.after, hs.position_eq]
  line_eq := by
    rw [lineAfter_append_singleton, ← hs.line_eq]
    rfl
  column_eq := by
    rw [columnAfter_append_singleton, ← hs.column_eq]
    rfl

/-- So does a movement over some characters. -/
theorem Behind.skip (hs : s.Behind before) (h : s.ahead = w ++ r) :
    (s.skip w.length).Behind (before ++ w) := by
  induction w generalizing before s with
  | nil => simpa [Stream.skip] using hs
  | cons c w ih =>
    rw [List.length_cons, skip_succ_of_ahead h, List.append_cons]
    exact ih (hs.after h) rfl

end Stream

end ScriptCheck
