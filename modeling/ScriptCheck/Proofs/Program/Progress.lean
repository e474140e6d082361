import ScriptCheck.Proofs.Program.Raising
import ScriptCheck.Syntax.Walk

/-!
# What a turn costs

A declaration, a statement or an expression that is read takes a token, and so does each turn of a
parse, whatever comes of it: the one that the turn starts at, which is no end of line. So a parse
ends, and it ends at the end of the input. What a turn comes to is one statement, one error or one
`end` that was owed, so there are no more of these in all than there are tokens to pay for them
(`Session.parse_progress`).
-/

namespace ScriptCheck

/-- The number of tokens that are no ends of line. -/
def countWritten (tokens : List Token) : Nat :=
  tokens.countP fun t => t.kind != .eol

theorem countWritten_cons {t : Token} (h : t.kind ≠ .eol) (r : List Token) :
    countWritten (t :: r) = countWritten r + 1 :=
  List.countP_cons_of_pos (by simpa using h)

theorem countWritten_le_of_suffix {r r' : List Token} (h : r' <:+ r) :
    countWritten r' ≤ countWritten r :=
  h.sublist.countP_le

/-- Tokens of which the first is no end of line cost it, as soon as any of them are passed. -/
theorem countWritten_lt_of_suffix {r r' : List Token} (h : r' <:+ r)
    (hlength : r'.length < r.length) (hnext : nextKind r ≠ .eol) :
    countWritten r' < countWritten r := by
  cases r with
  | nil => simp at hlength
  | cons t r =>
    -- The suffix is shorter, so the first token is not in it.
    have hinside : r' <:+ r := by
      rcases List.suffix_cons_iff.mp h with rfl | hinside
      · omega
      · exact hinside
    have hle := countWritten_le_of_suffix hinside
    rw [countWritten_cons (by simpa using hnext)]
    omega

namespace Rule

variable {α : Type}

/-- Where less remains, the position is greater. -/
theorem Takes.position_lt {r : Rule α} (hr : r.Takes) {c d : Cursor} {a : α}
    (h : r.run c = .done a d) : c.position < d.position := by
  have hless := hr c a d h
  have hsum := (r.forward c).position_add_remaining
  rw [h] at hsum
  change d.position + d.remaining = c.position + c.remaining at hsum
  omega

end Rule

namespace Session

variable {s₀ s s' : Session} {read : Array Node} {turn : Turn} {turns : List Turn}
  {tokens : List Token}

/-- A rule that takes a token moves the session that it is run in. -/
theorem position_lt_of_run {α : Type} {r : Rule α} (hr : r.Takes) {a : α}
    (h : s.run r = (.ok a, s')) : s.cursor.position < s'.cursor.position := by
  unfold run at h
  cases hrun : r.run s.cursor with
  | done b d =>
    rw [hrun] at h
    cases h
    exact hr.position_lt hrun
  | failed failure d =>
    rw [hrun] at h
    cases h

/-! ## What comes of a turn -/

/-- The statement that a turn has read, if it has. -/
def Turn.statement? : Turn → Option Node
  | accepted n => some n
  | settled | recovered | stopped _ => none

/-- Whether a turn has passed over an `end` that was owed. -/
def Turn.isSettled : Turn → Bool
  | settled => true
  | accepted _ | recovered | stopped _ => false

/-- Whether a turn has reported an error and gone on. -/
def Turn.isRecovered : Turn → Bool
  | recovered => true
  | accepted _ | settled | stopped _ => false

theorem Turn.toList_gather (h : read.toList = turns.filterMap statement?) (turn : Turn) :
    (turn.gather read).toList = (turns ++ [turn]).filterMap statement? := by
  rw [List.filterMap_append, ← h]
  cases turn <;> simp [gather, statement?]

section

variable [Stack]

/-- The turns that a parse from `s₀` has taken when it comes to a session. It looks whether the
input ends before each of them. -/
inductive TakesTurns (s₀ : Session) : List Turn → Session → Prop where
  | start : s₀.TakesTurns [] s₀.skipNewlines
  | turn {turns : List Turn} {s s' : Session} {turn : Turn} : s₀.TakesTurns turns s →
      s.cursor.atEnd = false → s.step = (turn, s') → (∀ cause, turn ≠ .stopped cause) →
      s₀.TakesTurns (turns ++ [turn]) s'

/-- Taking turns is what leads to the sessions that a parse comes to. -/
theorem TakesTurns.visits (h : s₀.TakesTurns turns s) :
    ∃ read, s₀.Visits read s ∧ read.toList = turns.filterMap Turn.statement? := by
  induction h with
  | start => exact ⟨#[], .start, rfl⟩
  | @turn turns s s' turn _ hend hstep hgo ih =>
    rcases ih with ⟨read, hvisits, hread⟩
    exact ⟨turn.gather read, .turn hvisits hend hstep hgo, Turn.toList_gather hread turn⟩

theorem Visits.exists_turns (h : s₀.Visits read s) :
    ∃ turns, s₀.TakesTurns turns s ∧ read.toList = turns.filterMap Turn.statement? := by
  induction h with
  | start => exact ⟨[], .start, rfl⟩
  | @turn read s s' turn _ hend hstep hgo ih =>
    rcases ih with ⟨turns, hturns, hread⟩
    exact ⟨turns ++ [turn], .turn hturns hend hstep hgo, Turn.toList_gather hread turn⟩

end

/-- A turn that goes on comes to one of three things. -/
theorem Turn.one_eq (hgo : ∀ cause, turn ≠ .stopped cause) :
    1 = ([turn].filterMap statement?).length + [turn].countP isRecovered +
      [turn].countP isSettled := by
  cases turn with
  | stopped cause => exact absurd rfl (hgo cause)
  | _ => rfl

section

variable [Stack]

theorem TakesTurns.length_eq (h : s₀.TakesTurns turns s) :
    turns.length = (turns.filterMap Turn.statement?).length + turns.countP Turn.isRecovered +
      turns.countP Turn.isSettled := by
  induction h with
  | start => rfl
  | @turn turns s s' turn _ _ _ hgo ih =>
    have hone := Turn.one_eq hgo
    rw [List.length_append, List.length_singleton, List.filterMap_append, List.length_append,
      List.countP_append, List.countP_append]
    omega

/-! ## What a turn costs -/

/-- A turn that goes on passes the ends of line behind what it has read. -/
theorem Advances.exists_dropBlank (h : s.Advances turn s') :
    ∃ r, s'.cursor.ahead = dropBlank r := by
  cases h with
  | settled _ hd _ => exact ⟨_, hd⟩
  | accepted _ _ hd _ => exact ⟨_, hd⟩
  | recovered _ _ _ _ hd _ => exact ⟨_, hd⟩

/-- A parse stands in front of no end of line when it looks whether the input ends. -/
theorem nextKind_ne_of_visits (h : (ofTokens tokens false).Visits read s) :
    nextKind s.cursor.ahead ≠ .eol := by
  have hblank : ∃ r, s.cursor.ahead = dropBlank r := by
    cases h with
    | start =>
      rcases skipNewlines_eq (ofTokens tokens false) with ⟨d, heq, hd, -⟩
      rw [heq]
      exact ⟨_, hd⟩
    | turn hvisits _ hstep hgo =>
      exact (advances_of_step hvisits.between_and_reaches.1 hstep hgo).exists_dropBlank
  rcases hblank with ⟨r, hr⟩
  rw [hr]
  exact nextKind_dropBlank_ne r

/-- A turn that goes on passes the token that it starts at. -/
theorem Advances.length_lt (h : s.Advances turn s') (hend : s.cursor.atEnd = false)
    (hstep : s.step = (turn, s')) : s'.cursor.ahead.length < s.cursor.ahead.length := by
  have hprogress := step_progress hend (by rw [hstep]; exact h.ne_stopped)
  rw [hstep] at hprogress
  exact hprogress

theorem Advances.position_lt (h : s.Advances turn s') (hend : s.cursor.atEnd = false)
    (hstep : s.step = (turn, s')) : s.cursor.position < s'.cursor.position := by
  have hless := h.length_lt hend hstep
  have hsum := h.reaches.position_add_remaining
  unfold Cursor.remaining at hsum
  omega

/-- The errors that a turn reports are one if it goes on after an error, and none otherwise. -/
theorem Advances.size_errors (h : s.Advances turn s') :
    s'.reporter.errors.size = s.reporter.errors.size + [turn].countP Turn.isRecovered := by
  cases h with
  | settled _ _ _ => rfl
  | accepted _ _ _ _ => rfl
  | @recovered failure d₀ d e log _ _ _ _ _ _ =>
    have hreported := congrArg List.length (Reporter.errors_report s.reporter e)
    rw [List.length_append, Array.length_toList, Array.length_toList] at hreported
    exact hreported

/-- What the turns of a parse have come to and what they have cost: an error for each turn that went
on after one, and at least one token that is no end of line for every turn. -/
structure Paid (tokens : List Token) (turns : List Turn) (s : Session) : Prop where
  size_errors : s.reporter.errors.size = turns.countP Turn.isRecovered
  length_le : turns.length + countWritten s.cursor.ahead ≤
    countWritten (tokens.takeWhile Cursor.isBeforeEnd)

theorem TakesTurns.paid (h : (ofTokens tokens false).TakesTurns turns s) :
    Paid tokens turns s := by
  induction h with
  | start =>
    rcases skipNewlines_eq (ofTokens tokens false) with ⟨d, heq, hd, -⟩
    rw [heq]
    constructor
    · rfl
    · change 0 + countWritten d.ahead ≤ _
      rw [Nat.zero_add, hd, ← Cursor.ahead_ofTokens]
      exact countWritten_le_of_suffix (dropBlank_suffix _)
  | @turn turns s s' turn hturns hend hstep hgo ih =>
    rcases hturns.visits with ⟨read, hvisits, -⟩
    have hturn := advances_of_step hvisits.between_and_reaches.1 hstep hgo
    have hcost := countWritten_lt_of_suffix hturn.reaches.suffix (hturn.length_lt hend hstep)
      (nextKind_ne_of_visits hvisits)
    have hlength := ih.length_le
    constructor
    · rw [hturn.size_errors, ih.size_errors, List.countP_append]
    · rw [List.length_append, List.length_singleton]
      omega

/-! ## Whole parses -/

/-- At the end of the input, all tokens in front of it have been passed. -/
theorem Visits.position_eq (h : (ofTokens tokens false).Visits read s)
    (hend : s.cursor.atEnd = true) :
    s.cursor.position = (tokens.takeWhile Cursor.isBeforeEnd).length := by
  have hnil : s.cursor.ahead = [] := by simpa [Cursor.atEnd] using hend
  have hall := h.between_and_reaches.2.takeWhile_eq
  rw [hnil, List.append_nil] at hall
  rw [hall, List.length_reverse, s.cursor.position_eq_length]

/-- Reading goes on, and a parse ends. Whatever is read as a declaration, a statement or an
expression has taken a token, wherever that is. Each turn of a parse takes the token that it starts
at, which is no end of line. The parse comes to a program, with the first end of the input next, and
the statements of the program, the errors reported and the `end`s passed over because they were owed
are, in all, no more than the tokens in front of that end which are no ends of line. -/
theorem parse_progress (hnumbers : NumbersCarryValues (tokens.takeWhile Cursor.isBeforeEnd)) :
    (∀ construct ∈ [Grammar.declaration, Grammar.statement, Grammar.expression],
      ∀ (budget : Nat) (s s' : Session) n, s.run (construct s.andSeparates budget) = (.ok n, s') →
        s.cursor.position < s'.cursor.position) ∧
    (∀ turns s, (ofTokens tokens false).TakesTurns turns s → s.cursor.atEnd = false →
      ∃ turn s', s.step = (turn, s') ∧ (∀ cause, turn ≠ .stopped cause) ∧
        s.cursor.peek.kind ≠ .eol ∧ s.cursor.position < s'.cursor.position) ∧
    ∃ turns s log, (ofTokens tokens false).TakesTurns turns s ∧
      (ofTokens tokens false).parse =
        (.ok (.program 1 (turns.filterMap Turn.statement?)), { s with log := log }) ∧
      s.cursor.position = (tokens.takeWhile Cursor.isBeforeEnd).length ∧
      s.cursor.peek.kind = .eof ∧
      (turns.filterMap Turn.statement?).length + s.reporter.errors.size +
        turns.countP Turn.isSettled ≤ countWritten (tokens.takeWhile Cursor.isBeforeEnd) := by
  refine ⟨?_, ?_, ?_⟩
  · intro construct hconstruct budget s s' n hrun
    have htakes : (construct s.andSeparates budget).Takes := by
      simp only [List.mem_cons, List.not_mem_nil, or_false] at hconstruct
      rcases hconstruct with rfl | rfl | rfl
      · exact Grammar.declaration_takes s.andSeparates budget
      · exact Grammar.statement_takes s.andSeparates budget
      · exact Grammar.expression_takes s.andSeparates budget
    exact position_lt_of_run htakes hrun
  · intro turns s hturns hend
    rcases hturns.visits with ⟨read, hvisits, -⟩
    rcases (hvisits.keeps hnumbers).exists_advances hnumbers with ⟨turn, s', hstep, hturn⟩
    refine ⟨turn, s', hstep, hturn.ne_stopped, ?_, hturn.position_lt hend hstep⟩
    rw [Cursor.kind_peek]
    exact nextKind_ne_of_visits hvisits
  · rcases Visits.exists_end hnumbers .start with ⟨read, s, hvisits, hend⟩
    rcases hvisits.exists_turns with ⟨turns, hturns, hread⟩
    have hnil : s.cursor.ahead = [] := by simpa [Cursor.atEnd] using hend
    have hresult := hvisits.parse_eq
    rw [parseAfter_of_end hnil, hread] at hresult
    refine ⟨turns, s, _, hturns, hresult, hvisits.position_eq hend,
      (Cursor.kind_peek_eq_eof_iff _).mpr hend, ?_⟩
    -- Every turn is paid for, and each has come to one of the three things that are counted.
    have hpaid := hturns.paid
    calc (turns.filterMap Turn.statement?).length + s.reporter.errors.size +
          turns.countP Turn.isSettled
        = turns.length := by rw [hpaid.size_errors, hturns.length_eq]
      _ ≤ turns.length + countWritten s.cursor.ahead := Nat.le_add_right _ _
      _ ≤ countWritten (tokens.takeWhile Cursor.isBeforeEnd) := hpaid.length_le

end

/-- The tokens of a block that an error abandons at its first line, with its `end` on the next, a
name, and a line that is no statement: `do )`, `end`, `x` and `)`. -/
def strandedBlock : List Token :=
  [⟨.keyword .do_, "do", 1, 1, none⟩, ⟨.operator .rparen, ")", 1, 4, none⟩,
    ⟨.eol, "", 1, 5, none⟩, ⟨.keyword .end_, "end", 2, 1, none⟩, ⟨.eol, "", 2, 4, none⟩,
    ⟨.ident, "x", 3, 1, none⟩, ⟨.eol, "", 3, 2, none⟩, ⟨.operator .rparen, ")", 4, 1, none⟩]

/-- One statement, two errors and one `end` that was owed are paid for by five tokens. -/
theorem parse_progress_strandedBlock :
    NumbersCarryValues (strandedBlock.takeWhile Cursor.isBeforeEnd) ∧
      ∃ turns s, (ofTokens strandedBlock false).TakesTurns turns s ∧ s.cursor.position = 8 ∧
        (turns.filterMap Turn.statement?).length = 1 ∧ s.reporter.errors.size = 2 ∧
        1 + 2 + turns.countP Turn.isSettled ≤ 5 := by
  have hnumbers : NumbersCarryValues (strandedBlock.takeWhile Cursor.isBeforeEnd) := by
    unfold NumbersCarryValues
    decide
  rcases (parse_progress hnumbers).2.2
    with ⟨turns, s, log, hturns, hresult, hposition, -, hcount⟩
  have hcounts : (ofTokens strandedBlock false).parse.2.reporter.errors.size = 2 ∧
      (ofTokens strandedBlock false).parse.1.toOption.map (·.children.length) = some 1 := by
    decide +kernel
  rw [hresult] at hcounts
  have hstatements : (turns.filterMap Turn.statement?).length = 1 := Option.some.inj hcounts.2
  have herrors : s.reporter.errors.size = 2 := hcounts.1
  have hwritten : countWritten (strandedBlock.takeWhile Cursor.isBeforeEnd) = 5 := by decide
  rw [hstatements, herrors, hwritten] at hcount
  exact ⟨hnumbers, turns, s, hturns, hposition, hstatements, herrors, hcount⟩

end Session

end ScriptCheck
