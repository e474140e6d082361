import ScriptCheck.Proofs.Program.Owed

/-!
# Where errors are raised

An error is raised at a place, which is where a declaration fails. In a parse that recovers, each
error that is reported was raised in a turn of its own (`Raised`), by the token that it blames, and
the turns after it start behind that token. So the errors are in the order of the places, and only
the last one may be at the end of the input (`Visits.inOrder`). Number tokens need not carry values
for that: one that does not ends the parse, and nothing is reported about it.
-/

namespace ScriptCheck

namespace SyntaxError

/-- Whether an error blames the token with the given index, is on its line and shows its text. -/
def BlamesToken (e : SyntaxError) (tokens : List Token) (index : Nat) : Prop :=
  ∃ t, tokens[index]? = some t ∧ e.token = some t ∧ e.line = t.line ∧ e.found = some t.text

/-- Whether an error blames the end of the input. -/
def isAtEnd (e : SyntaxError) : Bool :=
  e.token.any (·.kind == .eof)

end SyntaxError

namespace Cursor

theorem Reaches.tokens_eq {c d : Cursor} : c.Reaches d → d.tokens = c.tokens := by
  rintro ⟨n, rfl⟩
  exact tokens_skip n c

theorem Reaches.position_le {c d : Cursor} (h : c.Reaches d) : c.position ≤ d.position := by
  have hsum := h.position_add_remaining
  have hle := h.remaining_le
  omega

/-- The token at a place is the one that its position is the index of. -/
theorem getElem?_position (c : Cursor) : c.tokens[c.position]? = some c.peek := by
  have hbehind : c.behind.reverse.length = c.position := by
    rw [List.length_reverse, c.position_eq_length]
  rw [tokens, List.append_assoc, List.getElem?_append_right (Nat.le_of_eq hbehind), hbehind,
    Nat.sub_self]
  unfold peek
  cases c.ahead <;> rfl

end Cursor

namespace Session

variable {tokens : List Token} {s : Session} {read : Array Node} {d : Cursor} {e : SyntaxError}

/-! ## Raising an error -/

section

variable [Stack]

/-- Whether the next turn raises the error `e` at the place `d`: it reads a declaration, which fails
there, for a cause that amounts to the error. -/
structure Raises (s : Session) (d : Cursor) (e : SyntaxError) : Prop where
  atEnd_eq : s.cursor.atEnd = false
  not_owesNext : ¬ s.OwesNext
  exists_failure : ∃ failure,
    (Grammar.declaration s.andSeparates Nesting.limit).run s.cursor = .failed failure d ∧
      failure.cause.syntaxError? d = some e

/-- Whether a parse of `tokens` that has reported `before` raises the error `e` next, at the token
with the given index. -/
def RaisedAt (tokens : List Token) (before : List SyntaxError) (e : SyntaxError) (index : Nat) :
    Prop :=
  ∃ read s d, (ofTokens tokens false).Visits read s ∧ s.reporter.errors.toList = before ∧
    s.Raises d e ∧ d.position = index

/-- Whether a parse of `tokens` raises these errors first, each at the token with its index. -/
inductive Raised (tokens : List Token) : List SyntaxError → List Nat → Prop where
  | none : Raised tokens [] []
  | more {before : List SyntaxError} {e : SyntaxError} {indices : List Nat} {index : Nat} :
      Raised tokens before indices → RaisedAt tokens before e index →
      Raised tokens (before ++ [e]) (indices ++ [index])

theorem Raises.reaches (h : s.Raises d e) : s.cursor.Reaches d := by
  rcases h.exists_failure with ⟨failure, hrun, -⟩
  have hforward := (Grammar.declaration s.andSeparates Nesting.limit).forward s.cursor
  rw [hrun] at hforward
  exact hforward

theorem Raises.token_eq (hs : s.Between) (h : s.Raises d e) :
    e.token = some d.peek ∧ e.line = d.peek.line := by
  rcases h.exists_failure with ⟨failure, hrun, he⟩
  rw [hs.andSeparates_eq] at hrun
  exact (Grammar.declaration_hasReason hrun).token_eq he

/-- An error that is raised in front of the end of the input does not blame it. -/
theorem Raises.isAtEnd_eq_false (hs : s.Between) (h : s.Raises d e) (hend : d.atEnd = false) :
    e.isAtEnd = false := by
  have hkind : d.peek.kind ≠ .eof := by
    intro hkind
    rw [d.kind_peek_eq_eof_iff, hend] at hkind
    cases hkind
  rw [SyntaxError.isAtEnd, (h.token_eq hs).1]
  simp [hkind]

/-- The first error that is raised is raised before anything has been reported. -/
theorem Raised.first {es : List SyntaxError} {indices : List Nat}
    (h : Raised tokens (e :: es) indices) : ∃ index, RaisedAt tokens [] e index := by
  -- The errors are built from the back, and the first one is found at the bottom.
  generalize hall : e :: es = all at h
  induction h generalizing es with
  | none => cases hall
  | @more before e' indices index hbefore hraised ih =>
    cases before with
    | nil =>
      obtain rfl : e = e' := by simpa using (List.cons.inj hall).1
      exact ⟨index, hraised⟩
    | cons e₀ rest =>
      rw [List.cons_append] at hall
      obtain rfl := (List.cons.inj hall).1
      exact ih rfl

/-! ## All turns -/

/-- Whatever the tokens are, a parse that recovers stays between two declarations in each session
that it comes to, and only moves forward. -/
theorem Visits.between_and_reaches (h : (ofTokens tokens false).Visits read s) :
    s.Between ∧ (Cursor.ofTokens tokens).Reaches s.cursor := by
  induction h with
  | start =>
    have hkeeps := keeps_skipNewlines tokens
    exact ⟨hkeeps.between, hkeeps.reaches⟩
  | turn _ _ hstep hgo ih =>
    rcases ih with ⟨hs, hreaches⟩
    have hturn := advances_of_step hs hstep hgo
    exact ⟨hturn.between hs, hreaches.trans hturn.reaches⟩

/-- An error that is raised blames the token where it is. -/
theorem Raises.blamesToken (h : s.Raises d e) (hvisits : (ofTokens tokens false).Visits read s) :
    e.BlamesToken (Cursor.ofTokens tokens).tokens d.position := by
  rcases hvisits.between_and_reaches with ⟨hs, hreaches⟩
  rcases h.token_eq hs with ⟨htoken, hline⟩
  rw [← (hreaches.trans h.reaches).tokens_eq]
  refine ⟨d.peek, d.getElem?_position, htoken, hline, ?_⟩
  rw [SyntaxError.found, htoken]
  rfl

theorem RaisedAt.blamesToken {before : List SyntaxError} {index : Nat}
    (h : RaisedAt tokens before e index) : e.BlamesToken (Cursor.ofTokens tokens).tokens index := by
  rcases h with ⟨read, s, d, hvisits, -, hraises, rfl⟩
  exact hraises.blamesToken hvisits

/-- The tokens in front of a session are the first of the input. -/
theorem Visits.behind_sublist (h : (ofTokens tokens false).Visits read s) :
    s.cursor.behind.reverse.Sublist tokens := by
  rw [← h.between_and_reaches.2.take_position]
  exact List.take_sublist _ _

/-- The errors of a parse are those of the last session that it comes to. -/
theorem Visits.exists_last (h : (ofTokens tokens false).Visits read s) :
    ∃ read' s', (ofTokens tokens false).Visits read' s' ∧
      (ofTokens tokens false).parse.2.reporter = s'.reporter := by
  generalize hn : s.cursor.remaining = n
  induction n using Nat.strongRecOn generalizing read s with
  | ind n ih =>
    by_cases hend : s.cursor.ahead = []
    · refine ⟨read, s, h, ?_⟩
      rw [h.parse_eq, parseAfter_of_end hend]
    · -- A parse that is given up reports nothing in its last turn.
      have hend' : s.cursor.atEnd = false := by simp [Cursor.atEnd, hend]
      rcases step_advances_or_givenUp h.between_and_reaches.1
        with ⟨turn, s', hstep, hturn⟩ | ⟨fault, s', hstep, hsame, -⟩
      · have hprogress := step_progress hend' (by rw [hstep]; exact hturn.ne_stopped)
        rw [hstep, hn] at hprogress
        exact ih _ hprogress (.turn h hend' hstep hturn.ne_stopped) rfl
      · refine ⟨read, s, h, ?_⟩
        rw [h.parse_eq, parseAfter_of_step hend hstep]
        exact hsame

/-! ## The order of errors -/

/-- What holds of the errors that have been reported when a parse comes to a session. -/
structure InOrder (tokens : List Token) (s : Session) (indices : List Nat) : Prop where
  raised : Raised tokens s.reporter.errors.toList indices
  increasing : indices.Pairwise (· < ·)
  /-- Reading has resumed behind them, unless nothing is left. -/
  passed : s.cursor.atEnd = false → ∀ index ∈ indices, index < s.cursor.position
  /-- None of them blames the end of the input before it is reached. -/
  atEnd_eq_zero : s.cursor.atEnd = false → s.reporter.errors.toList.countP (·.isAtEnd) = 0
  atEnd_le_one : s.reporter.errors.toList.countP (·.isAtEnd) ≤ 1

end

theorem length_resumed_lt {ahead : List Token} (h : ahead ≠ []) :
    (resumed ahead).length < ahead.length := by
  have hblank := (dropBlank_suffix (ahead.drop (Cursor.resumeDistance ahead))).length_le
  have hpos := Cursor.resumeDistance_pos h
  have hlength := List.length_pos_iff.mpr h
  rw [List.length_drop] at hblank
  unfold resumed
  omega

/-- Unless nothing is left, reading resumes behind the place of the failure. -/
theorem position_lt_of_resumed {c d₀ : Cursor} (h₀ : c.Reaches d₀) (h : c.Reaches d)
    (hd : d.ahead = resumed d₀.ahead) (hend : d.atEnd = false) :
    d₀.atEnd = false ∧ d₀.position < d.position := by
  have hne : d₀.ahead ≠ [] := by
    intro hnil
    rw [hnil] at hd
    simp [Cursor.atEnd, hd, resumed] at hend
  have hlength := length_resumed_lt hne
  rw [← hd] at hlength
  have hsum₀ := h₀.position_add_remaining
  have hsum := h.position_add_remaining
  unfold Cursor.remaining at hsum₀ hsum
  constructor
  · simp [Cursor.atEnd, hne]
  · omega

section

variable {indices : List Nat} {s' : Session}

/-- A turn that reports nothing leaves the errors in order. -/
theorem InOrder.of_quiet [Stack] (h : InOrder tokens s indices) (hend : s.cursor.atEnd = false)
    (hreaches : s.cursor.Reaches s'.cursor) (hsame : s'.reporter = s.reporter) :
    InOrder tokens s' indices := by
  constructor
  · rw [hsame]
    exact h.raised
  · exact h.increasing
  · intro _ index hindex
    exact Nat.lt_of_lt_of_le (h.passed hend index hindex) hreaches.position_le
  · rw [hsame]
    exact fun _ => h.atEnd_eq_zero hend
  · rw [hsame]
    exact h.atEnd_le_one

/-- So does one that raises an error. -/
theorem InOrder.of_raises [Stack] (h : InOrder tokens s indices)
    (hvisits : (ofTokens tokens false).Visits read s) (hraises : s.Raises d e)
    (hreaches : s.cursor.Reaches s'.cursor) (hresumed : s'.cursor.ahead = resumed d.ahead)
    (hreporter : s'.reporter = s.reporter.report e) :
    InOrder tokens s' (indices ++ [d.position]) := by
  -- The turn starts behind the errors so far, and the declaration is not taken back.
  have hbefore : ∀ index ∈ indices, index < d.position := by
    intro index hindex
    exact Nat.lt_of_lt_of_le (h.passed hraises.atEnd_eq index hindex) hraises.reaches.position_le
  -- The error is the only one that may blame the end of the input.
  have hcount : s'.reporter.errors.toList.countP (·.isAtEnd) = if e.isAtEnd then 1 else 0 := by
    rw [hreporter, Reporter.errors_report, List.countP_append, h.atEnd_eq_zero hraises.atEnd_eq,
      List.countP_singleton, Nat.zero_add]
  constructor
  · rw [hreporter, Reporter.errors_report]
    exact .more h.raised ⟨read, s, d, hvisits, rfl, hraises, rfl⟩
  · rw [List.pairwise_append]
    refine ⟨h.increasing, List.pairwise_singleton _ _, ?_⟩
    intro index hindex index' hindex'
    rw [List.mem_singleton] at hindex'
    rw [hindex']
    exact hbefore index hindex
  · intro hend index hindex
    rcases position_lt_of_resumed hraises.reaches hreaches hresumed hend with ⟨-, hlt⟩
    rcases List.mem_append.mp hindex with hindex | hindex
    · exact Nat.lt_trans (hbefore index hindex) hlt
    · rw [List.mem_singleton.mp hindex]
      exact hlt
  · intro hend
    rcases position_lt_of_resumed hraises.reaches hreaches hresumed hend with ⟨hplace, -⟩
    rw [hcount, hraises.isAtEnd_eq_false hvisits.between_and_reaches.1 hplace]
    rfl
  · rw [hcount]
    split <;> decide

end

/-- The errors that a parse has reported are in order in each session that it comes to. -/
theorem Visits.inOrder [Stack] (h : (ofTokens tokens false).Visits read s) :
    ∃ indices, InOrder tokens s indices := by
  induction h with
  | start =>
    have hnone : (ofTokens tokens false).skipNewlines.reporter = {} := reporter_skipNewlines _
    refine ⟨[], ?_, List.Pairwise.nil, by simp, ?_, ?_⟩
    · rw [hnone]
      exact .none
    · rw [hnone]
      exact fun _ => rfl
    · rw [hnone]
      exact Nat.zero_le 1
  | @turn read s s' turn hvisits hend hstep hgo ih =>
    rcases ih with ⟨indices, hinOrder⟩
    cases advances_of_step hvisits.between_and_reaches.1 hstep hgo with
    | settled _ _ hreaches => exact ⟨indices, hinOrder.of_quiet hend hreaches rfl⟩
    | accepted _ _ _ hreaches => exact ⟨indices, hinOrder.of_quiet hend hreaches rfl⟩
    | @recovered failure d₀ d e log howes hrun he _ hd hreaches =>
      have hraises : s.Raises d₀ e := by
        refine ⟨hend, howes, failure, ?_, he⟩
        rw [hvisits.between_and_reaches.1.andSeparates_eq]
        exact hrun
      exact ⟨_, hinOrder.of_raises hvisits hraises hreaches hd rfl⟩

/-- All errors of a parse are raised in order, and one of them at most blames the end of the
input. -/
theorem exists_raised [Stack] (tokens : List Token) :
    ∃ indices, Raised tokens (ofTokens tokens false).parse.2.reporter.errors.toList indices ∧
      indices.Pairwise (· < ·) ∧
      (ofTokens tokens false).parse.2.reporter.errors.toList.countP (·.isAtEnd) ≤ 1 := by
  have hstart : (ofTokens tokens false).Visits _ _ := .start
  rcases hstart.exists_last with ⟨read, s, hvisits, hlast⟩
  rcases hvisits.inOrder with ⟨indices, hinOrder⟩
  rw [hlast]
  exact ⟨indices, hinOrder.raised, hinOrder.increasing, hinOrder.atEnd_le_one⟩

end Session

end ScriptCheck
