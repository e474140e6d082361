import ScriptCheck.Proofs.Program.Turns
import ScriptCheck.Proofs.Statement.Unfinished

/-!
# What is owed between two turns

A parse that has been through errors owes the `end`s of the blocks that they left open. How many
these are is kept in four places: a block that is entered, a block that is left, an `end` that is
passed over, and a run of tokens that is skipped. Together they keep a count that has nothing to do
with errors: it is the depth in blocks that the tokens passed so far lead to
(`parse_pendingEnds`), wherever errors were and whatever was skipped.

The one place where tokens are not counted one by one is the skipped run, in which all `do`s are
counted before all `end`s. That this is the same depends on where reading resumes: a `do` can only
be the first token of the run.
-/

namespace ScriptCheck

/-! ## Tokens that are skipped -/

namespace Cursor

/-- Behind the first token that is skipped, none starts a statement. -/
theorem startsStatement_of_skipped {t : Token} {rest : List Token} :
    ∀ u ∈ rest.take (resumeDistance (t :: rest) - 1), u.kind.startsStatement = false := by
  induction rest generalizing t with
  | nil => simp
  | cons v rest ih =>
    rw [resumeDistance]
    split
    · simp
    · next hgo =>
      intro u hu
      have hv : v.kind.startsStatement = false := by
        rw [← Bool.not_eq_true]
        exact fun hstarts => hgo (by simp [hstarts])
      have hpos : 0 < resumeDistance (v :: rest) := resumeDistance_pos (by simp)
      rw [Nat.add_sub_cancel, ← Nat.sub_add_cancel hpos, List.take_succ_cons] at hu
      rcases List.mem_cons.mp hu with rfl | hu
      · exact hv
      · exact ih u hu

end Cursor

theorem Session.countKind_cons (kind : Kind) (t : Token) (tokens : List Token) :
    countKind kind (t :: tokens) = countKind kind tokens + if t.kind = kind then 1 else 0 := by
  simp [countKind, List.countP_cons]

/-- Where no block is opened, each `end` closes one of those that are open. -/
theorem blockDepth_of_ne_do {tokens : List Token} (h : ∀ t ∈ tokens, t.kind ≠ .keyword .do_)
    (start : Nat) :
    blockDepth start tokens = start - Session.countKind (.keyword .end_) tokens := by
  induction tokens generalizing start with
  | nil => rfl
  | cons t tokens ih =>
    rw [blockDepth_cons, ih fun u hu => h u (by simp [hu]), Session.countKind_cons, stepDepth,
      if_neg (h t (by simp))]
    split <;> omega

/-- In what is skipped, counting token by token comes to the same as counting all at once. -/
theorem blockDepth_skipped (start : Nat) (ahead : List Token) :
    blockDepth start (ahead.take (Cursor.resumeDistance ahead)) =
      Session.owedAfter start 0 ahead := by
  cases ahead with
  | nil => simp [Session.owedAfter, Session.countKind]
  | cons t rest =>
    have hpos : 0 < Cursor.resumeDistance (t :: rest) := Cursor.resumeDistance_pos (by simp)
    have htake : (t :: rest).take (Cursor.resumeDistance (t :: rest)) =
        t :: rest.take (Cursor.resumeDistance (t :: rest) - 1) := by
      conv => lhs; rw [← Nat.sub_add_cancel hpos, List.take_succ_cons]
    have hno : ∀ u ∈ rest.take (Cursor.resumeDistance (t :: rest) - 1),
        u.kind ≠ .keyword .do_ := by
      intro u hu hdo
      have hstarts := Cursor.startsStatement_of_skipped u hu
      rw [hdo] at hstarts
      exact absurd hstarts (by decide)
    have hnone : Session.countKind (.keyword .do_)
        (rest.take (Cursor.resumeDistance (t :: rest) - 1)) = 0 := by
      rw [Session.countKind, List.countP_eq_zero]
      intro u hu
      simpa using hno u hu
    rw [Session.owedAfter, htake, blockDepth_cons, blockDepth_of_ne_do hno, stepDepth]
    simp only [Session.countKind_cons, hnone]
    by_cases hdo : t.kind = .keyword .do_
    · simp [hdo]
    · simp only [if_neg hdo]
      split <;> omega

namespace Session

variable {s s' : Session} {turn : Turn} {read : Array Node}

/-! ## One turn -/

theorem owedAfter_add (pending unclosed : Nat) (ahead : List Token) :
    owedAfter (pending + unclosed) 0 ahead = owedAfter pending unclosed ahead := rfl

section

variable [Stack]

/-- A turn passes some tokens and keeps the count up with them. -/
theorem Advances.pendingEnds_eq (h : s.Advances turn s') :
    ∃ w, s.cursor.ahead = w ++ s'.cursor.ahead ∧ s'.pendingEnds = blockDepth s.pendingEnds w := by
  cases h with
  | @settled d howes hd hreaches =>
    rcases exists_cons_of_nextKind howes.2 (by decide) with ⟨t, r, hr, ht⟩
    rw [hr, List.drop_one, List.tail_cons] at hd
    rcases Opens.dropBlank r with ⟨es, hes, hdepth⟩
    refine ⟨t :: es, by rw [hr, hes, ← hd]; rfl, ?_⟩
    have hclosed : stepDepth s.pendingEnds t = s.pendingEnds - 1 := by simp [stepDepth, ht]
    rw [blockDepth_cons, hclosed, hdepth, Nat.add_zero]
  | @accepted n d₀ d hno hrun hd hreaches =>
    rcases Grammar.ofLevel_done Nesting.limit .declaration _ _ _ hrun with ⟨need, -, hforms⟩
    have hopens := hforms.opens.through (.dropBlank d₀.ahead)
    rw [← hd] at hopens
    rcases hopens with ⟨w, hw, hdepth⟩
    exact ⟨w, hw, (hdepth s.pendingEnds).symm⟩
  | @recovered failure d₀ d e log hno hrun he htoken hd hreaches =>
    have hnumeral : ∀ fault, failure.cause ≠ .numeral fault := by
      intro fault hcause
      rw [hcause] at he
      simp [Cause.syntaxError?] at he
    rcases (Grammar.ofLevel_failed Nesting.limit .declaration _ _ _ hrun hnumeral (by simp)).opens
      with ⟨v, hv, hdepth⟩
    rcases Opens.dropBlank (d₀.ahead.drop (Cursor.resumeDistance d₀.ahead)) with ⟨es, hes, hquiet⟩
    -- What the declaration has taken, what is skipped, and the ends of line behind it.
    refine ⟨v ++ (d₀.ahead.take (Cursor.resumeDistance d₀.ahead) ++ es), ?_, ?_⟩
    · change d.ahead = dropBlank _ at hd
      rw [← hd] at hes
      rw [hv, List.append_assoc, List.append_assoc, ← hes, List.take_append_drop]
    · rw [blockDepth_append, blockDepth_append, hdepth, blockDepth_skipped, hquiet, Nat.add_zero,
        owedAfter_add]

/-! ## All turns -/

/-- The statements that have been read when a turn is over. -/
def Turn.gather (read : Array Node) : Turn → Array Node
  | .accepted n => read.push n
  | .settled | .recovered | .stopped _ => read

/-- The sessions that a parse from `s₀` comes to between its turns, before each of which it looks
whether the input ends, and the statements that it has read by then. -/
inductive Visits (s₀ : Session) : Array Node → Session → Prop where
  | start : s₀.Visits #[] s₀.skipNewlines
  | turn {read : Array Node} {s s' : Session} {turn : Turn} : s₀.Visits read s →
      s.cursor.atEnd = false → s.step = (turn, s') → (∀ cause, turn ≠ .stopped cause) →
      s₀.Visits (turn.gather read) s'

/-- A parse goes on from each session that it comes to. -/
theorem Visits.parse_eq {s₀ : Session} (h : s₀.Visits read s) : s₀.parse = s.parseAfter read := by
  induction h with
  | start => rfl
  | @turn read s s' turn _ hend hstep hgo ih =>
    have hne : s.cursor.ahead ≠ [] := by
      intro hnil
      simp [Cursor.atEnd, hnil] at hend
    rw [ih, parseAfter_of_step hne hstep]
    cases turn with
    | stopped cause => exact absurd rfl (hgo cause)
    | _ => rfl

end

/-- What holds of each session that a parse of `tokens` comes to. -/
structure Keeps (tokens : List Token) (s : Session) : Prop where
  between : s.Between
  reaches : (Cursor.ofTokens tokens).Reaches s.cursor
  pendingEnds_eq : s.pendingEnds = blockDepth 0 s.cursor.behind.reverse

variable {tokens : List Token}

theorem Keeps.suffix (h : Keeps tokens s) :
    s.cursor.ahead <:+ tokens.takeWhile Cursor.isBeforeEnd := by
  rw [← Cursor.ahead_ofTokens]
  exact h.reaches.suffix

theorem keeps_skipNewlines (tokens : List Token) :
    Keeps tokens (ofTokens tokens false).skipNewlines := by
  rcases skipNewlines_eq (ofTokens tokens false) with ⟨d, heq, hd, hreaches⟩
  rw [heq]
  refine ⟨⟨rfl, rfl, rfl⟩, hreaches, ?_⟩
  rcases Opens.dropBlank (ofTokens tokens false).cursor.ahead with ⟨es, hes, hdepth⟩
  rw [← hd] at hes
  change 0 = blockDepth 0 d.behind.reverse
  rw [hreaches.behind_eq hes, blockDepth_append, hdepth]
  change 0 = blockDepth 0 (Cursor.ofTokens tokens).behind.reverse + 0
  rw [Cursor.behind_ofTokens]
  rfl

theorem Keeps.advances [Stack] (hs : Keeps tokens s) (h : s.Advances turn s') :
    Keeps tokens s' := by
  refine ⟨h.between hs.between, hs.reaches.trans h.reaches, ?_⟩
  rcases h.pendingEnds_eq with ⟨w, hw, hdepth⟩
  rw [hdepth, h.reaches.behind_eq hw, blockDepth_append, ← hs.pendingEnds_eq]

section

variable (hnumbers : NumbersCarryValues (tokens.takeWhile Cursor.isBeforeEnd))

include hnumbers

variable [Stack]

theorem Keeps.exists_advances (hs : Keeps tokens s) :
    ∃ turn s', s.step = (turn, s') ∧ s.Advances turn s' :=
  step_advances hs.between (hnumbers.of_suffix hs.suffix)

theorem Visits.keeps (h : (ofTokens tokens false).Visits read s) : Keeps tokens s := by
  induction h with
  | start => exact keeps_skipNewlines tokens
  | turn _ _ hstep _ ih =>
    rcases ih.exists_advances hnumbers with ⟨turn, s', hstep', hturn⟩
    rw [hstep] at hstep'
    cases hstep'
    exact ih.advances hturn

/-- A parse comes to the end of the input. -/
theorem Visits.exists_end (h : (ofTokens tokens false).Visits read s) :
    ∃ read' s', (ofTokens tokens false).Visits read' s' ∧ s'.cursor.atEnd = true := by
  generalize hn : s.cursor.remaining = n
  induction n using Nat.strongRecOn generalizing read s with
  | ind n ih =>
    cases hend : s.cursor.atEnd with
    | true => exact ⟨read, s, h, hend⟩
    | false =>
      rcases (h.keeps hnumbers).exists_advances hnumbers with ⟨turn, s', hstep, hturn⟩
      have hprogress := step_progress hend (by rw [hstep]; exact hturn.ne_stopped)
      rw [hstep, hn] at hprogress
      exact ih _ hprogress (.turn h hend hstep hturn.ne_stopped) rfl

end

/-- Owed `end`s are counted exactly. In each session that a parse comes to between its turns, no
block is open, and as many `end`s are owed as blocks are open behind the tokens that have been
passed. The last of these sessions is at the end of the input and is what the parse leaves behind,
apart from the log. -/
theorem parse_pendingEnds [Stack] {tokens : List Token}
    (hnumbers : NumbersCarryValues (tokens.takeWhile Cursor.isBeforeEnd)) :
    (∀ read s, (ofTokens tokens false).Visits read s →
      (ofTokens tokens false).parse = s.parseAfter read ∧ s.openBlocks = 0 ∧
        s.pendingEnds = blockDepth 0 (tokens.take s.cursor.position)) ∧
      ∃ read s log, (ofTokens tokens false).Visits read s ∧ s.cursor.atEnd = true ∧
        (ofTokens tokens false).parse = (.ok (.program 1 read.toList), { s with log := log }) := by
  constructor
  · intro read s hvisits
    have hkeeps := hvisits.keeps hnumbers
    refine ⟨hvisits.parse_eq, hkeeps.between.openBlocks_eq, ?_⟩
    rw [hkeeps.pendingEnds_eq, hkeeps.reaches.take_position]
  · rcases Visits.exists_end hnumbers .start with ⟨read, s, hvisits, hend⟩
    have hnil : s.cursor.ahead = [] := by simpa [Cursor.atEnd] using hend
    have hresult := hvisits.parse_eq
    rw [parseAfter_of_end hnil] at hresult
    exact ⟨read, s, _, hvisits, hend, hresult⟩

/-- The tokens of two blocks, of which an error abandons both and only the inner one is closed:
`do do print )` and then `end`. -/
def halfClosed : List Token :=
  [⟨.keyword .do_, "do", 1, 1, none⟩, ⟨.keyword .do_, "do", 1, 4, none⟩,
    ⟨.keyword .print, "print", 1, 7, none⟩, ⟨.operator .rparen, ")", 1, 13, none⟩,
    ⟨.eol, "", 1, 14, none⟩, ⟨.keyword .end_, "end", 2, 1, none⟩]

/-- The `end` of the outer block is still owed where the input ends. -/
theorem parse_pendingEnds_halfClosed :
    NumbersCarryValues (halfClosed.takeWhile Cursor.isBeforeEnd) ∧
      ∃ read s, (ofTokens halfClosed false).Visits read s ∧ s.cursor.atEnd = true ∧
        s.pendingEnds = 1 := by
  have hnumbers : NumbersCarryValues (halfClosed.takeWhile Cursor.isBeforeEnd) := by
    unfold NumbersCarryValues
    decide
  rcases parse_pendingEnds hnumbers with ⟨hall, read, s, log, hvisits, hend, hresult⟩
  rcases hall read s hvisits with ⟨-, -, howed⟩
  have hposition : s.cursor.position = (ofTokens halfClosed false).parse.2.cursor.position := by
    rw [hresult]
  refine ⟨hnumbers, read, s, hvisits, hend, ?_⟩
  rw [howed, hposition]
  decide +kernel

end Session

end ScriptCheck
