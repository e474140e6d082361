import ScriptCheck.Proofs.Program.Owed
import ScriptCheck.Proofs.Program.Reading
import ScriptCheck.Syntax.Walk

/-!
# Every token is accounted for

A parse that recovers leaves out nothing in silence. Its input falls into pieces, in order: the
tokens of each statement that it gives back, those of each error that it reports, the `end`s that it
passes over because they are owed, and the ends of line between these (`parse_pieces`). What an
error has broken is never part of a statement: the tokens of a statement, parsed alone, give that
statement and no error, even where it was ended by a token that it does not contain.
-/

namespace ScriptCheck

/-- What becomes of a run of tokens in a parse. -/
inductive Piece where
  /-- An end of line between two turns. -/
  | blank (t : Token)
  /-- An `end` that was owed. -/
  | settled (t : Token)
  /-- The tokens of a statement that has been read. -/
  | statement (w : List Token) (n : Node)
  /-- The tokens that an error has cost. -/
  | error (w : List Token) (e : SyntaxError)

namespace Piece

/-- The tokens of a piece. -/
def tokens : Piece → List Token
  | blank t | settled t => [t]
  | statement w _ | error w _ => w

/-- The statement of a piece, if it is one. -/
def statement? : Piece → Option Node
  | statement _ n => some n
  | blank _ | settled _ | error _ _ => none

/-- The error of a piece, if it is one. -/
def error? : Piece → Option SyntaxError
  | error _ e => some e
  | blank _ | settled _ | statement _ _ => none

section

variable [Stack]

/-- Whether a piece of `input` is what it is said to be, where `before` are the tokens in front of
it. An `end` is owed when its turn comes. A statement is what its tokens alone are parsed to. An
error is at one of its tokens, or at the end of the input behind the last of them. -/
def Accounts (input before : List Token) : Piece → Prop
  | blank t => t.kind = .eol
  | settled t => t.kind = .keyword .end_ ∧ ∃ read s, (Session.ofTokens input false).Visits read s ∧
      s.cursor.position = before.length ∧ 0 < s.pendingEnds
  | statement w n => w ≠ [] ∧ (Session.ofTokens w false).parse.1 = .ok (.program 1 [n]) ∧
      (Session.ofTokens w false).parse.2.reporter.errors = #[]
  | error w e => w ≠ [] ∧ ∃ t, e.token = some t ∧ (t ∈ w ∨
      t = (Cursor.ofTokens input).finish ∧ before ++ w = input.takeWhile Cursor.isBeforeEnd)

/-- Whether all pieces are what they are said to be, the first of them behind `before`. -/
def AllAccount (input : List Token) : (before : List Token) → List Piece → Prop
  | _, [] => True
  | before, p :: ps => p.Accounts input before ∧ AllAccount input (before ++ p.tokens) ps

theorem AllAccount.append {input before : List Token} {ps qs : List Piece}
    (hps : AllAccount input before ps)
    (hqs : AllAccount input (before ++ ps.flatMap tokens) qs) :
    AllAccount input before (ps ++ qs) := by
  induction ps generalizing before with
  | nil => simpa using hqs
  | cons p ps ih =>
    refine ⟨hps.1, ih hps.2 ?_⟩
    simpa using hqs

/-- Ends of line are pieces by themselves. -/
theorem allAccount_blank {es : List Token} (hes : ∀ t ∈ es, t.kind = .eol)
    (input before : List Token) : AllAccount input before (es.map blank) := by
  induction es generalizing before with
  | nil => trivial
  | cons t es ih => exact ⟨hes t (by simp), ih (fun u hu => hes u (by simp [hu])) _⟩

end

theorem flatMap_blank (es : List Token) : (es.map blank).flatMap tokens = es := by
  induction es with
  | nil => rfl
  | cons t es ih => simp [tokens, ih]

theorem filterMap_statement?_blank (es : List Token) :
    (es.map blank).filterMap statement? = [] := by
  simp [List.filterMap_map, Function.comp_def, statement?]

theorem filterMap_error?_blank (es : List Token) : (es.map blank).filterMap error? = [] := by
  simp [List.filterMap_map, Function.comp_def, error?]

end Piece

open Piece

/-! ## The piece of a turn -/

/-- The tokens of a declaration that is read within the limit, alone, are parsed to it. -/
theorem Forms.parse_alone [Stack] {i r : List Token} {need : Nat} {n : Node}
    (h : Forms .declaration i r need n) (hfits : need ≤ Nesting.limit)
    (heof : ∀ t ∈ i, t.kind ≠ .eof) :
    ∃ w, i = w ++ r ∧ w ≠ [] ∧
      (Session.ofTokens w false).parse.1 = .ok (.program 1 [n]) ∧
      (Session.ofTokens w false).parse.2.reporter.errors = #[] := by
  rcases h.detach with ⟨w, rfl, hw⟩
  -- The end of the input may stand in the place of whatever comes behind.
  have halone := hw [] (.of_closes rfl (by decide))
  rw [List.append_nil] at halone
  have hwhole : w.takeWhile Cursor.isBeforeEnd = w :=
    Cursor.takeWhile_isBeforeEnd fun t ht => heof t (by simp [ht])
  have hprogram : FormsProgram (w.takeWhile Cursor.isBeforeEnd) (max (0 + need) 0) [n] := by
    rw [hwhole, FormsProgram, dropBlank_of_nextKind_ne (halone.nextKind_ne (by decide))]
    exact .next halone (.done rfl)
  refine ⟨w, rfl, halone.spans.ne_nil, ?_⟩
  rcases Session.parse_of_formsProgram hprogram with ⟨-, hresult, herrors⟩ | ⟨hno, -⟩
  · exact ⟨hresult, herrors⟩
  · exact absurd (by omega) hno

namespace Session

variable {tokens : List Token} {read : Array Node} {s s' : Session} {turn : Turn}

section

variable [Stack]

/-- A turn makes one piece, and passes the ends of line behind it. -/
theorem Advances.exists_piece
    (hnumbers : NumbersCarryValues (tokens.takeWhile Cursor.isBeforeEnd))
    (hvisits : (ofTokens tokens false).Visits read s) (hend : s.cursor.atEnd = false)
    (h : s.Advances turn s') :
    ∃ (p : Piece) (es : List Token), s.cursor.ahead = p.tokens ++ (es ++ s'.cursor.ahead) ∧
      (∀ t ∈ es, t.kind = .eol) ∧
      p.Accounts tokens s.cursor.behind.reverse ∧
      (turn.gather read).toList = read.toList ++ p.statement?.toList ∧
      s'.reporter.errors.toList = s.reporter.errors.toList ++ p.error?.toList := by
  have hkeeps := hvisits.keeps hnumbers
  cases h with
  | @settled d howes hd hreaches =>
    rcases exists_cons_of_nextKind howes.2 (by decide) with ⟨t, r, hr, ht⟩
    rw [hr, List.drop_one, List.tail_cons] at hd
    rcases exists_blank_append r with ⟨es, hes, hblank⟩
    rw [← hd] at hes
    refine ⟨.settled t, es, by rw [hr, hes]; rfl, hblank, ?_, by simp [statement?, Turn.gather],
      by simp [error?]⟩
    exact ⟨ht, read, s, hvisits, by simp [s.cursor.position_eq_length], Nat.pos_of_ne_zero howes.1⟩
  | @accepted n d₀ d hno hrun hd hreaches =>
    rcases Grammar.ofLevel_done Nesting.limit .declaration _ _ _ hrun with ⟨need, hneed, hforms⟩
    rcases hforms.parse_alone hneed s.cursor.ahead_ne_eof with ⟨w, hw, hne, halone⟩
    rcases exists_blank_append d₀.ahead with ⟨es, hes, hblank⟩
    rw [← hd] at hes
    refine ⟨.statement w n, es, by rw [hw, hes]; rfl, hblank, ⟨hne, halone⟩, ?_, by simp [error?]⟩
    simp [statement?, Turn.gather]
  | @recovered failure d₀ d e log hno hrun he htoken hd hreaches =>
    have hforward := (Grammar.declaration false Nesting.limit).forward s.cursor
    rw [hrun] at hforward
    change s.cursor.Reaches d₀ at hforward
    rcases hforward.suffix with ⟨v, hv⟩
    rcases exists_blank_append (d₀.ahead.drop (Cursor.resumeDistance d₀.ahead))
      with ⟨es, hes, hblank⟩
    change d.ahead = dropBlank _ at hd
    rw [← hd] at hes
    refine ⟨.error (v ++ d₀.ahead.take (Cursor.resumeDistance d₀.ahead)) e, es, ?_, hblank, ?_,
      by simp [statement?, Turn.gather], by simp [error?]⟩
    · change s.cursor.ahead = v ++ _ ++ (es ++ d.ahead)
      rw [← hes, List.append_assoc, List.take_append_drop, hv]
    · -- The token to blame is the first that is skipped, unless none is left.
      cases hahead : d₀.ahead with
      | nil =>
        rw [hahead, List.append_nil] at hv
        refine ⟨?_, d₀.peek, htoken, Or.inr ⟨?_, ?_⟩⟩
        · rintro hnil
          have hempty : s.cursor.ahead = [] := by simpa [hv] using hnil
          simp [Cursor.atEnd, hempty] at hend
        · have hpeek : d₀.peek = d₀.finish := by simp [Cursor.peek, hahead]
          rw [hpeek, hforward.finish_eq, hkeeps.reaches.finish_eq]
        · rw [hkeeps.reaches.takeWhile_eq, ← hv]
          simp
      | cons t r =>
        have hpos : 0 < Cursor.resumeDistance (t :: r) := Cursor.resumeDistance_pos (by simp)
        have hmem : t ∈ (t :: r).take (Cursor.resumeDistance (t :: r)) := by
          rw [← Nat.sub_add_cancel hpos, List.take_succ_cons]
          simp
        refine ⟨?_, t, ?_, Or.inl (List.mem_append_right v hmem)⟩
        · intro hnil
          rw [(List.append_eq_nil_iff.mp hnil).2] at hmem
          simp at hmem
        · rw [htoken, Cursor.peek_of_ahead hahead]

/-! ## The pieces of a parse -/

/-- Whatever a parse has passed between two turns falls into pieces. -/
theorem Visits.exists_pieces
    (hnumbers : NumbersCarryValues (tokens.takeWhile Cursor.isBeforeEnd))
    (h : (ofTokens tokens false).Visits read s) :
    ∃ pieces : List Piece, pieces.flatMap Piece.tokens = s.cursor.behind.reverse ∧
      read.toList = pieces.filterMap statement? ∧
      s.reporter.errors.toList = pieces.filterMap error? ∧ AllAccount tokens [] pieces := by
  induction h with
  | start =>
    rcases skipNewlines_eq (ofTokens tokens false) with ⟨d, heq, hd, hreaches⟩
    rcases exists_blank_append (ofTokens tokens false).cursor.ahead with ⟨es, hes, hblank⟩
    rw [← hd] at hes
    rw [heq]
    refine ⟨es.map blank, ?_, ?_, ?_, allAccount_blank hblank tokens []⟩
    · rw [flatMap_blank, hreaches.behind_eq hes]
      change es = (Cursor.ofTokens tokens).behind.reverse ++ es
      rw [Cursor.behind_ofTokens]
      rfl
    · rw [filterMap_statement?_blank]
    · rw [filterMap_error?_blank]
      rfl
  | @turn read s s' turn hvisits hend hstep hgo ih =>
    rcases ih with ⟨pieces, htokens, hread, herrors, haccount⟩
    rcases (hvisits.keeps hnumbers).exists_advances hnumbers with ⟨turn', s'', hstep', hturn⟩
    rw [hstep] at hstep'
    cases hstep'
    rcases hturn.exists_piece hnumbers hvisits hend
      with ⟨p, es, hahead, hblank, hp, hgather, herrors'⟩
    rw [← List.append_assoc] at hahead
    refine ⟨pieces ++ p :: es.map blank, ?_, ?_, ?_, ?_⟩
    · rw [hturn.reaches.behind_eq hahead, List.flatMap_append, List.flatMap_cons, flatMap_blank,
        htokens]
    · rw [hgather, hread, List.filterMap_append, List.filterMap_cons, filterMap_statement?_blank]
      cases p.statement? <;> rfl
    · rw [herrors', herrors, List.filterMap_append, List.filterMap_cons, filterMap_error?_blank]
      cases p.error? <;> rfl
    · refine haccount.append ⟨?_, allAccount_blank hblank tokens _⟩
      rw [htokens]
      exact hp

/-- Every token is accounted for, and no error leaks into a statement. The tokens in front of the
end of the input fall into pieces of which the statements are those that the parse gives back, and
the errors those that it reports, both in order. -/
theorem parse_pieces {tokens : List Token}
    (hnumbers : NumbersCarryValues (tokens.takeWhile Cursor.isBeforeEnd)) :
    ∃ pieces : List Piece,
      pieces.flatMap Piece.tokens = tokens.takeWhile Cursor.isBeforeEnd ∧
      (ofTokens tokens false).parse.1 = .ok (.program 1 (pieces.filterMap statement?)) ∧
      (ofTokens tokens false).parse.2.reporter.errors.toList = pieces.filterMap error? ∧
      AllAccount tokens [] pieces := by
  rcases Visits.exists_end hnumbers .start with ⟨read, s, hvisits, hend⟩
  have hnil : s.cursor.ahead = [] := by simpa [Cursor.atEnd] using hend
  rcases hvisits.exists_pieces hnumbers with ⟨pieces, htokens, hread, herrors, haccount⟩
  have hresult := hvisits.parse_eq
  rw [parseAfter_of_end hnil] at hresult
  refine ⟨pieces, ?_, ?_, ?_, haccount⟩
  · rw [htokens, (hvisits.keeps hnumbers).reaches.takeWhile_eq, hnil, List.append_nil]
  · rw [hresult, ← hread]
  · rw [hresult, ← herrors]

end

/-- The tokens of a block in which an error stands in front of a statement: `do print )`, then
`print x end return x`. -/
def brokenBlock : List Token :=
  [⟨.keyword .do_, "do", 1, 1, none⟩, ⟨.keyword .print, "print", 1, 4, none⟩,
    ⟨.operator .rparen, ")", 1, 10, none⟩, ⟨.eol, "", 1, 11, none⟩,
    ⟨.keyword .print, "print", 2, 1, none⟩, ⟨.ident, "x", 2, 7, none⟩,
    ⟨.keyword .end_, "end", 2, 9, none⟩, ⟨.keyword .return_, "return", 2, 13, none⟩,
    ⟨.ident, "x", 2, 20, none⟩]

/-- The error takes the head of the block, two statements are left, and the first of these is
complete without the `end` that it stops at. -/
theorem parse_pieces_brokenBlock :
    NumbersCarryValues (brokenBlock.takeWhile Cursor.isBeforeEnd) ∧
      ∃ pieces : List Piece, pieces.flatMap Piece.tokens = brokenBlock ∧
        (pieces.filterMap error?).length = 1 ∧ (pieces.filterMap statement?).length = 2 ∧
        AllAccount brokenBlock [] pieces := by
  have hnumbers : NumbersCarryValues (brokenBlock.takeWhile Cursor.isBeforeEnd) := by
    unfold NumbersCarryValues
    decide
  rcases parse_pieces hnumbers with ⟨pieces, htokens, hresult, herrors, haccount⟩
  have hcounts : (ofTokens brokenBlock false).parse.2.reporter.errors.toList.length = 1 ∧
      (ofTokens brokenBlock false).parse.1.toOption.map (·.children.length) = some 2 := by
    decide +kernel
  rw [hresult, herrors] at hcounts
  exact ⟨hnumbers, pieces, htokens, hcounts.1, Option.some.inj hcounts.2, haccount⟩

end Session

end ScriptCheck
