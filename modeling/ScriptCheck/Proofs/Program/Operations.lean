import ScriptCheck.Proofs.Program.Beyond
import ScriptCheck.Proofs.Program.SourceOrder

/-!
# Runs of operations

A session may be used piece by piece: `Operation` has everything that can be done with a cursor or a
parser, and `Session.trace` does one operation after the other, whether they fail or not. Each of
them moves forward (`Operation.reaches_perform`) and goes as it would with other tokens behind the
end of the input (`Operation.perform_followedBy`). So a run of any length stays in front of the
first end among the tokens, and what is behind that end never matters (`Session.trace_confined`).
-/

namespace ScriptCheck

open ScriptCheck.Action ScriptCheck.Parser

/-! ## Operations -/

/-- What an operation gives. -/
inductive Answer where
  | nothing
  | flag (b : Bool)
  | text (s : String)
  | token (t : Token)
  | node (n : Node)
  | nodes (ns : List Node)
  | diagnostics (ds : List Diagnostic)

/-- Operators of the given kinds between operands. Where the end of the input is one of the kinds,
another operand is wanted there. As none is ever read at the end, that is the last one. -/
def Grammar.fold (operand : Rule Node) (operators : List Kind) : Rule Node := do
  let left ← leftFold operand (fun k => k != .eof && operators.contains k) joinBinary
  let op ← Rule.peek
  if op.kind = .eof ∧ .eof ∈ operators then
    let right ← operand
    return joinBinary op left right
  else return left

/-- The same in a session. -/
def Parser.fold (operand : Action Node) (operators : List Kind) : Action Node := do
  let left ← leftFold operand (fun _ k => k != .eof && operators.contains k) Grammar.joinBinary
  let op ← Action.peek
  if op.kind = .eof ∧ .eof ∈ operators then
    let right ← operand
    return Grammar.joinBinary op left right
  else return left

/-- The operations that read tokens. -/
inductive Reading where
  | advance
  | accept (kinds : List Kind)
  | expect (kind : Kind) (message : String)
  | skipNewlines
  | endStatement (message : String)
  | construct (part : Grammar.Construct Node)
  | arguments
  | forInitializer
  | print
  | return_
  | expressionStatement
  | fold (operand : Grammar.Construct Node) (operators : List Kind)

/-- What is done to read the tokens, and what it gives. -/
def Reading.action [Stack] : Reading → Action Answer
  | advance => do
    return .token (← Action.advance)
  | accept kinds => do
    return .flag (← Action.accept kinds.contains).isSome
  | expect kind message => do
    return .token (← Action.expect kind message)
  | skipNewlines => do
    Parser.skipNewlines
    return .nothing
  | endStatement message => do
    Parser.endStatement message
    return .nothing
  | construct part => do
    return .node (← part.action Nesting.limit)
  | arguments => do
    return .nodes (← Parser.arguments Nesting.limit)
  | forInitializer => do
    return .node (← Parser.forInitializer Nesting.limit)
  | print => do
    return .node (← Parser.printStatement Nesting.limit)
  | return_ => do
    return .node (← Parser.returnStatement Nesting.limit)
  | expressionStatement => do
    return .node (← Parser.expressionStatement Nesting.limit)
  | fold operand operators => do
    return .node (← Parser.fold (operand.action Nesting.limit) operators)

/-- The rule by which the tokens are read, and what it gives. -/
def Reading.rule [Stack] : Reading → (andSeparates : Bool) → Rule Answer
  | advance, _ => do
    return .token (← Rule.advance)
  | accept kinds, _ => do
    return .flag (← Rule.accept kinds.contains).isSome
  | expect kind message, _ => do
    return .token (← Rule.expect kind message)
  | skipNewlines, _ => do
    Grammar.skipNewlines
    return .nothing
  | endStatement message, _ => do
    Grammar.endStatement message
    return .nothing
  | construct part, s => do
    return .node (← part.rule s Nesting.limit)
  | arguments, s => do
    return .nodes (← Grammar.arguments s Nesting.limit)
  | forInitializer, s => do
    return .node (← Grammar.forInitializer s Nesting.limit)
  | print, s => do
    return .node (← Grammar.printStatement s Nesting.limit)
  | return_, s => do
    return .node (← Grammar.returnStatement s Nesting.limit)
  | expressionStatement, s => do
    return .node (← Grammar.expressionStatement s Nesting.limit)
  | fold operand operators, s => do
    return .node (← Grammar.fold (operand.rule s Nesting.limit) operators)

theorem Parser.fold_reads {operand : Action Node} {rule : Bool → Rule Node}
    (h : operand.Reads rule) (operators : List Kind) :
    (Parser.fold operand operators).Reads fun b => Grammar.fold (rule b) operators := by
  refine reads_bind (leftFold_reads h _ _) fun left => reads_bind (reads_read _) fun op => ?_
  split
  · exact reads_bind h fun right => reads_pure _
  · exact reads_pure _

theorem Reading.action_reads [Stack] (what : Reading) : what.action.Reads what.rule := by
  cases what with
  | advance | accept | expect | skipNewlines | endStatement =>
    exact reads_bind (reads_read _) fun _ => reads_pure _
  | construct part => exact reads_bind (part.action_reads _) fun _ => reads_pure _
  | arguments => exact reads_bind (Parser.arguments_reads _) fun _ => reads_pure _
  | forInitializer => exact reads_bind (Parser.forInitializer_reads _) fun _ => reads_pure _
  | print => exact reads_bind (Parser.printStatement_reads _) fun _ => reads_pure _
  | return_ => exact reads_bind (Parser.returnStatement_reads _) fun _ => reads_pure _
  | expressionStatement =>
    exact reads_bind (Parser.expressionStatement_reads _) fun _ => reads_pure _
  | fold operand operators =>
    exact reads_bind (fold_reads (operand.action_reads _) operators) fun _ => reads_pure _

/-- What can be done with a cursor or with a parser. -/
inductive Operation where
  | peek
  | check (kinds : List Kind)
  | atEnd
  | display
  | diagnostics
  | read (what : Reading)
  | synchronize
  | recover (e : SyntaxError)
  | parse
  | parseExpression
  /-- An operation during which `and` is an operator, whatever it is before and behind. -/
  | nested (op : Operation)
  /-- From now on, `and` separates or not. -/
  | separate (on : Bool)

namespace Session

/-- The session where reading may resume, apart from the account of blocks. -/
def synchronize (s : Session) : Session :=
  let place := s.cursor.synchronize
  { s with
    cursor := place
    log := if place.atEnd then s.log else s.log.push (.resuming place.peek) }

/-- The session with `and` separating or not. -/
def separate (on : Bool) (s : Session) : Session :=
  { s with andSeparates := on }

end Session

namespace Operation

/-- Do an operation in a session. -/
def perform [Stack] : Operation → Session → Except Cause Answer × Session
  | peek, s => (.ok (.token s.cursor.peek), s)
  | check kinds, s => (.ok (.flag (s.cursor.check kinds)), s)
  | atEnd, s => (.ok (.flag s.cursor.atEnd), s)
  | display, s => (.ok (.text s.cursor.display), s)
  | diagnostics, s => (.ok (.diagnostics s.reporter.diagnostics), s)
  | read what, s => what.action.run s
  | synchronize, s => (.ok .nothing, s.synchronize)
  | recover e, s => ((s.recover e).1.map fun _ => .nothing, (s.recover e).2)
  | parse, s => (s.parse.1.map .node, s.parse.2)
  | parseExpression, s => (s.parseExpression.1.map .node, s.parseExpression.2)
  | nested op, s =>
    let inner := op.perform (s.separate false)
    (inner.1, inner.2.separate s.andSeparates)
  | separate on, s => (.ok .nothing, s.separate on)

/-- An operation moves forward, whether it fails or not. -/
theorem reaches_perform [Stack] (op : Operation) (s : Session) :
    s.cursor.Reaches (op.perform s).2.cursor := by
  induction op generalizing s with
  | peek | check | atEnd | display | diagnostics | separate => exact .refl s.cursor
  | read what => exact what.action.forward s
  | synchronize => exact Cursor.reaches_skip _ s.cursor
  | recover e => exact Session.reaches_recover e s
  | parse => exact Session.reaches_parse s
  | parseExpression => exact Session.reaches_parseExpression s
  | nested op ih => exact ih (s.separate false)

end Operation

theorem Reading.always_local [Stack] (what : Reading) (s : Bool) :
    Always (Local [] []) (what.rule s) := by
  have hclosed := closed_local [] []
  -- What is done with the value that a rule gives reads nothing.
  have hgive : ∀ {α : Type} {r : Rule α} (give : α → Answer), Always (Local [] []) r →
      Always (Local [] []) (r >>= fun a => pure (give a)) := fun give h =>
    hclosed.always_bind h fun _ => hclosed.always_pure _
  cases what with
  | advance => exact hgive _ always_local_advance
  | accept kinds => exact hgive _ (always_local_accept _)
  | expect kind message => exact hgive _ (always_local_expect kind message)
  | skipNewlines => exact hgive _ hclosed.skipNewlines
  | endStatement message => exact hgive _ (hclosed.endStatement message)
  | construct part => exact hgive _ (always_local_construct part s _)
  | arguments => exact hgive _ (hclosed.arguments (hclosed.expression s _))
  | forInitializer => exact hgive _ hclosed.forInitializer
  | print => exact hgive _ fun c => hclosed.printStatement (always_local_advance c)
  | return_ => exact hgive _ fun c => hclosed.returnStatement (always_local_advance c)
  | expressionStatement => exact hgive _ hclosed.expressionStatement
  | fold operand operators =>
    have hoperand := always_local_construct operand s Nesting.limit
    refine hgive _ (hclosed.always_bind ?_ fun left c => hclosed.look ?_)
    · refine hclosed.always_bind hoperand fun _ =>
        hclosed.whileNext (by simp) (fun op left => ?_) _
      exact hclosed.always_bind hoperand fun _ => hclosed.always_pure _
    · split
      · exact hclosed.always_bind hoperand (fun _ => hclosed.always_pure _) c
      · exact hclosed.pure _ c

/-- An operation goes as it would with other tokens behind the end of the input. -/
theorem Operation.perform_followedBy [Stack] (op : Operation) (tokens : List Token) (s : Session) :
    op.perform (s.followedBy tokens) = ((op.perform s).1, (op.perform s).2.followedBy tokens) := by
  induction op generalizing s with
  | peek | check | atEnd | display | diagnostics | separate | synchronize => rfl
  | read what =>
    unfold perform
    rw [what.action_reads, what.action_reads]
    exact s.run_followedBy tokens (what.always_local s.andSeparates)
  | recover e =>
    unfold perform
    rw [Session.recover_followedBy]
  | parse =>
    unfold perform
    rw [Session.parse_followedBy]
  | parseExpression =>
    unfold perform
    rw [Session.parseExpression_followedBy]
  | nested op ih =>
    have hinner := ih (s.separate false)
    have hsame : (s.followedBy tokens).separate false = (s.separate false).followedBy tokens := rfl
    unfold perform
    rw [hsame, hinner]
    rfl

namespace Session

/-! ## Runs -/

variable [Stack]

/-- What comes of each operation of a run: its result, and the session behind it. -/
def trace : List Operation → Session → List (Except Cause Answer × Session)
  | [], _ => []
  | op :: ops, s => op.perform s :: trace ops (op.perform s).2

/-- The sessions of a run. -/
def sessions (ops : List Operation) (s : Session) : List Session :=
  s :: (s.trace ops).map Prod.snd

/-- A run moves forward all the way. -/
theorem pairwise_sessions (ops : List Operation) (s : Session) :
    (s.sessions ops).Pairwise fun t u => t.cursor.Reaches u.cursor := by
  induction ops generalizing s with
  | nil => exact List.pairwise_singleton _ s
  | cons op ops ih =>
    have hrest := ih (op.perform s).2
    refine List.pairwise_cons.mpr ⟨?_, hrest⟩
    intro u hu
    have hfirst := op.reaches_perform s
    rcases List.mem_cons.mp hu with rfl | hu
    · exact hfirst
    · exact hfirst.trans ((List.pairwise_cons.mp hrest).1 u hu)

theorem reaches_of_mem_sessions {ops : List Operation} {s t : Session} (h : t ∈ s.sessions ops) :
    s.cursor.Reaches t.cursor := by
  rcases List.mem_cons.mp h with rfl | h
  · exact .refl _
  · exact (List.pairwise_cons.mp (s.pairwise_sessions ops)).1 t h

/-- A run goes as it would with other tokens behind the end of the input. -/
theorem trace_followedBy (tokens : List Token) (ops : List Operation) (s : Session) :
    (s.followedBy tokens).trace ops =
      (s.trace ops).map fun p => (p.1, p.2.followedBy tokens) := by
  induction ops generalizing s with
  | nil => rfl
  | cons op ops ih => rw [trace, op.perform_followedBy, ih, trace, List.map_cons]

end Session

/-! ## The first end -/

/-- The index of the first end of the input. -/
def firstEnd (tokens : List Token) : Nat :=
  tokens.findIdx (·.kind == .eof)

/-- The tokens up to and including the first end of the input, which is put behind tokens that do
not end with one. -/
def upToEnd (tokens : List Token) : List Token :=
  let closed := tokens ++ Cursor.closing tokens
  closed.take (firstEnd closed + 1)

namespace Cursor

/-- At the start, all tokens are around the first end of the input. -/
theorem closed_eq (tokens : List Token) :
    tokens ++ closing tokens = (ofTokens tokens).ahead ++
      (ofTokens tokens).finish :: (ofTokens tokens).beyond := by
  rw [← tokens_ofTokens, Cursor.tokens, behind_ofTokens]
  rfl

theorem firstEnd_closed (tokens : List Token) :
    firstEnd (tokens ++ closing tokens) = (ofTokens tokens).remaining := by
  have hnone : ¬ (ofTokens tokens).ahead.findIdx (·.kind == .eof) <
      (ofTokens tokens).ahead.length := by
    rw [List.findIdx_lt_length]
    rintro ⟨t, ht, hkind⟩
    exact (ofTokens tokens).ahead_ne_eof t ht (eq_of_beq hkind)
  rw [closed_eq, firstEnd, List.findIdx_append, if_neg hnone, List.findIdx_cons,
    (ofTokens tokens).finish_eq_eof]
  exact Nat.zero_add _

theorem upToEnd_eq (tokens : List Token) : upToEnd tokens = (ofTokens tokens).upcoming := by
  unfold upToEnd
  dsimp only
  rw [firstEnd_closed, closed_eq, remaining, List.take_length_add_append]
  rfl

/-- Tokens that are the same up to the first end of the input give the same place, but for what is
behind that end. -/
theorem ofTokens_eq_followedBy {tokens tokens' : List Token}
    (h : upToEnd tokens' = upToEnd tokens) :
    ofTokens tokens' = (ofTokens tokens).followedBy (ofTokens tokens').beyond := by
  rw [upToEnd_eq, upToEnd_eq] at h
  rcases List.append_inj' h rfl with ⟨hahead, hfinish⟩
  refine eq_of_parts ?_ hahead (List.singleton_inj.mp hfinish) rfl
  exact (behind_ofTokens tokens').trans (behind_ofTokens tokens).symm

/-- The first end is among the tokens. -/
theorem getElem?_firstEnd (tokens : List Token) :
    (tokens ++ closing tokens)[firstEnd (tokens ++ closing tokens)]? =
      some (ofTokens tokens).finish := by
  rw [firstEnd_closed, closed_eq, remaining, List.getElem?_append_right (Nat.le_refl _),
    Nat.sub_self, List.getElem?_cons_zero]

/-- No movement from the start passes it. -/
theorem Reaches.position_le_firstEnd {tokens : List Token} {c : Cursor}
    (h : (ofTokens tokens).Reaches c) : c.position ≤ firstEnd (tokens ++ closing tokens) := by
  have hsum := h.position_add_remaining
  have hstart : (ofTokens tokens).position = 0 := by
    rw [position_eq_length, behind_ofTokens, List.length_nil]
  rw [firstEnd_closed]
  omega

end Cursor

namespace Session

/-! ## The bounds of a run -/

/-- The session, with the start of a sequence of tokens for its place. -/
def restart (tokens : List Token) (s : Session) : Session :=
  { s with cursor := .ofTokens tokens }

/-- Whether two operations have come to the same: they have the same result, and the sessions behind
them are at the same position and differ in nothing but the tokens. -/
structure SameUpToTokens (p p' : Except Cause Answer × Session) : Prop where
  result_eq : p'.1 = p.1
  position_eq : p'.2.cursor.position = p.2.cursor.position
  session_eq : p'.2 = { p.2 with cursor := p'.2.cursor }

/-- A run of operations never leaves the tokens up to the first end of the input. Whatever the
tokens are, what the session is and whether operations fail: the position never goes back and never
passes the first end, so that it always is the index of the token that comes next. And on any tokens
that are the same up to and including the first end, each operation of the run comes to the same. -/
theorem trace_confined [Stack] (tokens : List Token) (s : Session) (ops : List Operation) :
    let closed := tokens ++ Cursor.closing tokens
    (((s.restart tokens).sessions ops).map (·.cursor.position)).Pairwise (· ≤ ·) ∧
    (∃ t, closed[firstEnd closed]? = some t ∧ t.kind = .eof) ∧
    (∀ t ∈ (s.restart tokens).sessions ops, t.cursor.tokens = closed ∧
      t.cursor.position ≤ firstEnd closed ∧ closed[t.cursor.position]? = some t.cursor.peek) ∧
    ∀ tokens', upToEnd tokens' = upToEnd tokens →
      List.Forall₂ SameUpToTokens ((s.restart tokens).trace ops)
        ((s.restart tokens').trace ops) := by
  intro closed
  refine ⟨?_, ?_, ?_, ?_⟩
  · rw [List.pairwise_map]
    exact ((s.restart tokens).pairwise_sessions ops).imp Cursor.Reaches.position_le
  · exact ⟨_, Cursor.getElem?_firstEnd tokens, (Cursor.ofTokens tokens).finish_eq_eof⟩
  · intro t ht
    have hreaches : (Cursor.ofTokens tokens).Reaches t.cursor := reaches_of_mem_sessions ht
    have htokens : t.cursor.tokens = closed := by
      rw [hreaches.tokens_eq, Cursor.tokens_ofTokens]
    refine ⟨htokens, hreaches.position_le_firstEnd, ?_⟩
    rw [← htokens]
    exact t.cursor.getElem?_position
  · intro tokens' h
    have hrestart : s.restart tokens' =
        (s.restart tokens).followedBy (Cursor.ofTokens tokens').beyond := by
      rw [restart, Cursor.ofTokens_eq_followedBy h]
      rfl
    rw [hrestart, trace_followedBy, List.forall₂_map_right_iff, List.forall₂_same]
    exact fun p _ => ⟨rfl, rfl, rfl⟩

/-- `print`, where the input ends. -/
def cutShort : List Token :=
  [Keyword.print.token, Cursor.endMarker 1]

/-- A block behind that end, and another end. -/
def blockBehindEnd : List Token :=
  cutShort ++ [Keyword.do_.token, Keyword.end_.token, Cursor.endMarker 2]

/-- A parse that reports that nothing follows `print`, a block that is read behind it and a token
that is taken come to what they come to without the block behind the end. -/
theorem trace_confined_blockBehindEnd :
    upToEnd cutShort = upToEnd blockBehindEnd ∧
    List.Forall₂ SameUpToTokens
      ((ofTokens blockBehindEnd false).trace [.parse, .read (.construct .block), .read .advance])
      ((ofTokens cutShort false).trace [.parse, .read (.construct .block), .read .advance]) := by
  have hsame : upToEnd cutShort = upToEnd blockBehindEnd := by decide
  exact ⟨hsame, (trace_confined blockBehindEnd (ofTokens [] false) _).2.2.2 cutShort hsame⟩

end Session

end ScriptCheck
