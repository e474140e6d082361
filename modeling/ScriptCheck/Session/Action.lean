import ScriptCheck.Grammar.Nesting
import ScriptCheck.Session.State

/-!
# Actions of a parser

An action takes a session on and ends with a value or with a failure, and in both cases with the
session as it has then become. Nothing is taken back when an action fails: what is to be undone
whatever happens is undone by the action that has done it. `Action.during` is the one that does so,
with the way in which `and` is read; a block that is entered is left by what closes it and by
nothing else, so a failure leaves it open (`Action.insideBlock`).

Like a rule, an action carries the proof that it only moves forward.
-/

namespace ScriptCheck

/-- What a parser does to a session, for a value of type `α`. -/
structure Action (α : Type) where
  run : Session → Except Cause α × Session
  forward : ∀ s : Session, s.cursor.Reaches (run s).2.cursor

namespace Action

variable {α β : Type}

/-! ## Sequences of actions -/

/-- The action that does nothing. -/
protected def pure (a : α) : Action α where
  run s := (.ok a, s)
  forward s := Cursor.Reaches.refl s.cursor

/-- One action after another. -/
protected def bind (m : Action α) (next : α → Action β) : Action β where
  run s :=
    match m.run s with
    | (.ok a, s') => (next a).run s'
    | (.error cause, s') => (.error cause, s')
  forward s := by
    have hfirst := m.forward s
    split
    · next a s' h =>
      rw [h] at hfirst
      exact hfirst.trans ((next a).forward s')
    · next cause s' h =>
      rw [h] at hfirst
      exact hfirst

instance : Monad Action where
  pure := Action.pure
  bind := Action.bind

theorem run_bind (m : Action α) (next : α → Action β) (s : Session) :
    (m >>= next).run s =
      match m.run s with
      | (.ok a, s') => (next a).run s'
      | (.error cause, s') => (.error cause, s') := rfl

/-! ## Tokens -/

/-- Read with a rule. -/
def read (r : Rule α) : Action α where
  run s := s.run r
  forward := Session.reaches_run r

/-- The next token, which is not taken. -/
def peek : Action Token :=
  read Rule.peek

/-- The next token, which is taken unless it is the end of the input. -/
def advance : Action Token :=
  read Rule.advance

/-- The next token, which is taken, if it is of the right kind. -/
def accept (wanted : Kind → Bool) : Action (Option Token) :=
  read (Rule.accept wanted)

/-- The next token, which has to be of the given kind and is taken. -/
def expect (kind : Kind) (message : String) : Action Token :=
  read (Rule.expect kind message)

/-- The failure of the given cause at the place. -/
def fail (cause : Token → Cause) : Action α :=
  read (Rule.fail cause)

/-- The failure of a syntax error that the next token gives rise to. -/
def invalid (error : Token → SyntaxError) : Action α :=
  read (Rule.invalid error)

/-- The failure to find something else than the next token. -/
def unexpected (message : String) (expected : Option Kind) : Action α :=
  read (Rule.unexpected message expected)

/-- An action that may be left out in front of a token of the given kind. -/
def unlessNext (stop : Kind) (m : Action α) : Action (Option α) := do
  if (← peek).kind = stop then return none
  else
    let a ← m
    return some a

/-- An action inside another, with what is then left of the budget, or a failure when the budget
does not last. -/
def deeper (way : Nesting) (budget : Nat) (inner : (rest : Nat) → rest < budget → Action α) :
    Action α :=
  if h : way.weight ≤ budget then
    inner (budget - way.weight) (way.sub_weight_lt h)
  else fail fun _ => .tooDeep

/-! ## What is entered and left -/

/-- While an action runs, `and` separates clauses or not. Whatever comes of the action, `and` is
then read as before. -/
def during (separates : Bool) (m : Action α) : Action α where
  run s :=
    let (result, s') := m.run { s with andSeparates := separates }
    (result, { s' with andSeparates := s.andSeparates })
  forward s := m.forward { s with andSeparates := separates }

/-- An action inside parentheses, where `and` is an operator. -/
def nested (m : Action α) : Action α :=
  during false m

/-- An action inside a block, which its end leaves. -/
def insideBlock (m : Action α) : Action α where
  run s :=
    match m.run { s with openBlocks := s.openBlocks + 1 } with
    | (.ok a, s') => (.ok a, { s' with openBlocks := s'.openBlocks - 1 })
    | (.error cause, s') => (.error cause, s')
  forward s := by
    have hinner := m.forward { s with openBlocks := s.openBlocks + 1 }
    split
    · next a s' h =>
      rw [h] at hinner
      exact hinner
    · next cause s' h =>
      rw [h] at hinner
      exact hinner

/-! ## Repetition -/

theorem remaining_le_of_run {m : Action α} {s s' : Session} {result : Except Cause α}
    (h : m.run s = (result, s')) : s'.cursor.remaining ≤ s.cursor.remaining := by
  have hforward := (m.forward s).remaining_le
  rwa [h] at hforward

/-- What `whileNext` runs. -/
def whileNextFrom (wanted : (andSeparates : Bool) → Kind → Bool) (step : Token → α → Action α)
    (a : α) (s : Session) : Except Cause α × Session :=
  if h : s.cursor.atEnd = false ∧ wanted s.andSeparates s.cursor.peek.kind then
    match hstep : (step s.cursor.peek a).run { s with cursor := s.cursor.advance } with
    | (.ok b, s') =>
      have : s'.cursor.remaining < s.cursor.remaining :=
        Nat.lt_of_le_of_lt (remaining_le_of_run hstep) (Cursor.remaining_advance_lt h.1)
      whileNextFrom wanted step b s'
    | (.error cause, s') => (.error cause, s')
  else (.ok a, s)
termination_by s.cursor.remaining

theorem reaches_whileNextFrom (wanted : Bool → Kind → Bool) (step : Token → α → Action α) (a : α)
    (s : Session) : s.cursor.Reaches (whileNextFrom wanted step a s).2.cursor := by
  fun_induction whileNextFrom wanted step a s with
  | case1 a s h b s' hstep _ ih =>
    have hforward := (step s.cursor.peek a).forward { s with cursor := s.cursor.advance }
    rw [hstep] at hforward
    exact (Cursor.reaches_skip 1 s.cursor).trans (hforward.trans ih)
  | case2 a s h cause s' hstep =>
    have hforward := (step s.cursor.peek a).forward { s with cursor := s.cursor.advance }
    rw [hstep] at hforward
    exact (Cursor.reaches_skip 1 s.cursor).trans hforward
  | case3 a s h => exact Cursor.Reaches.refl s.cursor

/-- As long as the next token is of the right kind, take it and let it change the value. Which kinds
are right is up to how the session reads `and` at that time. -/
def whileNext (wanted : (andSeparates : Bool) → Kind → Bool) (step : Token → α → Action α) (a : α) :
    Action α where
  run := whileNextFrom wanted step a
  forward := reaches_whileNextFrom wanted step a

/-- What `untilNext` runs, after the items in `read`. -/
def untilNextFrom (stop : Kind → Bool) (item : Action α) (read : Array α) (s : Session) :
    Except Cause (List α) × Session :=
  if s.cursor.atEnd || stop s.cursor.peek.kind then (.ok read.toList, s)
  else
    match hitem : item.run s with
    | (.ok a, s') =>
      if hmore : s.cursor.position < s'.cursor.position then
        have : s'.cursor.remaining < s.cursor.remaining := by
          have hsum := (item.forward s).position_add_remaining
          rw [hitem] at hsum
          change s'.cursor.position + s'.cursor.remaining =
            s.cursor.position + s.cursor.remaining at hsum
          omega
        untilNextFrom stop item (read.push a) s'
      else (.ok (read.push a).toList, s')
    | (.error cause, s') => (.error cause, s')
termination_by s.cursor.remaining

theorem reaches_untilNextFrom (stop : Kind → Bool) (item : Action α) (read : Array α)
    (s : Session) : s.cursor.Reaches (untilNextFrom stop item read s).2.cursor := by
  fun_induction untilNextFrom stop item read s with
  | case1 read s h => exact Cursor.Reaches.refl s.cursor
  | case2 read s h a s' hitem hmore _ ih =>
    have hforward := item.forward s
    rw [hitem] at hforward
    exact hforward.trans ih
  | case3 read s h a s' hitem hmore =>
    have hforward := item.forward s
    rw [hitem] at hforward
    exact hforward
  | case4 read s h cause s' hitem =>
    have hforward := item.forward s
    rw [hitem] at hforward
    exact hforward

/-- Run an action until the next token is of a given kind or the end of the input. An item that
takes no token is the last one, since it would be read again and again. -/
def untilNext (stop : Kind → Bool) (item : Action α) : Action (List α) where
  run := untilNextFrom stop item #[]
  forward := reaches_untilNextFrom stop item #[]

/-- Items with commas between them. -/
def commaSeparated (item : Action α) : Action (List α) := do
  let first ← item
  let read ← whileNext (fun _ k => k == .operator .comma) (fun _ (read : Array α) => do
    let next ← item
    return read.push next) #[first]
  return read.toList

end Action

end ScriptCheck
