import ScriptCheck.Diagnostic

/-!
# Rules of a grammar

A rule reads tokens at a cursor. It ends with a value, or with a failure, and in both cases at a
cursor that movements lead to: a rule carries the proof of that, so repetition can be written
without further argument. A failure keeps the place where it arose; nothing is taken back.

Two ways to repeat are enough for a grammar in which one token of lookahead decides:
`Rule.whileNext` goes on as long as the next token is of the right kind, and takes that token;
`Rule.untilNext` goes on until the next token is of a given kind.
-/

namespace ScriptCheck

/-- Why a rule fails. -/
inductive Cause where
  /-- The tokens do not follow the grammar. -/
  | invalid (e : SyntaxError)
  /-- A number token denotes no number. -/
  | numeral (fault : Numeral.Fault)
  /-- The nesting is deeper than the grammar is followed. -/
  | tooDeep
  deriving DecidableEq, Repr

/-- A failure: its cause, and the number of blocks that were entered and not left. -/
structure Failure where
  cause : Cause
  unclosed : Nat := 0
  deriving DecidableEq, Repr

/-- How a rule ends, and where. -/
inductive Outcome (α : Type) where
  | done (value : α) (place : Cursor)
  | failed (failure : Failure) (place : Cursor)

/-- Where a rule ends. -/
def Outcome.place {α : Type} : Outcome α → Cursor
  | done _ c | failed _ c => c

/-- A rule that reads tokens and gives a value of type `α`. -/
structure Rule (α : Type) where
  run : Cursor → Outcome α
  forward : ∀ c : Cursor, c.Reaches (run c).place

namespace Rule

variable {α β : Type}

theorem ext {r r' : Rule α} (h : ∀ c, r.run c = r'.run c) : r = r' := by
  cases r
  cases r'
  congr
  exact funext h

/-! ## Sequences of rules -/

/-- The rule that reads nothing. -/
protected def pure (a : α) : Rule α where
  run c := .done a c
  forward := Cursor.Reaches.refl

/-- One rule after another. -/
protected def bind (r : Rule α) (next : α → Rule β) : Rule β where
  run c :=
    match r.run c with
    | .done a d => (next a).run d
    | .failed failure d => .failed failure d
  forward c := by
    have hfirst := r.forward c
    split
    · next a d h =>
      rw [h] at hfirst
      exact hfirst.trans ((next a).forward d)
    · next failure d h =>
      rw [h] at hfirst
      exact hfirst

instance : Monad Rule where
  pure := Rule.pure
  bind := Rule.bind

@[simp] theorem run_pure (a : α) (c : Cursor) : (pure a : Rule α).run c = .done a c := rfl

theorem run_bind (r : Rule α) (next : α → Rule β) (c : Cursor) :
    (r >>= next).run c =
      match r.run c with
      | .done a d => (next a).run d
      | .failed failure d => .failed failure d := rfl

theorem id_map (r : Rule α) : id <$> r = r := by
  refine ext fun c => ?_
  change (r >>= pure).run c = r.run c
  rw [run_bind]
  cases r.run c <;> rfl

theorem bind_assoc {γ : Type} (r : Rule α) (next : α → Rule β) (last : β → Rule γ) :
    r >>= next >>= last = r >>= fun a => next a >>= last := by
  refine ext fun c => ?_
  simp only [run_bind]
  cases r.run c <;> rfl

instance : LawfulMonad Rule :=
  LawfulMonad.mk' Rule id_map (fun _ _ => rfl) bind_assoc

/-! ## Single tokens -/

/-- The next token, which is not taken. -/
def peek : Rule Token where
  run c := .done c.peek c
  forward := Cursor.Reaches.refl

/-- What looks at the next token runs with it, at the same place. -/
theorem run_peek_bind (next : Token → Rule β) (c : Cursor) :
    (peek >>= next).run c = (next c.peek).run c := rfl

/-- The next token, which is taken unless it is the end of the input. -/
def advance : Rule Token where
  run c := .done c.peek c.advance
  forward := Cursor.reaches_skip 1

/-- The failure of the given cause at the place. -/
def fail (cause : Token → Cause) : Rule α where
  run c := .failed { cause := cause c.peek } c
  forward := Cursor.Reaches.refl

/-- The failure of a syntax error that the next token gives rise to. -/
def invalid (error : Token → SyntaxError) : Rule α :=
  fail fun t => .invalid (error t)

/-- The failure to find something else than the next token. -/
def unexpected (message : String) (expected : Option Kind) : Rule α :=
  invalid fun t => .unexpected message t expected

/-- The next token, which is taken, if it is of the right kind. -/
def accept (wanted : Kind → Bool) : Rule (Option Token) where
  run c := if wanted c.peek.kind then .done (some c.peek) c.advance else .done none c
  forward c := by
    split
    · exact Cursor.reaches_skip 1 c
    · exact Cursor.Reaches.refl c

/-- The next token, which has to be of the given kind and is taken. -/
def expect (kind : Kind) (message : String) : Rule Token where
  run c :=
    if c.peek.kind = kind then .done c.peek c.advance
    else .failed { cause := .invalid (.unexpected message c.peek (some kind)) } c
  forward c := by
    split
    · exact Cursor.reaches_skip 1 c
    · exact Cursor.Reaches.refl c

/-- A rule read inside a block: if it fails, the block stays open. -/
def insideBlock (r : Rule α) : Rule α where
  run c :=
    match r.run c with
    | .done a d => .done a d
    | .failed failure d => .failed { failure with unclosed := failure.unclosed + 1 } d
  forward c := by
    have hinner := r.forward c
    split
    · next a d h =>
      rw [h] at hinner
      exact hinner
    · next failure d h =>
      rw [h] at hinner
      exact hinner

/-- A rule that may be left out in front of a token of the given kind. -/
def unlessNext (stop : Kind) (r : Rule α) : Rule (Option α) := do
  if (← peek).kind = stop then return none
  else
    let a ← r
    return some a

/-! ## Repetition -/

theorem remaining_le_of_run {r : Rule α} {c d : Cursor} {o : Outcome α} (h : r.run c = o)
    (hd : o.place = d) : d.remaining ≤ c.remaining := by
  have hforward := (r.forward c).remaining_le
  rwa [h, hd] at hforward

/-- What `whileNext` runs. -/
def whileNextFrom (wanted : Kind → Bool) (step : Token → α → Rule α) (a : α) (c : Cursor) :
    Outcome α :=
  if h : c.atEnd = false ∧ wanted c.peek.kind then
    match hstep : (step c.peek a).run c.advance with
    | .done b d =>
      have : d.remaining < c.remaining :=
        Nat.lt_of_le_of_lt (remaining_le_of_run hstep rfl) (Cursor.remaining_advance_lt h.1)
      whileNextFrom wanted step b d
    | .failed failure d => .failed failure d
  else .done a c
termination_by c.remaining

theorem reaches_whileNextFrom (wanted : Kind → Bool) (step : Token → α → Rule α) (a : α)
    (c : Cursor) : c.Reaches (whileNextFrom wanted step a c).place := by
  fun_induction whileNextFrom wanted step a c with
  | case1 a c h b d hstep _ ih =>
    have hforward := (step c.peek a).forward c.advance
    rw [hstep] at hforward
    exact (Cursor.reaches_skip 1 c).trans (hforward.trans ih)
  | case2 a c h failure d hstep =>
    have hforward := (step c.peek a).forward c.advance
    rw [hstep] at hforward
    exact (Cursor.reaches_skip 1 c).trans hforward
  | case3 a c h => exact Cursor.Reaches.refl c

/-- As long as the next token is of the right kind, take it and let it change the value. -/
def whileNext (wanted : Kind → Bool) (step : Token → α → Rule α) (a : α) : Rule α where
  run := whileNextFrom wanted step a
  forward := reaches_whileNextFrom wanted step a

/-- One turn of a repetition, and the rest of it. -/
theorem run_whileNext (wanted : Kind → Bool) (step : Token → α → Rule α) (a : α) (c : Cursor) :
    (whileNext wanted step a).run c =
      if c.atEnd = false ∧ wanted c.peek.kind = true then
        match (step c.peek a).run c.advance with
        | .done b d => (whileNext wanted step b).run d
        | .failed failure d => .failed failure d
      else .done a c := by
  change whileNextFrom wanted step a c = _
  rw [whileNextFrom]
  by_cases hgo : c.atEnd = false ∧ wanted c.peek.kind = true
  · rw [dif_pos hgo, if_pos hgo]
    split
    · next b d hstep =>
      simp only [hstep]
      rfl
    · next failure d hstep => rw [hstep]
  · rw [dif_neg hgo, if_neg hgo]

/-- What `untilNext` runs, after the items in `read`. -/
def untilNextFrom (stop : Kind → Bool) (item : Rule α) (read : Array α) (c : Cursor) :
    Outcome (List α) :=
  if c.atEnd || stop c.peek.kind then .done read.toList c
  else
    match hitem : item.run c with
    | .done a d =>
      if hmore : c.position < d.position then
        have : d.remaining < c.remaining := by
          have hsum := (item.forward c).position_add_remaining
          rw [hitem] at hsum
          change d.position + d.remaining = c.position + c.remaining at hsum
          omega
        untilNextFrom stop item (read.push a) d
      else .done (read.push a).toList d
    | .failed failure d => .failed failure d
termination_by c.remaining

theorem reaches_untilNextFrom (stop : Kind → Bool) (item : Rule α) (read : Array α) (c : Cursor) :
    c.Reaches (untilNextFrom stop item read c).place := by
  fun_induction untilNextFrom stop item read c with
  | case1 read c h => exact Cursor.Reaches.refl c
  | case2 read c h a d hitem hmore _ ih =>
    have hforward := item.forward c
    rw [hitem] at hforward
    exact hforward.trans ih
  | case3 read c h a d hitem hmore =>
    have hforward := item.forward c
    rw [hitem] at hforward
    exact hforward
  | case4 read c h failure d hitem =>
    have hforward := item.forward c
    rw [hitem] at hforward
    exact hforward

/-- Read items until the next token is of a given kind or the end of the input. An item that takes
no token is the last one, since it would be read again and again. -/
def untilNext (stop : Kind → Bool) (item : Rule α) : Rule (List α) where
  run := untilNextFrom stop item #[]
  forward := reaches_untilNextFrom stop item #[]

/-- What is left of `untilNext` after the items in `read`. -/
def untilNextAfter (stop : Kind → Bool) (item : Rule α) (read : Array α) : Rule (List α) where
  run := untilNextFrom stop item read
  forward := reaches_untilNextFrom stop item read

theorem run_untilNextAfter (stop : Kind → Bool) (item : Rule α) (read : Array α) (c : Cursor) :
    (untilNextAfter stop item read).run c =
      if (c.atEnd || stop c.peek.kind) = true then .done read.toList c
      else
        match item.run c with
        | .done a d =>
          if c.position < d.position then (untilNextAfter stop item (read.push a)).run d
          else .done (read.push a).toList d
        | .failed failure d => .failed failure d := by
  change untilNextFrom stop item read c = _
  rw [untilNextFrom]
  by_cases hstop : (c.atEnd || stop c.peek.kind) = true
  · rw [if_pos hstop, if_pos hstop]
  · rw [if_neg hstop, if_neg hstop]
    split
    · next a d hitem =>
      simp only [hitem]
      rfl
    · next failure d hitem => rw [hitem]

/-- Items with commas between them. -/
def commaSeparated (item : Rule α) : Rule (List α) := do
  let first ← item
  let read ← whileNext (· == .operator .comma) (fun _ (read : Array α) => do
    let next ← item
    return read.push next) #[first]
  return read.toList

end Rule

end ScriptCheck
