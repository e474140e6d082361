import ScriptCheck.Grammar.Statement

/-!
# Every construct takes a token

A rule that succeeds without taking a token could be repeated for ever. No expression, statement or
declaration does: `expression_takes` and `declaration_takes` follow from the first rule of each that
takes a token, because rules only move forward.
-/

namespace ScriptCheck

namespace Rule

variable {α β : Type}

/-- Whether a rule takes a token whenever it succeeds. -/
def Takes (r : Rule α) : Prop :=
  ∀ c a d, r.run c = .done a d → d.remaining < c.remaining

/-- What follows a rule that takes a token cannot give it back. -/
theorem Takes.bind_left {r : Rule α} (hr : r.Takes) (next : α → Rule β) : (r >>= next).Takes := by
  intro c b e h
  rw [run_bind] at h
  split at h
  · next a d hd =>
    have hforward := ((next a).forward d).remaining_le
    rw [h] at hforward
    exact Nat.lt_of_le_of_lt hforward (hr c a d hd)
  · simp at h

/-- Away from the end of the input, a sequence that starts by taking a token takes one. -/
theorem remaining_lt_of_advance {f : Token → Rule β} {c d : Cursor} {b : β}
    (hend : c.peek.kind ≠ .eof) (h : (advance >>= f).run c = .done b d) :
    d.remaining < c.remaining := by
  have hforward := ((f c.peek).forward c.advance).remaining_le
  change (f c.peek).run c.advance = .done b d at h
  rw [h] at hforward
  refine Nat.lt_of_le_of_lt hforward (Cursor.remaining_advance_lt ?_)
  rw [← Bool.not_eq_true, ← Cursor.kind_peek_eq_eof_iff]
  exact hend

theorem takes_fail (cause : Token → Cause) : (fail cause : Rule α).Takes := by
  intro c a d h
  simp [fail] at h

theorem takes_expect {kind : Kind} (hkind : kind ≠ .eof) (message : String) :
    (expect kind message).Takes := by
  intro c a d h
  simp only [expect] at h
  split at h
  · next hpeek =>
    refine remaining_lt_of_advance (f := pure) (b := a) ?_ h
    rw [hpeek]
    exact hkind
  · simp at h

end Rule

namespace Grammar

open ScriptCheck.Rule

theorem leftFold_takes {operand : Rule Node} (h : operand.Takes) (operators : Kind → Bool)
    (join : Token → Node → Node → Node) : (leftFold operand operators join).Takes :=
  h.bind_left _

/-- A token with a literal value is not the end of the input. -/
theorem ne_eof_of_literalValue? {t : Token} {value : Literal} (h : literalValue? t = some value) :
    t.kind ≠ .eof := by
  intro hkind
  simp [literalValue?, hkind] at h

theorem primary_takes (budget : Nat) : (primary budget).Takes := by
  intro c e d h
  rw [primary, run_peek_bind] at h
  split at h
  · next hk => exact remaining_lt_of_advance (by simp [hk]) h
  · next hk => exact remaining_lt_of_advance (by simp [hk]) h
  · next hk => exact remaining_lt_of_advance (by simp [hk]) h
  · split at h
    · next value hvalue => exact remaining_lt_of_advance (ne_eof_of_literalValue? hvalue) h
    · exact takes_fail _ c e d h

theorem call_takes (budget : Nat) : (call budget).Takes := by
  rw [call]
  exact (primary_takes budget).bind_left _

theorem unary_takes (andSeparates : Bool) (budget : Nat) : (unary andSeparates budget).Takes := by
  intro c e d h
  rw [unary, run_bind] at h
  by_cases hop : Kind.isUnary c.peek.kind = true
  · rw [show (accept Kind.isUnary).run c = .done (some c.peek) c.advance by simp [accept, hop]] at h
    refine remaining_lt_of_advance (f := fun op => do
      let operand ← deeper .operand budget fun rest _ => unary andSeparates rest
      return Node.unary op.line op.text operand) ?_ h
    intro hkind
    simp [hkind, Kind.isUnary] at hop
  · rw [show (accept Kind.isUnary).run c = .done none c by simp [accept, hop]] at h
    exact call_takes budget c e d h

theorem factor_takes (andSeparates : Bool) (budget : Nat) : (factor andSeparates budget).Takes := by
  rw [factor]
  exact leftFold_takes (unary_takes andSeparates budget) _ _

theorem term_takes (andSeparates : Bool) (budget : Nat) : (term andSeparates budget).Takes := by
  rw [term]
  exact leftFold_takes (factor_takes andSeparates budget) _ _

theorem comparison_takes (andSeparates : Bool) (budget : Nat) :
    (comparison andSeparates budget).Takes := by
  rw [comparison]
  exact leftFold_takes (term_takes andSeparates budget) _ _

theorem equality_takes (andSeparates : Bool) (budget : Nat) :
    (equality andSeparates budget).Takes := by
  rw [equality]
  exact leftFold_takes (comparison_takes andSeparates budget) _ _

theorem logicAnd_takes (andSeparates : Bool) (budget : Nat) :
    (logicAnd andSeparates budget).Takes := by
  rw [logicAnd]
  exact leftFold_takes (equality_takes andSeparates budget) _ _

theorem logicOr_takes (andSeparates : Bool) (budget : Nat) :
    (logicOr andSeparates budget).Takes := by
  rw [logicOr]
  exact leftFold_takes (logicAnd_takes andSeparates budget) _ _

theorem assignment_takes (andSeparates : Bool) (budget : Nat) :
    (assignment andSeparates budget).Takes := by
  rw [assignment]
  exact (logicOr_takes andSeparates budget).bind_left _

/-- An expression takes a token. -/
theorem expression_takes (andSeparates : Bool) (budget : Nat) :
    (expression andSeparates budget).Takes := by
  rw [expression]
  exact assignment_takes andSeparates budget

theorem block_takes (andSeparates : Bool) (budget : Nat) :
    (block andSeparates budget).Takes := by
  rw [block]
  exact (takes_expect (by decide) _).bind_left _

/-- A statement takes a token. -/
theorem statement_takes (andSeparates : Bool) (budget : Nat) :
    (statement andSeparates budget).Takes := by
  intro c s d h
  rw [statement, run_peek_bind] at h
  split at h
  · next hk => exact remaining_lt_of_advance (by simp [hk]) (by rwa [ifStatement] at h)
  · next hk => exact remaining_lt_of_advance (by simp [hk]) (by rwa [forStatement] at h)
  · next hk => exact remaining_lt_of_advance (by simp [hk]) h
  · next hk => exact remaining_lt_of_advance (by simp [hk]) h
  · next hk => exact remaining_lt_of_advance (by simp [hk]) (by rwa [whileStatement] at h)
  · exact block_takes andSeparates budget c s d h
  · exact (expression_takes andSeparates budget).bind_left _ c s d h

/-- A declaration takes a token. -/
theorem declaration_takes (andSeparates : Bool) (budget : Nat) :
    (declaration andSeparates budget).Takes := by
  intro c s d h
  rw [declaration, run_peek_bind] at h
  split at h
  · next hk => exact remaining_lt_of_advance (by simp [hk]) (by rwa [functionDeclaration] at h)
  · exact statement_takes andSeparates budget c s d h

end Grammar

end ScriptCheck
