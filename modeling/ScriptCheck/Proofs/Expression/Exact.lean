import ScriptCheck.Session
import ScriptCheck.Proofs.Expression.Canonical
import ScriptCheck.Proofs.Grammar.Failure

/-!
# The expression parser is exact

An input is parsed as an expression if and only if it is what a canonical tree is written as, ends
of line around it aside, and then that tree is what comes out. Any other input gives a syntax error
of a special class.
-/

namespace ScriptCheck

open ScriptCheck.Rule

namespace Grammar

variable {s : Bool}

theorem wholeExpression_done {budget : Nat} {c d : Cursor} {e : Node}
    (h : (wholeExpression s budget).run c = .done e d) :
    ∃ r, Spells .assignment s (dropBlank c.ahead) r e ∧ dropBlank r = [] := by
  rw [wholeExpression] at h
  rcases skipNewlines_bind_done h with ⟨d₁, h, hd₁⟩
  rcases bind_done h with ⟨e', d₂, he, h⟩
  rcases skipNewlines_bind_done h with ⟨d₃, h, hd₃⟩
  rcases expression_reads he with ⟨hspells, -, -⟩
  rw [run_peek_bind] at h
  split at h
  · next heof =>
    rcases pure_done h with ⟨rfl, rfl⟩
    rw [Cursor.kind_peek_eq_eof_iff] at heof
    rw [hd₁] at hspells
    refine ⟨d₂.ahead, hspells, ?_⟩
    rw [← hd₃]
    simpa [Cursor.atEnd] using heof
  · simp [unexpected, invalid, fail] at h

theorem wholeExpression_comes (budget : Nat) {i r : List Token} {e : Node}
    (h : Spells .assignment s (dropBlank i) r e) (hr : dropBlank r = []) {c : Cursor}
    (hc : c.ahead = i) :
    ((wholeExpression s budget).run c).Comes (e.nesting ≤ budget) (·.ahead = []) (.done e) := by
  -- Behind the expression is an end of line or the end of the input.
  have hstop : Tier.assignment.extendedBy s (nextKind r) = false := by
    cases r with
    | nil => rfl
    | cons t r =>
      have ht : t.kind = .eol := dropBlank_eq_nil_iff.mp hr t (by simp)
      rw [nextKind_cons, ht]
      rfl
  rw [wholeExpression]
  refine skipNewlines_comes fun d hd => ?_
  have hread := expression_comes budget h hstop (by rw [hd, hc])
  refine (Comes.bind hread _).andThen fun d₁ hd₁ => skipNewlines_comes fun d₂ hd₂ => ?_
  rw [hd₁, hr] at hd₂
  refine .intro trivial hd₂ ?_
  rw [run_peek_bind, if_pos (by rw [Cursor.kind_peek, hd₂]; rfl)]
  rfl

end Grammar

namespace Session

variable {tokens : List Token} {failFast : Bool}

section

variable [Stack]

/-- What parsing an expression comes to by how its rule ends. -/
theorem parseExpression_eq :
    (ofTokens tokens failFast).parseExpression.1 =
      match (Grammar.wholeExpression false Nesting.limit).run (.ofTokens tokens) with
      | .done e _ => .ok e
      | .failed failure d =>
        match failure.cause.syntaxError? d with
        | some e => .error (.invalid e)
        | none => .error failure.cause := by
  have hcursor : (ofTokens tokens failFast).cursor = .ofTokens tokens := rfl
  have hseparates : (ofTokens tokens failFast).andSeparates = false := rfl
  rw [parseExpression_eq_run]
  unfold run
  rw [hcursor, hseparates]
  cases (Grammar.wholeExpression false Nesting.limit).run (.ofTokens tokens) with
  | done e d => rfl
  | failed failure d =>
    dsimp only
    cases failure.cause.syntaxError? d <;> rfl

theorem parseExpression_ok {e : Node} (h : (ofTokens tokens failFast).parseExpression.1 = .ok e) :
    ∃ r, Spells .assignment false (dropBlank (tokens.takeWhile Cursor.isBeforeEnd)) r e ∧
      dropBlank r = [] := by
  rw [parseExpression_eq] at h
  split at h
  · next e' d hrun =>
    cases h
    rw [← Cursor.ahead_ofTokens]
    exact Grammar.wholeExpression_done hrun
  · split at h <;> simp at h

/-- What is spelled is parsed, or else it is nested too deeply. -/
theorem parseExpression_of_spells (failFast : Bool) {r : List Token} {e : Node}
    (h : Spells .assignment false (dropBlank (tokens.takeWhile Cursor.isBeforeEnd)) r e)
    (hr : dropBlank r = []) :
    (e.nesting ≤ Nesting.limit ∧ (ofTokens tokens failFast).parseExpression.1 = .ok e) ∨
      (¬ e.nesting ≤ Nesting.limit ∧
        ∃ error, (ofTokens tokens failFast).parseExpression.1 = .error (.invalid error) ∧
          error.category = .nestingTooDeep) := by
  rw [parseExpression_eq]
  rcases Grammar.wholeExpression_comes Nesting.limit h hr
    (Cursor.ahead_ofTokens tokens) with ⟨hfits, d, -, hrun⟩ | ⟨hno, failure, d, hrun, hcause⟩
  · left
    rw [hrun]
    exact ⟨hfits, rfl⟩
  · right
    rw [hrun]
    simp only [hcause, Cause.syntaxError?]
    exact ⟨hno, _, rfl, rfl⟩

/-- What a canonical tree is written as is parsed as the tree, or else it is nested too deeply. -/
theorem parseExpression_of_flat (failFast : Bool)
    (hspelled : AreSpelled (tokens.takeWhile Cursor.isBeforeEnd)) {e : Node}
    (he : e.isCanonical = true)
    (hflat : (trimBlank (tokens.takeWhile Cursor.isBeforeEnd)).map Token.symbol = e.flat) :
    (e.nesting ≤ Nesting.limit ∧ ∃ e', (ofTokens tokens failFast).parseExpression.1 = .ok e' ∧
        e'.eraseLines = e.eraseLines) ∨
      (¬ e.nesting ≤ Nesting.limit ∧
        ∃ error, (ofTokens tokens failFast).parseExpression.1 = .error (.invalid error) ∧
          error.category = .nestingTooDeep) := by
  have hahead := hspelled.of_suffix (dropBlank_suffix (tokens.takeWhile Cursor.isBeforeEnd))
  rcases exists_trimBlank_append (tokens.takeWhile Cursor.isBeforeEnd) with ⟨es, hes, hall⟩
  rcases respells_of_isCanonical e he _ es hahead ⟨_, hes, hflat⟩ with ⟨e', he', hsame⟩
  have hnesting := Node.nesting_eq_of_eraseLines hsame
  rcases parseExpression_of_spells failFast
    (he'.loosen (T := .assignment) (Nat.zero_le _)) (dropBlank_eq_nil_iff.mpr hall)
    with ⟨hfits, hok⟩ | ⟨hno, hdeep⟩
  · exact Or.inl ⟨hnesting ▸ hfits, e', hok, hsame⟩
  · exact Or.inr ⟨hnesting ▸ hno, hdeep⟩

/-- Where number tokens carry their values, what fails is a syntax error of a special class. -/
theorem parseExpression_ok_or_error
    (hnumbers : NumbersCarryValues (tokens.takeWhile Cursor.isBeforeEnd)) :
    (∃ e, (ofTokens tokens failFast).parseExpression.1 = .ok e) ∨
      ∃ error, (ofTokens tokens failFast).parseExpression.1 = .error (.invalid error) ∧
        error.category ≠ .general := by
  rw [parseExpression_eq]
  cases hrun : (Grammar.wholeExpression false Nesting.limit).run (.ofTokens tokens) with
  | done e d => exact Or.inl ⟨e, rfl⟩
  | failed failure d =>
    right
    rw [← Cursor.ahead_ofTokens] at hnumbers
    rcases Grammar.wholeExpression_failed hnumbers hrun with hcause | ⟨error, hcause, _, _, hne, _⟩
    · simp only [hcause, Cause.syntaxError?]
      exact ⟨_, rfl, by simp [SyntaxError.nestingTooDeep, SyntaxError.atToken]⟩
    · simp only [hcause, Cause.syntaxError?]
      exact ⟨error, rfl, hne⟩

/-- The expression parser is exact. Unless the nesting is too deep, the trees it gives for the
tokens up to the end of the input are the canonical trees that these tokens, without the ends of
line around them, are what is written for. Other tokens give a syntax error. -/
theorem parseExpression_exact
    (hnumbers : NumbersCarryValues (tokens.takeWhile Cursor.isBeforeEnd))
    (hspelled : AreSpelled (tokens.takeWhile Cursor.isBeforeEnd))
    (hdeep : ∀ error, (ofTokens tokens failFast).parseExpression.1 = .error (.invalid error) →
      error.category ≠ .nestingTooDeep) :
    (∀ e : Node,
      (∃ e', (ofTokens tokens failFast).parseExpression.1 = .ok e' ∧
        e'.eraseLines = e.eraseLines) ↔
      e.isCanonical = true ∧
        (trimBlank (tokens.takeWhile Cursor.isBeforeEnd)).map Token.symbol = e.flat) ∧
    ((∃ e, (ofTokens tokens failFast).parseExpression.1 = .ok e) ∨
      ∃ error, (ofTokens tokens failFast).parseExpression.1 = .error (.invalid error) ∧
        error.category ≠ .general) := by
  have hahead : AreSpelled (dropBlank (tokens.takeWhile Cursor.isBeforeEnd)) :=
    hspelled.of_suffix (dropBlank_suffix _)
  refine ⟨fun e => ⟨?_, ?_⟩, parseExpression_ok_or_error hnumbers⟩
  · -- What comes out was spelled, so it is canonical and is what the tokens show.
    rintro ⟨e', hok, hsame⟩
    rcases parseExpression_ok hok with ⟨r, hspells, hr⟩
    have hcanonical := (hspells.isCanonical hahead).1
    rcases hspells.spans with ⟨w, hw, -, hwall⟩
    rcases hspells.shows hahead with ⟨v, hv, hshows⟩
    -- Both end in front of the ends of line at the back.
    obtain rfl : w = v := List.append_cancel_right (hw.symm.trans hv)
    rw [← Node.isCanonical_eraseLines, hsame, Node.isCanonical_eraseLines] at hcanonical
    refine ⟨hcanonical, ?_⟩
    rw [trimBlank_eq hw hwall hr, hshows, ← Node.flat_eraseLines, hsame, Node.flat_eraseLines]
  · -- What is shown is spelled, so it comes out unless it is nested too deeply.
    rintro ⟨hcanonical, hflat⟩
    rcases parseExpression_of_flat failFast hspelled hcanonical hflat
      with ⟨-, hok⟩ | ⟨-, error, herror, hcategory⟩
    · exact hok
    · exact absurd hcategory (hdeep error herror)

end

/-- The tokens of `x = 1 + y * 2` on a line. -/
def sumTokens : List Token :=
  [⟨.ident, "x", 1, 1, none⟩, ⟨.operator .assign, "=", 1, 3, none⟩,
    ⟨.number, "1", 1, 5, some (.int 1)⟩, ⟨.operator .plus, "+", 1, 7, none⟩,
    ⟨.ident, "y", 1, 9, none⟩, ⟨.operator .star, "*", 1, 11, none⟩,
    ⟨.number, "2", 1, 13, some (.int 2)⟩, ⟨.eol, "", 1, 14, none⟩]

theorem sumTokens_spelled : AreSpelled (sumTokens.takeWhile Cursor.isBeforeEnd) := by
  change AreSpelled sumTokens
  intro t ht text htext
  simp only [sumTokens, List.mem_cons, List.not_mem_nil, or_false] at ht
  rcases ht with rfl | rfl | rfl | rfl | rfl | rfl | rfl | rfl <;>
    simp_all [Kind.lexeme?, Operator.symbol]

/-- The multiplication is grouped first, and the assignment takes all of it. -/
theorem parseExpression_exact_sum :
    ∃ e, (ofTokens sumTokens false).parseExpression.1 = .ok e ∧
      e.eraseLines = .assign 0 "x" (.binary 0 "+" (.literal 0 (.int 1))
        (.binary 0 "*" (.var 0 "y") (.literal 0 (.int 2)))) := by
  refine ((parseExpression_exact ?_ sumTokens_spelled ?_).1 (.assign 0 "x"
    (.binary 0 "+" (.literal 0 (.int 1)) (.binary 0 "*" (.var 0 "y") (.literal 0 (.int 2)))))).mpr
    ⟨by decide, by decide⟩
  · unfold NumbersCarryValues
    decide
  · intro error herror
    rcases parseExpression_of_flat false sumTokens_spelled
      (e := .assign 0 "x" (.binary 0 "+" (.literal 0 (.int 1))
        (.binary 0 "*" (.var 0 "y") (.literal 0 (.int 2))))) (by decide) (by decide)
      with ⟨-, e, hok, -⟩ | ⟨hno, -⟩
    · rw [hok] at herror
      cases herror
    · exact absurd (by decide) hno

end Session

end ScriptCheck
