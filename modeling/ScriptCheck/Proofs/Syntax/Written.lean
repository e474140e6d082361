import ScriptCheck.Proofs.Reading.Place
import ScriptCheck.Proofs.Syntax.Flat
import ScriptCheck.Syntax.Agreement

/-!
# Trees as tokens

`Node.tokens` writes a tree out as tokens, which show what the tree is written as. Their places say
nothing. A tree that is read again may have other lines and is otherwise the same, so it agrees with
the tree that was written unless a literal in it differs from itself (`Node.agrees_of_eraseLines`).
-/

namespace ScriptCheck

/-! ## Tokens that show a symbol -/

namespace Symbol

/-- A token that shows a symbol. -/
def token : Symbol → Token
  | lexeme text => { kind := (Kind.all.find? (·.lexeme? == some text)).getD .error, text := text }
  | name text => { kind := .ident, text := text }
  | value .nil => { kind := .keyword .nil, text := Keyword.nil.word }
  | value (.bool true) => { kind := .keyword .true_, text := Keyword.true_.word }
  | value (.bool false) => { kind := .keyword .false_, text := Keyword.false_.word }
  | value (.int v) => { kind := .number, text := toString v, literal := some (.int v) }
  | value (.float v) => { kind := .number, text := Literal.floatText v, literal := some (.float v) }
  | value (.text v) => { kind := .string, text := v, literal := some (.text v) }
  | mark k => { kind := k, text := "" }

/-- Whether a symbol is one that trees are written with: a reserved word or an operator that has no
value, a name, a value, or an end of line. -/
def isProper : Symbol → Bool
  | lexeme text => Kind.all.any fun k =>
      k.lexeme? == some text &&
        !(k == .keyword .true_ || k == .keyword .false_ || k == .keyword .nil)
  | name _ | value _ => true
  | mark k => k == .eol

variable {s : Symbol}

theorem kind_token_of_lexeme {k : Kind} {text : String} (hmem : k ∈ Kind.all)
    (hk : k.lexeme? = some text) : (lexeme text).token.kind = k := by
  change (Kind.all.find? (·.lexeme? == some text)).getD .error = k
  cases hfind : Kind.all.find? (·.lexeme? == some text) with
  | none =>
    have hno := List.find?_eq_none.mp hfind k hmem
    simp [hk] at hno
  | some l =>
    have hl : l.lexeme? = some text := by simpa using List.find?_some hfind
    exact Kind.eq_of_lexeme? hl hk

/-- The token that is made for a symbol is written as its kind is, shows the symbol, and carries its
value if it is a number. -/
theorem token_of_isProper (h : s.isProper = true) :
    s.token.IsSpelled ∧ s.token.symbol = s ∧
      (s.token.kind = .number → s.token.literal ≠ none) := by
  cases s with
  | lexeme text =>
    simp only [isProper, List.any_eq_true, Bool.and_eq_true, Bool.not_eq_true',
      Bool.or_eq_false_iff, beq_iff_eq, beq_eq_false_iff_ne] at h
    rcases h with ⟨k, hmem, hlexeme, ⟨htrue, hfalse⟩, hnil⟩
    -- The text fixes the kind, and a kind with a value is not written by its text.
    have hkind := kind_token_of_lexeme hmem hlexeme
    refine ⟨?_, ?_, ?_⟩
    · intro text' htext
      rw [hkind, hlexeme] at htext
      exact Option.some.inj htext
    · refine Token.symbol_of_lexeme? (by rw [hkind]; exact hlexeme) ?_
      unfold Grammar.literalValue?
      rw [hkind]
      split <;> simp_all [Kind.lexeme?]
    · rw [hkind]
      rintro rfl
      simp [Kind.lexeme?] at hlexeme
  | name text => exact ⟨by simp [token, Token.IsSpelled, Kind.lexeme?], rfl, by simp [token]⟩
  | value v =>
    unfold token Token.IsSpelled
    split <;> simp_all [Kind.lexeme?, Token.symbol, Token.numberValue]
  | mark k =>
    obtain rfl : k = .eol := by simpa [isProper] using h
    exact ⟨by simp [token, Token.IsSpelled, Kind.lexeme?], rfl, by simp [token]⟩

/-- Where all tokens show what trees are written with, no end of the input is among them. -/
theorem takeWhile_of_isProper {tokens : List Token}
    (h : ∀ t ∈ tokens, t.symbol.isProper = true) :
    tokens.takeWhile Cursor.isBeforeEnd = tokens := by
  apply Cursor.takeWhile_isBeforeEnd
  intro t ht hend
  have hproper := h t ht
  simp [Token.symbol, hend, isProper] at hproper

end Symbol

/-! ## Literals that are no number -/

/-- Whether a literal stands for no number, and so differs from itself. -/
def Literal.isNaN : Literal → Bool
  | .float x => x.shape = .nan
  | _ => false

theorem Literal.agrees_self {v : Literal} (h : v.isNaN = false) : v.agrees v = true := by
  cases v with
  | float x =>
    have hshape : x.shape ≠ .nan := by simpa [isNaN] using h
    simp [agrees, Binary64.sameValue, hshape]
  | _ => simp [agrees]

/-- Whether a symbol shows a literal that stands for no number. -/
def Symbol.isNaN : Symbol → Bool
  | value v => v.isNaN
  | _ => false

/-- A token shows such a literal only if it carries it. -/
theorem Token.isNaN_symbol {t : Token} (hnumber : t.kind = .number → t.literal ≠ none)
    (hvalue : ∀ v, t.literal = some v → v.isNaN = false) : t.symbol.isNaN = false := by
  unfold symbol
  split
  · rfl
  · next hkind =>
    rcases Option.ne_none_iff_exists'.mp (hnumber hkind) with ⟨v, hv⟩
    simp only [numberValue, hv]
    exact hvalue v hv
  · cases hv : t.literal with
    | none => rfl
    | some v => exact hvalue v hv
  all_goals rfl

namespace Node

/-- The tokens that a tree is written as. -/
def tokens (n : Node) : List Token :=
  n.flat.map Symbol.token

variable {n : Node}

theorem tokens_spelled (h : ∀ s ∈ n.flat, s.isProper = true) : ∀ t ∈ n.tokens, t.IsSpelled := by
  intro t ht
  rcases List.mem_map.mp ht with ⟨s, hs, rfl⟩
  exact (Symbol.token_of_isProper (h s hs)).1

theorem tokens_carry (h : ∀ s ∈ n.flat, s.isProper = true) :
    ∀ t ∈ n.tokens, t.kind = .number → t.literal ≠ none := by
  intro t ht
  rcases List.mem_map.mp ht with ⟨s, hs, rfl⟩
  exact (Symbol.token_of_isProper (h s hs)).2.2

theorem map_symbol_tokens (h : ∀ s ∈ n.flat, s.isProper = true) :
    n.tokens.map Token.symbol = n.flat := by
  rw [tokens, List.map_map]
  exact (List.map_congr_left fun s hs => (Symbol.token_of_isProper (h s hs)).2.1).trans
    (List.map_id _)

/-! ## Agreement up to lines -/

mutual

/-- Lines are not compared. -/
theorem eraseLines_agrees : (n m : Node) → n.eraseLines.agrees m = n.agrees m
  | program _ ns, m => by
    cases m with
    | program => simp only [eraseLines, agrees, eraseAllLines_allAgree ns]
    | _ => rfl
  | function _ _ _ body, m => by
    cases m with
    | function => simp only [eraseLines, agrees, body.eraseLines_agrees]
    | _ => rfl
  | binding _ _ none, m => by
    cases m with
    | binding _ _ initializer' => cases initializer' <;> rfl
    | _ => rfl
  | binding _ _ (some initializer), m => by
    cases m with
    | binding _ _ initializer' =>
      cases initializer' with
      | none => rfl
      | some _ => simp only [eraseLines, agrees, initializer.eraseLines_agrees]
    | _ => rfl
  | block _ ns, m => by
    cases m with
    | block => simp only [eraseLines, agrees, eraseAllLines_allAgree ns]
    | _ => rfl
  | conditional _ condition thenBranch none, m => by
    cases m with
    | conditional _ _ _ elseBranch' =>
      cases elseBranch' with
      | none =>
        simp only [eraseLines, agrees, condition.eraseLines_agrees, thenBranch.eraseLines_agrees]
      | some _ => rfl
    | _ => rfl
  | conditional _ condition thenBranch (some elseBranch), m => by
    cases m with
    | conditional _ _ _ elseBranch' =>
      cases elseBranch' with
      | none => rfl
      | some _ =>
        simp only [eraseLines, agrees, condition.eraseLines_agrees, thenBranch.eraseLines_agrees,
          elseBranch.eraseLines_agrees]
    | _ => rfl
  | loop _ condition body, m => by
    cases m with
    | loop => simp only [eraseLines, agrees, condition.eraseLines_agrees, body.eraseLines_agrees]
    | _ => rfl
  | print _ value, m => by
    cases m with
    | print => simp only [eraseLines, agrees, value.eraseLines_agrees]
    | _ => rfl
  | return_ _ value, m => by
    cases m with
    | return_ => simp only [eraseLines, agrees, value.eraseLines_agrees]
    | _ => rfl
  | expression _ value, m => by
    cases m with
    | expression => simp only [eraseLines, agrees, value.eraseLines_agrees]
    | _ => rfl
  | assign _ _ value, m => by
    cases m with
    | assign => simp only [eraseLines, agrees, value.eraseLines_agrees]
    | _ => rfl
  | logical _ _ left right, m => by
    cases m with
    | logical => simp only [eraseLines, agrees, left.eraseLines_agrees, right.eraseLines_agrees]
    | _ => rfl
  | binary _ _ left right, m => by
    cases m with
    | binary => simp only [eraseLines, agrees, left.eraseLines_agrees, right.eraseLines_agrees]
    | _ => rfl
  | unary _ _ operand, m => by
    cases m with
    | unary => simp only [eraseLines, agrees, operand.eraseLines_agrees]
    | _ => rfl
  | call _ callee arguments, m => by
    cases m with
    | call =>
      simp only [eraseLines, agrees, callee.eraseLines_agrees, eraseAllLines_allAgree arguments]
    | _ => rfl
  | literal .., m => by cases m <;> rfl
  | var .., m => by cases m <;> rfl
  | grouping _ inner, m => by
    cases m with
    | grouping => simp only [eraseLines, agrees, inner.eraseLines_agrees]
    | _ => rfl
  | bare _, m => by cases m <;> rfl

theorem eraseAllLines_allAgree :
    (ns ms : List Node) → allAgree (eraseAllLines ns) ms = allAgree ns ms
  | [], ms => rfl
  | n :: ns, ms => by
    cases ms <;> simp [eraseAllLines, allAgree, n.eraseLines_agrees, eraseAllLines_allAgree ns]

end

/-- What is a tree up to lines agrees with it, if the tree agrees with itself. -/
theorem agrees_of_eraseLines {n n' : Node} (h : n'.eraseLines = n.eraseLines)
    (hself : n.agrees n = true) : n'.agrees n = true := by
  rw [← eraseLines_agrees, h, eraseLines_agrees]
  exact hself

end Node

end ScriptCheck
