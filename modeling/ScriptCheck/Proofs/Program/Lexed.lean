import ScriptCheck.Proofs.Lexer.Failing
import ScriptCheck.Proofs.Program.Printing

/-!
# What a lexer gives

The tokens that are read from a text have the texts and the values that their kinds ask for, and no
value differs from itself. So what is known of the parses of such tokens holds for texts.
-/

namespace ScriptCheck

theorem Kind.lexeme?_ofWord {text lexeme : String} (h : (Kind.ofWord text).lexeme? = some lexeme) :
    text = lexeme := by
  unfold Kind.ofWord at h
  cases hword : Keyword.ofWord? text with
  | none => simp [hword, Kind.lexeme?] at h
  | some w =>
    have hfound := List.find?_some hword
    rw [hword] at h
    simp only [Option.map_some, Option.getD_some, Kind.lexeme?, Option.some.injEq] at h
    rw [← h]
    exact (beq_iff_eq.mp hfound).symm

/-- A token of a text has the text and the value that its kind asks for. -/
theorem Lexes.isLexed {span rest : List Char} {t : Token} (h : Lexes span rest t) : t.IsLexed where
  spelled := by
    intro text htext
    cases h with
    | word _ _ _ => exact Kind.lexeme?_ofWord htext
    | operator _ => exact Option.some.inj htext
    | _ => simp [Kind.lexeme?] at htext
  carries := h.literal_ne_none
  isNaN_eq := by
    cases h with
    | @real c cs fraction _ _ _ value _ hwhole hfraction _ hvalue =>
      rintro _ ⟨⟩
      simpa [Literal.isNaN] using Numeral.shape_readReal_ne_nan hwhole hfraction hvalue
    | _ => simp [Literal.isNaN]

theorem Token.isLexed_endBehind (text : List Char) : (Token.endBehind text).IsLexed where
  spelled := by simp [Token.IsSpelled, Token.endBehind, Kind.lexeme?]
  carries := by simp [Token.endBehind]
  isNaN_eq := by simp [Token.endBehind]

/-- Whether each of the tokens is read from some characters. -/
def AreRead (ts : List Token) : Prop :=
  ∀ t ∈ ts, ∃ span rest, Lexes span rest t

theorem AreRead.areLexed {ts : List Token} (h : AreRead ts) : AreLexed ts := by
  intro t ht
  rcases h t ht with ⟨span, rest, hlexes⟩
  exact hlexes.isLexed

theorem AreRead.ne_eof {ts : List Token} (h : AreRead ts) : ∀ t ∈ ts, t.kind ≠ .eof := by
  intro t ht
  rcases h t ht with ⟨span, rest, hlexes⟩
  exact hlexes.kind_ne_eof

theorem Covers.areRead {before front rest : List Char} {ts : List Token}
    (h : Covers Lexes before front rest ts) : AreRead ts := by
  induction h with
  | nil _ _ => simp [AreRead]
  | cons _ hlexes _ _ ih => exact List.forall_mem_cons.mpr ⟨⟨_, _, hlexes⟩, ih⟩

/-- The numbers of a text that is divided into tokens carry their values. -/
theorem numbersCarryValues_of_tokenize {source : String} {tokens : List Token}
    (h : tokenize source = .ok tokens) :
    NumbersCarryValues (tokens.takeWhile Cursor.isBeforeEnd) :=
  fun t ht => tokenize_literal h t ((List.takeWhile_prefix _).mem ht)

end ScriptCheck
