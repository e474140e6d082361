import ScriptCheck.Proofs.Lexer.Reading

/-!
# Tokens tile a text

A text that is divided into tokens is covered by them: the characters of each token stand where the
token says, and between them are blanks and comments only. `Tiles` is such a cover. Reading a text
gives the tokens of one, and there is no other (`tokenize_eq_ok_iff`), so nothing is lost and no
token could have taken more (`tokenize_tiles`).
-/

namespace ScriptCheck

open ScriptCheck.Text ScriptCheck.Lexeme

/-- The tokens cover the characters `ahead`, which come behind `before`: a gap, the characters of
the first token, and so on, up to the end of the input behind a last gap. What the characters of a
token have to be, and what may come behind them, is said by `P`. -/
inductive Tiles (P : (span rest : List Char) → Token → Prop) :
    (before ahead : List Char) → List Token → Prop where
  | finish {before gap : List Char} :
      Gap gap [] → Tiles P before gap [.endBehind (before ++ gap)]
  | next {before gap span rest : List Char} {t : Token} {ts : List Token} :
      Gap gap (span ++ rest) → P span rest t → t.StandsBehind (before ++ gap) →
      Tiles P (before ++ gap ++ span) rest ts → Tiles P before (gap ++ (span ++ rest)) (t :: ts)

namespace Tiles

variable {P Q : List Char → List Char → Token → Prop} {before ahead : List Char} {ts : List Token}

theorem mono (himp : ∀ span rest t, P span rest t → Q span rest t) (h : Tiles P before ahead ts) :
    Tiles Q before ahead ts := by
  induction h with
  | finish hgap => exact .finish hgap
  | next hgap ht hplace _ ih => exact .next hgap (himp _ _ _ ht) hplace ih

/-- The first token may stand where the text starts. -/
theorem next_at_start {span rest : List Char} {t : Token} (ht : P span rest t)
    (hplace : t.StandsBehind before) (h : Tiles P (before ++ span) rest ts) :
    Tiles P before (span ++ rest) (t :: ts) := by
  rw [← List.append_nil before] at hplace h
  exact .next (.nil _) ht hplace h

/-- The last token is the end of the input, at the end of the text. -/
theorem exists_end (h : Tiles P before ahead ts) :
    ∃ front, ts = front ++ [.endBehind (before ++ ahead)] ∧
      ∀ t ∈ front, ∃ span rest, P span rest t := by
  induction h with
  | finish _ => exact ⟨[], rfl, by simp⟩
  | @next before gap span rest t ts _ ht _ _ ih =>
    rcases ih with ⟨front, rfl, hfront⟩
    refine ⟨t :: front, by simp, ?_⟩
    intro u hu
    rcases List.mem_cons.mp hu with rfl | hu
    · exact ⟨span, rest, ht⟩
    · exact hfront u hu

/-- No token is on a line above the one where the cover starts. -/
theorem line_le (h : Tiles P before ahead ts) : ∀ t ∈ ts, lineAfter before ≤ t.line := by
  induction h with
  | @finish before gap _ =>
    intro t ht
    rw [List.mem_singleton.mp ht]
    exact lineAfter_le_append before gap
  | @next before gap span rest t ts _ _ hplace _ ih =>
    intro u hu
    rcases List.mem_cons.mp hu with rfl | hu
    · rw [hplace.1]
      exact lineAfter_le_append before gap
    · refine Int.le_trans ?_ (ih u hu)
      rw [List.append_assoc]
      exact lineAfter_le_append before (gap ++ span)

/-- The lines of tokens that cover a text never go back. -/
theorem pairwise_line (h : Tiles P before ahead ts) : ts.Pairwise fun t u => t.line ≤ u.line := by
  induction h with
  | finish _ => exact List.pairwise_singleton _ _
  | @next before gap span rest t ts _ _ hplace htiles ih =>
    refine List.pairwise_cons.mpr ⟨?_, ih⟩
    intro u hu
    rw [hplace.1]
    exact Int.le_trans (lineAfter_le_append _ span) (htiles.line_le u hu)

end Tiles

/-! ## Reading a text -/

namespace Stream

variable {s s' : Stream} {before : List Char} {read : Array Token} {ts : List Token}

theorem tokensAfter_of_end {t : Token} (hread : s.nextToken = (.ok t, s')) (hkind : t.kind = .eof)
    (read : Array Token) : s.tokensAfter read = (.ok (read.push t).toList, s') := by
  rw [tokensAfter]
  split
  · next hread' =>
    rw [hread] at hread'
    cases hread'
  · next hread' =>
    rw [hread] at hread'
    cases hread'
    rw [if_pos hkind]

theorem tokensAfter_of_token {t : Token} (hread : s.nextToken = (.ok t, s')) (hkind : t.kind ≠ .eof)
    (read : Array Token) : s.tokensAfter read = s'.tokensAfter (read.push t) := by
  rw [tokensAfter]
  split
  · next hread' =>
    rw [hread] at hread'
    cases hread'
  · next hread' =>
    rw [hread] at hread'
    cases hread'
    rw [if_neg hkind]

/-- What is read from a place on covers what is ahead. -/
theorem tokensAfter_tiles (hs : s.Behind before) (h : s.tokensAfter read = (.ok ts, s')) :
    ∃ ts', ts = read.toList ++ ts' ∧ Tiles Lexes before s.ahead ts' := by
  fun_induction tokensAfter read s generalizing before with
  | case1 read s fault s'' hread => cases h
  | case2 read s t s'' hread hkind =>
    cases h
    rcases nextToken_cases hs hread with ⟨hgap, rfl⟩ | ⟨gap, span, rest, -, -, hlexes, -⟩
    · exact ⟨_, by simp, .finish hgap⟩
    · exact absurd hkind hlexes.kind_ne_eof
  | case3 read s t s'' hread hkind ih =>
    rcases nextToken_cases hs hread
      with ⟨-, rfl⟩ | ⟨gap, span, rest, hsplit, hgap, hlexes, hplace, hrest, hbehind⟩
    · exact absurd rfl hkind
    · rcases ih hbehind h with ⟨ts', rfl, htiles⟩
      rw [hrest] at htiles
      refine ⟨t :: ts', by simp, ?_⟩
      rw [hsplit]
      exact .next hgap hlexes hplace htiles

/-- Tokens that cover what is ahead are read from it. -/
theorem tokensAfter_of_tiles {ahead : List Char} (h : Tiles Lexes before ahead ts)
    (hs : s.Behind before) (hahead : s.ahead = ahead) (read : Array Token) :
    ∃ s', s.tokensAfter read = (.ok (read.toList ++ ts), s') := by
  induction h generalizing s read with
  | finish hgap =>
    subst hahead
    refine ⟨s.skip s.ahead.length, ?_⟩
    rw [tokensAfter_of_end (nextToken_of_end hs hgap) rfl, Array.toList_push]
  | @next before gap span rest t ts hgap hlexes hplace _ ih =>
    rcases nextToken_of_lexes hs hahead hgap hlexes hplace with ⟨s', hread, hrest, hbehind⟩
    rcases ih hbehind hrest (read.push t) with ⟨s'', hall⟩
    exact ⟨s'', by rw [tokensAfter_of_token hread hlexes.kind_ne_eof, hall]; simp⟩

end Stream

/-- A text is divided into the tokens that cover it, and into no others. -/
theorem tokenize_eq_ok_iff {source : String} {ts : List Token} :
    tokenize source = .ok ts ↔ Tiles Lexes [] source.toList ts := by
  have hbehind := Stream.behind_ofText source
  constructor
  · intro h
    unfold tokenize Stream.tokens at h
    cases hall : (Stream.ofText source).tokensAfter #[] with
    | mk result s' =>
      rw [hall] at h
      dsimp only at h
      subst h
      rcases Stream.tokensAfter_tiles hbehind hall with ⟨ts', rfl, htiles⟩
      exact htiles
  · intro h
    rcases Stream.tokensAfter_of_tiles h hbehind rfl #[] with ⟨s', hall⟩
    unfold tokenize Stream.tokens
    rw [hall]
    rfl

/-- The tokens of a text are on one line after another. -/
theorem tokenize_pairwise_line {source : String} {ts : List Token} (h : tokenize source = .ok ts) :
    ts.Pairwise fun t u => t.line ≤ u.line :=
  (tokenize_eq_ok_iff.mp h).pairwise_line

/-- A token of a text is made of some of its characters, unless it is the end of the input. -/
theorem exists_lexes_of_tokenize {source : String} {ts : List Token} (h : tokenize source = .ok ts)
    {t : Token} (ht : t ∈ ts) (hkind : t.kind ≠ .eof) : ∃ span rest, Lexes span rest t := by
  rcases (tokenize_eq_ok_iff.mp h).exists_end with ⟨front, rfl, hfront⟩
  rcases List.mem_append.mp ht with ht | ht
  · exact hfront t ht
  · rw [List.mem_singleton.mp ht] at hkind
    exact absurd rfl hkind

/-- A number in a text has a value. -/
theorem tokenize_literal {source : String} {ts : List Token} (h : tokenize source = .ok ts) :
    ∀ t ∈ ts, t.kind = .number → t.literal ≠ none := by
  intro t ht hkind
  rcases exists_lexes_of_tokenize h ht (by simp [hkind]) with ⟨span, rest, hlexes⟩
  exact hlexes.literal_ne_none hkind

/-! ## What covers a text -/

/-- Whether a token may be written with these characters: a string between quotes that do not occur
in it by themselves, and every other token as its text. -/
def Token.IsWrittenAs (t : Token) (word : List Char) : Prop :=
  if t.kind = .string then
    ∃ quote, (quote = doubleQuote ∨ quote = singleQuote) ∧ quote ∉ unescaped t.text.toList ∧
      word = quote :: (t.text.toList ++ [quote])
  else word = t.text.toList

/-- What is said of the characters of a token and of those behind them: there are some, the token is
written with them, and it takes as many as it can. -/
structure IsTile (span rest : List Char) (t : Token) : Prop where
  kind_ne_eof : t.kind ≠ .eof
  span_ne_nil : span ≠ []
  isWrittenAs : t.IsWrittenAs span
  /-- No word goes on behind a name or a reserved word. -/
  word_ends : t.kind = .ident ∨ (∃ w, t.kind = .keyword w) →
    ∀ c ∈ rest.head?, isWordPart c = false
  number_ends : t.kind = .number → ∀ c ∈ rest.head?, isDigit c = false ∧ c ≠ '.'
  /-- No longer operator stands in the place of one. -/
  operator_ends : ∀ op, t.kind = .operator op → ∀ op' : Operator,
    op'.symbol.toList <+: span ++ rest → op'.symbol.length ≤ op.symbol.length

theorem Token.isWrittenAs_of_kind_ne {t : Token} (h : t.kind ≠ .string) {word : List Char} :
    t.IsWrittenAs word ↔ word = t.text.toList := by
  unfold Token.IsWrittenAs
  rw [if_neg h]

theorem Kind.ofWord_ne_string (text : String) : Kind.ofWord text ≠ .string :=
  Kind.ofWord_ne (by simp) (by simp) text

/-- The characters that a token is made of are a way to write it. -/
theorem Lexes.isWrittenAs {span rest : List Char} {t : Token} (h : Lexes span rest t) :
    t.IsWrittenAs span := by
  cases h with
  | @string quote body _ _ _ hquote hbody =>
    unfold Token.IsWrittenAs
    rw [if_pos rfl, String.toList_ofList]
    exact ⟨quote, hquote, hbody.not_mem_unescaped, rfl⟩
  | word _ _ _ =>
    rw [Token.isWrittenAs_of_kind_ne (Kind.ofWord_ne_string _), String.toList_ofList]
  | eol => exact (Token.isWrittenAs_of_kind_ne (by simp)).mpr (by simp)
  | operator _ => exact (Token.isWrittenAs_of_kind_ne (by simp)).mpr rfl
  | error _ _ => exact (Token.isWrittenAs_of_kind_ne (by simp)).mpr (by simp)
  | _ => exact (Token.isWrittenAs_of_kind_ne (by simp)).mpr (by rw [String.toList_ofList])

theorem Lexes.span_ne_nil {span rest : List Char} {t : Token} (h : Lexes span rest t) :
    span ≠ [] := by
  cases h with
  | @operator op _ _ _ _ =>
    rcases op.exists_mark with ⟨c, cs, hsymbol, -⟩
    simp [hsymbol]
  | _ => simp

/-- What behind the characters of a word, a number or an operator would be part of it is not
there. -/
theorem Lexes.isTile {span rest : List Char} {t : Token} (h : Lexes span rest t) :
    IsTile span rest t where
  kind_ne_eof := h.kind_ne_eof
  span_ne_nil := h.span_ne_nil
  isWrittenAs := h.isWrittenAs
  word_ends := by
    intro hkind
    cases h with
    | word _ _ hrest => exact hrest
    | _ => simp at hkind
  number_ends := by
    intro hkind
    have hends : NotNext continuesNumber rest := by
      cases h with
      | integer _ _ hrest _ => exact hrest
      | real _ _ _ hrest _ => exact hrest
      | word _ _ _ => exact absurd hkind (Kind.ofWord_ne (by simp) (by simp) _)
      | _ => simp at hkind
    intro c hc
    simpa [continuesNumber] using hends c hc
  operator_ends := by
    intro op hkind op' hstarts
    cases h with
    | operator hlongest =>
      obtain rfl := Kind.operator.inj hkind
      exact hlongest op' hstarts
    | word _ _ _ => exact absurd hkind (Kind.ofWord_ne (by simp) (by simp) _)
    | _ => simp at hkind

/-- Dividing a text loses nothing. The tokens cover the text: each is written where it says it
stands, as long as it can be, and only blanks and comments are in between. The end of the input
comes once, behind the whole text. -/
theorem tokenize_tiles {source : String} {ts : List Token} (h : tokenize source = .ok ts) :
    Tiles IsTile [] source.toList ts ∧
      ∃ front, ts = front ++ [.endBehind source.toList] ∧ ∀ t ∈ front, t.kind ≠ .eof := by
  have htiles := (tokenize_eq_ok_iff.mp h).mono fun _ _ _ ht => ht.isTile
  refine ⟨htiles, ?_⟩
  rcases htiles.exists_end with ⟨front, hts, hfront⟩
  refine ⟨front, hts, ?_⟩
  intro t ht
  rcases hfront t ht with ⟨span, rest, htile⟩
  exact htile.kind_ne_eof

/-- A string over two lines that holds an escaped quote and a sign of comment, a number, operators
that another character could make longer, and comments. -/
def mixedText : String :=
  "s = '\\'\n#' # one\n\t12.5??x1 **\u00e9 # two"

/-- The tokens of the text cover it. -/
theorem tokenize_tiles_mixedText :
    ∃ ts, tokenize mixedText = .ok ts ∧
      ts.map (·.kind) = [.ident, .operator .assign, .string, .eol, .number, .operator .coalesce,
        .ident, .operator .pow, .ident, .eof] ∧ Tiles IsTile [] mixedText.toList ts := by
  have hkinds : (tokenize mixedText).toOption.map (·.map (·.kind)) =
      some [.ident, .operator .assign, .string, .eol, .number, .operator .coalesce, .ident,
        .operator .pow, .ident, .eof] := by
    decide +kernel
  cases h : tokenize mixedText with
  | error fault =>
    rw [h] at hkinds
    cases hkinds
  | ok ts =>
    rw [h] at hkinds
    exact ⟨ts, rfl, Option.some.inj hkinds, (tokenize_tiles h).1⟩

end ScriptCheck
