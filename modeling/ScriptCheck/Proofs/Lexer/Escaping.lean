import Mathlib.Control.Monad.Basic
import ScriptCheck.Proofs.Lexer.Tiling

/-!
# Escapes

Inside quotes a character may be written as itself or as an escape. `encode` writes any text so that
it may stand between two quotes, and `Decodes` says what a text between quotes denotes, character by
character from the left. Each string token denotes what its text decodes to, and a text that is
encoded is read as the text it was (`tokenize_strings`).
-/

namespace ScriptCheck

open ScriptCheck.Text ScriptCheck.Lexeme

/-! ## Decoding -/

/-- The escapes that have a meaning: the characters behind the backslash, each with the one it
stands for. -/
def knownEscapes : List (Char × Char) :=
  [('n', '\n'), ('t', '\t'), ('r', '\r'), ('\\', '\\'), (doubleQuote, doubleQuote),
    (singleQuote, singleQuote)]

/-- A text between quotes denotes these characters: an escape that has a meaning is the character it
stands for, and everything else, the other escapes included, stands for itself. -/
inductive Decodes : (text decoded : List Char) → Prop where
  | nil : Decodes [] []
  | plain {c : Char} {cs ds : List Char} : c ≠ '\\' → Decodes cs ds → Decodes (c :: cs) (c :: ds)
  | known {c d : Char} {cs ds : List Char} :
      (c, d) ∈ knownEscapes → Decodes cs ds → Decodes ('\\' :: c :: cs) (d :: ds)
  | unknown {c : Char} {cs ds : List Char} :
      (∀ d, (c, d) ∉ knownEscapes) → Decodes cs ds → Decodes ('\\' :: c :: cs) ('\\' :: c :: ds)

variable {c d quote : Char} {cs ds : List Char}

theorem escapeValue?_eq_some_iff : escapeValue? c = some d ↔ (c, d) ∈ knownEscapes := by
  simp only [knownEscapes, List.mem_cons, List.not_mem_nil, or_false, Prod.mk.injEq]
  unfold escapeValue?
  grind [doubleQuote, singleQuote]

theorem unescape_cons_of_ne (h : c ≠ '\\') (cs : List Char) :
    unescape (c :: cs) = c :: unescape cs := by
  rw [unescape]
  · rintro rfl _
    exact h rfl
  · rintro d rest rfl _
    exact h rfl

/-- A text denotes one thing only. -/
theorem Decodes.eq_unescape (h : Decodes cs ds) : ds = unescape cs := by
  induction h with
  | nil => rfl
  | plain hc _ ih => rw [unescape_cons_of_ne hc, ih]
  | known hknown _ ih => rw [unescape, escapeValue?_eq_some_iff.mpr hknown, ih]
  | @unknown c cs ds hunknown _ ih =>
    have hnone : escapeValue? c = none := by
      rw [Option.eq_none_iff_forall_ne_some]
      intro d hd
      exact hunknown d (escapeValue?_eq_some_iff.mp hd)
    rw [unescape, hnone, ih]

/-- What stands between quotes denotes something: no backslash is the last character there. -/
theorem IsBody.decodes (h : IsBody quote cs) : Decodes cs (unescape cs) := by
  induction h with
  | nil => exact .nil
  | @escape c cs _ ih =>
    rw [unescape]
    cases hvalue : escapeValue? c with
    | some d => exact .known (escapeValue?_eq_some_iff.mp hvalue) ih
    | none =>
      refine .unknown ?_ ih
      intro d hd
      rw [escapeValue?_eq_some_iff.mpr hd] at hvalue
      cases hvalue
  | plain hc _ _ ih =>
    rw [unescape_cons_of_ne hc]
    exact .plain hc ih

/-! ## Encoding -/

/-- The letter that stands behind a backslash for a newline, a tab or a carriage return. -/
def escapeLetter? (c : Char) : Option Char :=
  if c = '\n' then some 'n' else if c = '\t' then some 't' else if c = '\r' then some 'r' else none

/-- A character as it is written between quotes. A backslash and the quote are escaped, and a
newline, a tab or a carriage return if it is chosen. -/
def encodeChar (quote : Char) (chosen : Bool) (c : Char) : List Char :=
  if c = '\\' ∨ c = quote then ['\\', c]
  else
    match escapeLetter? c with
    | some letter => if chosen then ['\\', letter] else [c]
    | none => [c]

/-- Characters as they are written between quotes, where those with the chosen indices are escaped
if they may be. -/
def encode (quote : Char) : (cs : List Char) → (chosen : Nat → Bool) → List Char
  | [], _ => []
  | c :: cs, chosen =>
    encodeChar quote (chosen 0) c ++ encode quote cs fun i => chosen (i + 1)

theorem escapeLetter?_mem {letter : Char} (h : escapeLetter? c = some letter) :
    (letter, c) ∈ knownEscapes := by
  unfold escapeLetter? at h
  simp only [knownEscapes, List.mem_cons, Prod.mk.injEq]
  grind

section

variable (hquote : quote = doubleQuote ∨ quote = singleQuote)

include hquote

/-- A character is written as an escape of it, or as itself if it needs none. -/
theorem encodeChar_cases (chosen : Bool) (c : Char) :
    (∃ letter, encodeChar quote chosen c = ['\\', letter] ∧ (letter, c) ∈ knownEscapes) ∨
      encodeChar quote chosen c = [c] ∧ c ≠ '\\' ∧ c ≠ quote := by
  unfold encodeChar
  split
  · next hself =>
    -- A backslash and the quotes stand for themselves behind a backslash.
    refine Or.inl ⟨c, rfl, ?_⟩
    rcases hself with rfl | rfl
    · decide
    · rcases hquote with rfl | rfl <;> decide
  · next hself =>
    rw [not_or] at hself
    cases hletter : escapeLetter? c with
    | none => exact Or.inr ⟨rfl, hself⟩
    | some letter =>
      cases chosen with
      | true => exact Or.inl ⟨letter, rfl, escapeLetter?_mem hletter⟩
      | false => exact Or.inr ⟨rfl, hself⟩

/-- What is encoded may stand between the quotes. -/
theorem isBody_encode (cs : List Char) (chosen : Nat → Bool) :
    IsBody quote (encode quote cs chosen) := by
  induction cs generalizing chosen with
  | nil => exact .nil
  | cons c cs ih =>
    rw [encode]
    rcases encodeChar_cases hquote (chosen 0) c with ⟨letter, heq, -⟩ | ⟨heq, hc, hne⟩
    · rw [heq]
      exact .escape letter (ih _)
    · rw [heq]
      exact .plain hc hne (ih _)

/-- Decoding gives back what was encoded. -/
theorem decodes_encode (cs : List Char) (chosen : Nat → Bool) :
    Decodes (encode quote cs chosen) cs := by
  induction cs generalizing chosen with
  | nil => exact .nil
  | cons c cs ih =>
    rw [encode]
    rcases encodeChar_cases hquote (chosen 0) c with ⟨letter, heq, hknown⟩ | ⟨heq, hc, -⟩
    · rw [heq]
      exact .known hknown (ih _)
    · rw [heq]
      exact .plain hc (ih _)

end

/-! ## String tokens -/

/-- What a string token denotes is what its text decodes to. -/
theorem Lexes.decodes {span rest : List Char} {t : Token} (h : Lexes span rest t)
    (hkind : t.kind = .string) :
    ∃ w, t.literal = some (.text w) ∧ ∀ ds, Decodes t.text.toList ds ↔ ds = w.toList := by
  cases h with
  | @string quote body _ _ _ _ hbody =>
    refine ⟨String.ofList (unescape body), rfl, ?_⟩
    intro ds
    rw [String.toList_ofList, String.toList_ofList]
    constructor
    · intro hds
      exact hds.eq_unescape
    · rintro rfl
      exact hbody.decodes
  | word _ _ _ => exact absurd hkind (Kind.ofWord_ne_string _)
  | _ => simp at hkind

/-- A text that is one token is divided into it and the end of the input. -/
theorem Lexes.tokenize_ofList {word : List Char} {t : Token} (h : Lexes word [] t)
    (hplace : t.StandsBehind []) :
    tokenize (String.ofList word) = .ok [t, .endBehind word] := by
  have hend : Tiles Lexes word [] [.endBehind (word ++ [])] := .finish (.nil [])
  have hall := Tiles.next_at_start h hplace hend
  rw [tokenize_eq_ok_iff, String.toList_ofList]
  simpa only [List.append_nil] using hall

/-- What may stand between quotes is read between them as one string. -/
theorem tokenize_quoted {w : String} (hquote : quote = doubleQuote ∨ quote = singleQuote)
    (hbody : IsBody quote cs) (hdecodes : Decodes cs w.toList) :
    tokenize (String.ofList (quote :: (cs ++ [quote]))) =
      .ok [{ kind := .string, text := String.ofList cs, line := 1, column := 1,
             literal := some (.text w) }, .endBehind (quote :: (cs ++ [quote]))] := by
  have hvalue : w = String.ofList (unescape cs) := by
    rw [← hdecodes.eq_unescape, String.ofList_toList]
  apply Lexes.tokenize_ofList
  · rw [hvalue]
    exact .string hquote hbody
  · exact ⟨rfl, rfl⟩

/-- Strings decode what was encoded. Between quotes, any text that is encoded for them is read as
one string that denotes the text, whichever of its newlines, tabs and carriage returns are escaped.
And each string of any source denotes what its text decodes to, so that two strings of the same text
denote the same, whatever their quotes. -/
theorem tokenize_strings :
    (∀ (quote : Char) (w : String) (chosen : Nat → Bool),
      quote = doubleQuote ∨ quote = singleQuote →
      tokenize (String.ofList (quote :: (encode quote w.toList chosen ++ [quote]))) =
        .ok [{ kind := .string, text := String.ofList (encode quote w.toList chosen), line := 1,
               column := 1, literal := some (.text w) },
          .endBehind (quote :: (encode quote w.toList chosen ++ [quote]))]) ∧
    (∀ source ts, tokenize source = .ok ts → ∀ t ∈ ts, t.kind = .string →
      ∃ w, t.literal = some (.text w) ∧ ∀ ds, Decodes t.text.toList ds ↔ ds = w.toList) ∧
    (∀ source ts source' ts', tokenize source = .ok ts → tokenize source' = .ok ts' →
      ∀ t ∈ ts, ∀ t' ∈ ts', t.kind = .string → t'.kind = .string → t.text = t'.text →
      t.literal = t'.literal) := by
  have hdecodes : ∀ source ts, tokenize source = .ok ts → ∀ t ∈ ts, t.kind = .string →
      ∃ w, t.literal = some (.text w) ∧ ∀ ds, Decodes t.text.toList ds ↔ ds = w.toList := by
    intro source ts h t ht hkind
    rcases exists_lexes_of_tokenize h ht (by simp [hkind]) with ⟨span, rest, hlexes⟩
    exact hlexes.decodes hkind
  refine ⟨?_, hdecodes, ?_⟩
  · intro quote w chosen hquote
    exact tokenize_quoted hquote (isBody_encode hquote w.toList chosen)
      (decodes_encode hquote w.toList chosen)
  · intro source ts source' ts' h h' t ht t' ht' hkind hkind' htext
    -- Both denote what the one text decodes to.
    rcases hdecodes source ts h t ht hkind with ⟨w, hw, hall⟩
    rcases hdecodes source' ts' h' t' ht' hkind' with ⟨w', hw', hall'⟩
    have hsame : w.toList = w'.toList := by
      rw [← hall', ← htext, hall]
    rw [hw, hw', String.toList_inj.mp hsame]

/-- A backslash in front of each quote and at the end, and two ends of lines. -/
def quotedText : String :=
  "\\\x22\n\\'\r\n\\"

/-- The text is read as it was from between single quotes, where one of its newlines is escaped. An
escape without a meaning is kept between both quotes. -/
theorem tokenize_strings_quotedText :
    tokenize "'\\\\\x22\\n\\\\\\'\r\n\\\\'" =
        .ok [{ kind := .string, text := "\\\\\x22\\n\\\\\\'\r\n\\\\", line := 1, column := 1,
               literal := some (.text quotedText) },
          { kind := .eof, text := "", line := 2, column := 4 }] ∧
      ∃ t t' eof eof', tokenize "'\\q\\n'" = .ok [t, eof] ∧
        tokenize " \x22\\q\\n\x22" = .ok [t', eof'] ∧ t.literal = some (.text "\\q\n") ∧
        t.literal = t'.literal := by
  rcases tokenize_strings with ⟨hencoded, hdecoded, hsame⟩
  constructor
  · exact hencoded singleQuote quotedText (fun i => i = 2) (Or.inr rfl)
  · have hread : ∃ t t' eof eof' : Token, t.kind = .string ∧ t'.kind = .string ∧
        t.text = "\\q\\n" ∧ t'.text = t.text ∧ tokenize "'\\q\\n'" = .ok [t, eof] ∧
        tokenize " \x22\\q\\n\x22" = .ok [t', eof'] := by
      refine ⟨{ kind := .string, text := "\\q\\n", line := 1, column := 1,
                literal := some (.text "\\q\n") },
        { kind := .string, text := "\\q\\n", line := 1, column := 2,
          literal := some (.text "\\q\n") },
        { kind := .eof, text := "", line := 1, column := 7 },
        { kind := .eof, text := "", line := 1, column := 8 }, rfl, rfl, rfl, rfl, ?_, ?_⟩
      · decide +kernel
      · decide +kernel
    rcases hread with ⟨t, t', eof, eof', hkind, hkind', htext, htext', hsingle, hdouble⟩
    have hunknown : ∀ d, ('q', d) ∉ knownEscapes := by
      simp [knownEscapes, doubleQuote, singleQuote]
    have hdecodes : Decodes t.text.toList ['\\', 'q', '\n'] := by
      rw [htext]
      exact .unknown hunknown (.known (by decide) .nil)
    refine ⟨t, t', eof, eof', hsingle, hdouble, ?_, ?_⟩
    · rcases hdecoded _ _ hsingle t (by simp) hkind with ⟨w, hw, hall⟩
      have hvalue : w = "\\q\n" := String.toList_inj.mp ((hall _).mp hdecodes).symm
      rw [hw, hvalue]
    · exact hsame _ _ _ _ hsingle hdouble t (by simp) t' (by simp) hkind hkind' htext'.symm

end ScriptCheck
