import Mathlib.Data.List.Forall2
import ScriptCheck.Proofs.Lexer.Tiling
import ScriptCheck.Proofs.Program.Raising
import ScriptCheck.Proofs.Statement.Placed

/-!
# The order of what is found

Errors and statements come in the order of the source (`Session.parse_inOrder`). Each error was
raised further on than the one before it and blames the token there; each statement has the line of
a token behind those of the statement before it. The tokens of a text are on one line after
another, so the lines of diagnostics and of statements never go back.
-/

namespace ScriptCheck

open ScriptCheck.Rule

namespace Cursor

/-- The last of the tokens of a cursor is an end of the input. -/
theorem exists_getLast?_closed (tokens : List Token) :
    ∃ t, (tokens ++ closing tokens).getLast? = some t ∧ t.kind = .eof := by
  unfold closing
  split
  · next hnone =>
    rw [List.getLast?_eq_none_iff.mp hnone]
    exact ⟨_, rfl, rfl⟩
  · next t hlast =>
    split
    · next hkind => exact ⟨t, by rwa [List.append_nil], hkind⟩
    · exact ⟨_, List.getLast?_concat .., rfl⟩

/-- So an end of the input is among them. -/
theorem exists_eof_closing (tokens : List Token) :
    ∃ t ∈ tokens ++ closing tokens, t.kind = .eof := by
  rcases exists_getLast?_closed tokens with ⟨t, hlast, hkind⟩
  exact ⟨t, List.mem_of_getLast? hlast, hkind⟩

/-- The tokens of a cursor are those it was made of, closed by an end of the input. -/
theorem tokens_ofTokens (tokens : List Token) :
    (ofTokens tokens).tokens = tokens ++ closing tokens := by
  have hsplit := List.takeWhile_append_dropWhile (p := isBeforeEnd) (l := tokens ++ closing tokens)
  unfold ofTokens
  split
  · next hnil =>
    -- All tokens would come before an end of the input.
    rcases exists_eof_closing tokens with ⟨t, ht, hkind⟩
    rw [hnil, List.append_nil] at hsplit
    rw [← hsplit] at ht
    exact absurd hkind (ne_eof_of_mem_takeWhile ht)
  · next u rest hrest =>
    rw [hrest] at hsplit
    exact hsplit

/-- Nothing has to close tokens that end with the end of the input. -/
theorem closing_of_eof {front : List Token} {t : Token} (ht : t.kind = .eof) :
    closing (front ++ [t]) = [] := by
  simp [closing, ht]

end Cursor

/-- A text is divided into tokens that are closed by themselves. -/
theorem tokens_of_tokenize {source : String} {tokens : List Token}
    (h : tokenize source = .ok tokens) : (Cursor.ofTokens tokens).tokens = tokens := by
  rcases (tokenize_eq_ok_iff.mp h).exists_end with ⟨front, rfl, -⟩
  rw [Cursor.tokens_ofTokens, Cursor.closing_of_eof rfl, List.append_nil]

/-- Errors that blame tokens further and further on are on one line after another, if the tokens
are. -/
theorem pairwise_line_of_blamesToken {tokens : List Token} {es : List SyntaxError}
    {indices : List Nat} (hlines : tokens.Pairwise fun t u => t.line ≤ u.line)
    (hblames : List.Forall₂ (fun e index => e.BlamesToken tokens index) es indices)
    (hincreasing : indices.Pairwise (· < ·)) : es.Pairwise fun e f => e.line ≤ f.line := by
  induction hblames with
  | nil => exact .nil
  | @cons e index es indices he hes ih =>
    rw [List.pairwise_cons] at hincreasing
    refine List.pairwise_cons.mpr ⟨?_, ih hincreasing.2⟩
    intro f hf
    rcases List.mem_iff_getElem.mp hf with ⟨k, hk, rfl⟩
    have hk' : k < indices.length := by rwa [← hes.length_eq]
    rcases he with ⟨t, ht, -, hline, -⟩
    rcases List.forall₂_iff_get.mp hes |>.2 k hk hk' with ⟨u, hu, -, hline', -⟩
    have hlt := hincreasing.1 _ (List.getElem_mem hk')
    rcases List.getElem?_eq_some_iff.mp ht with ⟨hi, rfl⟩
    rcases List.getElem?_eq_some_iff.mp hu with ⟨hj, rfl⟩
    have hle := List.pairwise_iff_getElem.mp hlines _ _ hi hj hlt
    rw [hline]
    exact Int.le_trans hle (Int.le_of_eq hline'.symm)

namespace Session

variable {tokens : List Token} {s : Session} {read : Array Node}

/-! ## Errors -/

section

variable [Stack]

/-- Each error that is raised blames the token with its index. -/
theorem Raised.blamesToken {es : List SyntaxError} {indices : List Nat}
    (h : Raised tokens es indices) :
    List.Forall₂ (fun e index => e.BlamesToken (Cursor.ofTokens tokens).tokens index) es
      indices := by
  induction h with
  | none => exact .nil
  | more _ hraised ih => exact List.rel_append ih (.cons hraised.blamesToken .nil)

/-! ## Statements -/

/-- The statements that have been read have the lines of some of the tokens in front, in order. -/
theorem Visits.exists_marks (h : (ofTokens tokens false).Visits read s) :
    ∃ marks : List Token, marks.Sublist s.cursor.behind.reverse ∧
      marks.map (·.line) = read.toList.map (·.line) := by
  induction h with
  | start => exact ⟨[], List.nil_sublist _, rfl⟩
  | @turn read s s' turn hvisits hend hstep hgo ih =>
    rcases ih with ⟨marks, hmarks, hlines⟩
    have hturn := advances_of_step hvisits.between_and_reaches.1 hstep hgo
    rcases hturn.reaches.suffix with ⟨w, hw⟩
    have hbehind := hturn.reaches.behind_eq hw.symm
    have hfront : marks.Sublist s'.cursor.behind.reverse := by
      rw [hbehind]
      exact hmarks.trans (List.sublist_append_left _ w)
    cases hturn with
    | settled _ _ _ => exact ⟨marks, hfront, hlines⟩
    | recovered _ _ _ _ _ _ => exact ⟨marks, hfront, hlines⟩
    | @accepted n d₀ d _ hrun hd hreaches =>
      -- The statement has the line of a token that this turn has passed.
      rcases Grammar.ofLevel_done Nesting.limit .declaration _ _ _ hrun with ⟨need, -, hforms⟩
      have hwithin := hforms.lineWithin.extend (dropBlank_suffix d₀.ahead)
      rw [← hd] at hwithin
      rcases hwithin with ⟨w', hw', t, ht, hline⟩
      refine ⟨marks ++ [t], ?_, ?_⟩
      · rw [hreaches.behind_eq hw']
        exact hmarks.append (List.singleton_sublist.mpr ht)
      · simp [Turn.gather, hlines, hline]

/-- Where the tokens are on one line after another, the statements that have been read are, too. -/
theorem Visits.pairwise_line (h : (ofTokens tokens false).Visits read s)
    (hlines : tokens.Pairwise fun t u => t.line ≤ u.line) :
    read.toList.Pairwise fun n m => n.line ≤ m.line := by
  rcases h.exists_marks with ⟨marks, hmarks, hsame⟩
  have hordered := hlines.sublist (hmarks.trans h.behind_sublist)
  rw [← List.pairwise_map (f := Node.line) (R := (· ≤ ·)), ← hsame, List.pairwise_map]
  exact hordered

/-! ## Whole parses -/

/-- What is found comes in the order of the source, and no token is blamed twice. Whatever the
tokens, the errors that a parse reports were raised further and further on, each of them blames the
token where it was raised, and the end of the input is blamed once at most. If the tokens are those
of a text, a program comes out, and neither the lines of the diagnostics nor those of the statements
ever go back. -/
theorem parse_inOrder (tokens : List Token) :
    (∃ indices, Raised tokens (ofTokens tokens false).parse.2.reporter.errors.toList indices ∧
      indices.Pairwise (· < ·) ∧
      List.Forall₂ (fun e index => e.BlamesToken (Cursor.ofTokens tokens).tokens index)
        (ofTokens tokens false).parse.2.reporter.errors.toList indices) ∧
    (ofTokens tokens false).parse.2.reporter.errors.toList.countP (·.isAtEnd) ≤ 1 ∧
    ∀ source, tokenize source = .ok tokens →
      ∃ ns, (ofTokens tokens false).parse.1 = .ok (.program 1 ns) ∧
        (ns.Pairwise fun n m => n.line ≤ m.line) ∧
        (ofTokens tokens false).parse.2.reporter.diagnostics.Pairwise
          fun d d' => d.line ≤ d'.line := by
  rcases exists_raised tokens with ⟨indices, hraised, hincreasing, hatEnd⟩
  refine ⟨⟨indices, hraised, hincreasing, hraised.blamesToken⟩, hatEnd, ?_⟩
  intro source htokens
  have hlines := tokenize_pairwise_line htokens
  have hnumbers : NumbersCarryValues (tokens.takeWhile Cursor.isBeforeEnd) := by
    intro t ht
    exact tokenize_literal htokens t ((List.takeWhile_prefix _).mem ht)
  rcases Visits.exists_end hnumbers .start with ⟨read, s, hvisits, hend⟩
  have hnil : s.cursor.ahead = [] := by simpa [Cursor.atEnd] using hend
  have hresult := hvisits.parse_eq
  rw [parseAfter_of_end hnil] at hresult
  refine ⟨read.toList, by rw [hresult], hvisits.pairwise_line hlines, ?_⟩
  have hblames := hraised.blamesToken
  rw [tokens_of_tokenize htokens] at hblames
  rw [Reporter.diagnostics, List.pairwise_map]
  exact pairwise_line_of_blamesToken hlines hblames hincreasing

end

/-- A text with strings over two lines, and an error behind the first of them and at the end. -/
def scatteredText : String :=
  "print 'a\nb' )\nx = 'c\nd' + y\nprint ("

/-- The one error is on the second line of the string, and the other on the last line. -/
theorem parse_inOrder_scatteredText :
    ∃ tokens ns, tokenize scatteredText = .ok tokens ∧
      (ofTokens tokens false).parse.1 = .ok (.program 1 ns) ∧
      (ns.Pairwise fun n m => n.line ≤ m.line) ∧
      (ofTokens tokens false).parse.2.reporter.diagnostics.map (·.line) = [2, 5] ∧
      (ofTokens tokens false).parse.2.reporter.diagnostics.Pairwise
        fun d d' => d.line ≤ d'.line := by
  have hlines : (tokenize scatteredText).toOption.map (fun tokens =>
      (ofTokens tokens false).parse.2.reporter.diagnostics.map (·.line)) = some [2, 5] := by
    decide +kernel
  cases h : tokenize scatteredText with
  | error fault =>
    rw [h] at hlines
    cases hlines
  | ok tokens =>
    rw [h] at hlines
    rcases (parse_inOrder tokens).2.2 scatteredText h with ⟨ns, hresult, hstatements, hdiagnostics⟩
    exact ⟨tokens, ns, rfl, hresult, hstatements, Option.some.inj hlines, hdiagnostics⟩

end Session

end ScriptCheck
