import ScriptCheck.Proofs.Lexer.Lowering
import ScriptCheck.Proofs.Program.FailFast
import ScriptCheck.Proofs.Program.Lexed
import ScriptCheck.Proofs.Program.Mirroring

/-!
# Lines without tokens

A line that holds nothing but blanks and a comment may be put in front of any other line. It adds an
end of line to the tokens of the text, behind another one or at the start, and the rest of the text
is read as before. So a parse goes as it did without the line (`Session.parse_blankLine`).
-/

namespace ScriptCheck

/-! ## Tokens on other lines -/

/-- Lines that need not have anything to do with each other. -/
def AnyLines (_ _ : Int) : Prop :=
  True

theorem Token.IsLexed.like_lowered {t : Token} (h : t.IsLexed) (k : Int) :
    t.Like AnyLines (t.lowered k) where
  kind_eq := rfl
  text_eq := rfl
  literal_eq := rfl
  line := trivial
  carries := h.carries
  agrees_self v hv := Literal.agrees_self (h.isNaN_eq v hv)

theorem Token.IsLexed.like {t : Token} (h : t.IsLexed) : t.Like AnyLines t := by
  simpa [Token.lowered] using h.like_lowered 0

theorem AreLexed.abreast_lowered {ts : List Token} (h : AreLexed ts) (k : Int) :
    Abreast AnyLines ts (ts.map (Token.lowered k)) := by
  induction ts with
  | nil => exact .nil
  | cons t ts ih =>
    rcases List.forall_mem_cons.mp h with ⟨ht, hts⟩
    exact .cons (ht.like_lowered k) (ih hts)

/-- Tokens that are there in both sequences come before those that go alike. -/
theorem AreLexed.abreast_append {ts as bs : List Token} (h : AreLexed ts)
    (habreast : Abreast AnyLines as bs) : Abreast AnyLines (ts ++ as) (ts ++ bs) := by
  induction ts with
  | nil => exact habreast
  | cons t ts ih =>
    rcases List.forall_mem_cons.mp h with ⟨ht, hts⟩
    exact .cons ht.like (ih hts)

/-! ## Blank lines -/

/-- Whether a line holds no token: spaces and tabs, perhaps a comment, and its end. -/
def IsBlankLine (line : List Char) : Prop :=
  ∃ run comment, line = run ++ (comment ++ ['\n']) ∧ IsRun run ∧
    (comment = [] ∨ ∃ body, comment = '#' :: body ∧ ∀ c ∈ body, c ≠ '\n')

/-- Whether a line of the text starts in front of `rest`: at the start of the text, or behind a
newline that is read as an end of line. -/
def IsLineStart (front rest : List Char) : Prop :=
  front = [] ∨ ∃ ts t, t.kind = .eol ∧ Covers Lexes [] front rest (ts ++ [t])

/-- A line starts behind a newline that is put behind a whole text. -/
theorem IsLineStart.of_tokenize {source : String} {tokens : List Token}
    (h : tokenize source = .ok tokens) (rest : List Char) :
    IsLineStart (source ++ "\n").toList rest := by
  rcases (tokenize_eq_ok_iff.mp h).covers_newline rest with ⟨us, -, hcovers⟩
  rw [String.toList_append]
  exact Or.inr ⟨us, _, rfl, hcovers⟩

/-- A blank line is covered by its end alone. -/
theorem IsBlankLine.covers {line : List Char} (h : IsBlankLine line) (before rest : List Char) :
    ∃ t, t.kind = .eol ∧ Covers Lexes before line rest [t] := by
  rcases h with ⟨run, comment, rfl, hrun, hcomment⟩
  have hgap : Gap comment ('\n' :: rest) := by
    rcases hcomment with rfl | ⟨body, rfl, hbody⟩
    · exact .nil _
    · simpa using Gap.comment hbody (by simp) (.nil ('\n' :: rest))
  refine ⟨.eolBehind (before ++ (run ++ comment)), rfl, ?_⟩
  rw [← List.append_assoc]
  have hlexes : Lexes ['\n'] ([] ++ rest) (.eolBehind (before ++ (run ++ comment))) := .eol
  exact .cons (.isRun_append hrun hgap) hlexes ⟨rfl, rfl⟩ (.nil _ _)

/-- Where a line starts, the column is the first one. -/
theorem IsLineStart.columnAfter_eq {front rest : List Char} (h : IsLineStart front rest) :
    columnAfter front = 1 := by
  rcases h with rfl | ⟨ts, t, hkind, hcovers⟩
  · rfl
  · rcases hcovers.exists_newline hkind with ⟨w, rfl⟩
    rw [columnAfter_append_singleton, if_pos rfl]

/-- A blank line is one line. -/
theorem IsBlankLine.lowers {front line rest : List Char} (h : IsBlankLine line)
    (hstart : IsLineStart front rest) : Lowers 1 front (front ++ line) := by
  rcases h with ⟨run, comment, rfl, hrun, hcomment⟩
  have hno : '\n' ∉ run ++ comment := by
    intro hmem
    rcases List.mem_append.mp hmem with hmem | hmem
    · exact absurd (hrun _ hmem) (by decide)
    · rcases hcomment with rfl | ⟨body, rfl, hbody⟩
      · cases hmem
      · rcases List.mem_cons.mp hmem with heq | hmem
        · exact absurd heq (by decide)
        · exact hbody _ hmem rfl
  have hline : lineAfter (front ++ (run ++ comment)) = lineAfter front := by
    simp [lineAfter, List.count_append, List.count_eq_zero_of_not_mem hno]
  have hsplit : front ++ (run ++ (comment ++ ['\n'])) = front ++ (run ++ comment) ++ ['\n'] := by
    simp
  constructor
  · rw [hsplit, lineAfter_append_singleton, if_pos rfl, hline]
  · rw [hsplit, columnAfter_append_singleton, if_pos rfl, hstart.columnAfter_eq]

/-- A blank line adds an end of line to the tokens of the text, at the start or behind another one.
Those behind it are on the next lines. -/
theorem tokenize_blankLine {front line rest : String}
    (hstart : IsLineStart front.toList rest.toList) (hline : IsBlankLine line.toList) :
    (∃ fault, tokenize (front ++ rest) = .error fault ∧
        tokenize (front ++ line ++ rest) = .error (fault.lowered 1)) ∨
      ∃ us ts e, tokenize (front ++ rest) = .ok (us ++ ts) ∧
        tokenize (front ++ line ++ rest) = .ok (us ++ e :: ts.map (Token.lowered 1)) ∧
        (∀ t ∈ us.getLast?, t.kind = .eol) ∧ e.kind = .eol ∧
        Covers Lexes [] front.toList rest.toList us ∧ Tiles Lexes front.toList rest.toList ts := by
  have hlowers := hline.lowers hstart
  rcases hline.covers front.toList rest.toList with ⟨e, he, hcovers⟩
  -- In front of the line are the same tokens with and without it.
  have hfront : ∃ us, (∀ t ∈ us.getLast?, t.kind = .eol) ∧
      ∀ behind, Covers Lexes [] front.toList behind us := by
    rcases hstart with hnil | ⟨ts, t, hkind, hcovers⟩
    · rw [hnil]
      exact ⟨[], by simp, fun behind => .nil [] behind⟩
    · exact ⟨ts ++ [t], by simpa using hkind, hcovers.change_rest hkind⟩
  rcases hfront with ⟨us, hlast, hfront⟩
  have hsplit' : (front ++ line ++ rest).toList = front.toList ++ line.toList ++ rest.toList := by
    rw [String.toList_append, String.toList_append]
  rcases tokenize_lowers String.toList_append (hfront _) hsplit' ((hfront _).append hcovers) hlowers
    with ⟨ts, hok, hok', htiles⟩ | hfails
  · refine Or.inr ⟨us, ts, e, hok, ?_, hlast, he, hfront _, htiles⟩
    rw [hok', List.append_assoc, List.singleton_append]
  · exact Or.inl hfails

/-! ## Parses -/

/-- What an error says, its place aside. -/
def SyntaxError.content (e : SyntaxError) : Category × String × Option Kind × Option String :=
  (e.category, e.message, e.expected, e.found)

theorem SyntaxError.map_content_eq {L : Int → Int → Prop} {es es' : List SyntaxError}
    (h : List.Forall₂ (SyntaxError.Like L) es es') :
    es'.map SyntaxError.content = es.map SyntaxError.content := by
  induction h with
  | nil => rfl
  | cons he _ ih =>
    rw [List.map_cons, List.map_cons, ih, content, content, he.category_eq, he.message_eq,
      he.expected_eq, he.found_eq]

/-- An end of line more at the start, or behind another one, is passed over with it. -/
theorem AreLexed.trails_append {us ts : List Token} {e : Token} (hus : AreLexed us)
    (hlast : ∀ t ∈ us.getLast?, t.kind = .eol) (he : e.kind = .eol) (hts : AreLexed ts) (k : Int) :
    Trails AnyLines (us ++ ts) (us ++ e :: ts.map (Token.lowered k)) := by
  have habreast := hts.abreast_lowered k
  rcases List.eq_nil_or_concat us with rfl | ⟨vs, t, rfl⟩
  · exact .behind he habreast
  · rw [List.concat_eq_append] at hus hlast ⊢
    rcases List.forall_mem_append.mp hus with ⟨hvs, ht⟩
    have hkind : t.kind = .eol := hlast t (by simp)
    have hagain : Abreast AnyLines ([t] ++ ts) ([t] ++ e :: ts.map (Token.lowered k)) :=
      .again (ht t (by simp)).like hkind he habreast
    simpa using Trails.abreast (AreLexed.abreast_append hvs hagain)

namespace Session

/-- Where numbers carry their values, parses that go alike come to the same program up to lines. -/
theorem parse_sameUpToLines [Stack] {tokens tokens' : List Token}
    (hnumbers : NumbersCarryValues (tokens.takeWhile Cursor.isBeforeEnd))
    (htrails : (Cursor.ofTokens tokens).Trails AnyLines (Cursor.ofTokens tokens')) :
    ∃ ns ns' s s', (ofTokens tokens false).parse = (.ok (.program 1 ns), s) ∧
      (ofTokens tokens' false).parse = (.ok (.program 1 ns'), s') ∧
      Node.SameUpToLines (.program 1 ns) (.program 1 ns') ∧
      s.Like AnyLines (Cursor.Abreast AnyLines) s' := by
  rcases exists_parse hnumbers with ⟨ns, s, hparse, -⟩
  have hread := (like_ofTokens htrails false).parse Node.Congruence.upToLines
  rw [hparse] at hread
  generalize (ofTokens tokens' false).parse = outcome at hread ⊢
  cases hread with
  | @ok _ _ _ s' hn hlike =>
    rcases hn with ⟨_, ns', ⟨⟩, rfl, hns⟩
    exact ⟨ns, ns', s, s', hparse, rfl, Node.sameUpToLines_program hns, hlike⟩

/-- A blank line is neutral. Put in front of any line of a text, it changes nothing but the numbers
of the lines behind it: a text that is not divided into tokens fails in the same way, and otherwise
a parse that recovers comes to an equal program, reports the same errors and owes as many `end`s. -/
theorem parse_blankLine [Stack] {front line rest : String}
    (hstart : IsLineStart front.toList rest.toList) (hline : IsBlankLine line.toList) :
    (∃ fault, tokenize (front ++ rest) = .error fault ∧
        tokenize (front ++ line ++ rest) = .error (fault.lowered 1)) ∨
      ∃ tokens tokens' ns ns' s s', tokenize (front ++ rest) = .ok tokens ∧
        tokenize (front ++ line ++ rest) = .ok tokens' ∧
        (ofTokens tokens false).parse = (.ok (.program 1 ns), s) ∧
        (ofTokens tokens' false).parse = (.ok (.program 1 ns'), s') ∧
        (Node.program 1 ns').agrees (.program 1 ns) = true ∧
        s'.reporter.errors.toList.map SyntaxError.content =
          s.reporter.errors.toList.map SyntaxError.content ∧
        s'.pendingEnds = s.pendingEnds := by
  rcases tokenize_blankLine hstart hline
    with hfails | ⟨us, ts, e, hok, hok', hlast, he, hcovers, htiles⟩
  · exact Or.inl hfails
  · right
    -- The end of the input comes behind both, on lines that may differ.
    rcases htiles.exists_end with ⟨inner, rfl, hinner⟩
    have hinner : AreRead inner := hinner
    have hfront := hcovers.areRead
    have hno : ∀ t ∈ us ++ inner, t.kind ≠ .eof :=
      List.forall_mem_append.mpr ⟨hfront.ne_eof, hinner.ne_eof⟩
    have hend := (Token.isLexed_endBehind (front.toList ++ rest.toList)).like_lowered 1
    have htrails := Cursor.trails_ofTokens
      (hfront.areLexed.trails_append hlast he hinner.areLexed 1) hno hend rfl
    have hsplit : us ++ e :: (inner ++ [Token.endBehind (front.toList ++ rest.toList)]).map
        (Token.lowered 1) = us ++ e :: inner.map (Token.lowered 1) ++
          [(Token.endBehind (front.toList ++ rest.toList)).lowered 1] := by
      simp
    rw [← List.append_assoc] at hok
    rw [hsplit] at hok'
    rcases parse_sameUpToLines (numbersCarryValues_of_tokenize hok) htrails
      with ⟨ns, ns', s, s', hparse, hparse', hsame, hlike⟩
    exact ⟨_, _, ns, ns', s, s', hok, hok', hparse, hparse', hsame.agrees,
      SyntaxError.map_content_eq hlike.errors, hlike.pendingEnds_eq⟩

/-- A comment in a loop whose statement is malformed changes neither the error nor that the loop
owes its `end`. -/
theorem parse_blankLine_brokenLoop :
    IsLineStart ("while (a) do" ++ "\n").toList "print )\n".toList ∧
      IsBlankLine "\t# none\n".toList ∧
      ∃ tokens tokens' ns ns' s s',
        tokenize ("while (a) do" ++ "\n" ++ "print )\n") = .ok tokens ∧
        tokenize ("while (a) do" ++ "\n" ++ "\t# none\n" ++ "print )\n") = .ok tokens' ∧
        (ofTokens tokens false).parse = (.ok (.program 1 ns), s) ∧
        (ofTokens tokens' false).parse = (.ok (.program 1 ns'), s') ∧
        (Node.program 1 ns').agrees (.program 1 ns) = true ∧
        s'.reporter.errors.toList.map SyntaxError.content =
          s.reporter.errors.toList.map SyntaxError.content ∧
        s'.pendingEnds = s.pendingEnds ∧ s.reporter.errors.size = 1 ∧ s.pendingEnds = 1 := by
  have hloop : (tokenize "while (a) do").toOption.isSome = true := by decide +kernel
  have htext : "while (a) do" ++ "\n" ++ "print )\n" = "while (a) do\nprint )\n" := rfl
  have hcount : (tokenize "while (a) do\nprint )\n").toOption.map (fun tokens =>
      ((ofTokens tokens false).parse.2.reporter.errors.size,
        (ofTokens tokens false).parse.2.pendingEnds)) = some (1, 1) := by
    decide +kernel
  cases hfront : tokenize "while (a) do" with
  | error fault =>
    rw [hfront] at hloop
    cases hloop
  | ok loop =>
    have hstart := IsLineStart.of_tokenize hfront "print )\n".toList
    have hline : IsBlankLine "\t# none\n".toList :=
      ⟨['\t'], "# none".toList, rfl, by simp [IsRun], Or.inr ⟨" none".toList, rfl, by simp⟩⟩
    rcases parse_blankLine hstart hline
      with ⟨fault, herror, -⟩ | ⟨tokens, tokens', ns, ns', s, s', hok, hok', hparse, hrest⟩
    · rw [← htext, herror] at hcount
      cases hcount
    · rw [← htext, hok] at hcount
      have hcounts := Option.some.inj hcount
      dsimp only at hcounts
      rw [hparse] at hcounts
      rcases hrest with ⟨hparse', hagrees, herrors, howed⟩
      exact ⟨hstart, hline, tokens, tokens', ns, ns', s, s', hok, hok', hparse, hparse', hagrees,
        herrors, howed, congrArg Prod.fst hcounts, congrArg Prod.snd hcounts⟩

end Session

end ScriptCheck
