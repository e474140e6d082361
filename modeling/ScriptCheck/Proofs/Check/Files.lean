import ScriptCheck.Proofs.Check.Channels
import ScriptCheck.Proofs.Lexer.Returns
import ScriptCheck.Proofs.Program.Mirroring

/-!
# Texts in files

The lines of a file are unified when it is read, and those of a text that is given itself are not.
Where carriage returns only end lines, this makes no difference but for the columns of the ends of
lines: the parser looks at no column, so the checks of the file and of the text come to the same
verdict, remarks and tree, or end with the same fault (`Check.run_file`).
-/

namespace ScriptCheck

/-! ## Parses -/

theorem Token.SameButEolColumn.like {t t' : Token} (h : t.SameButEolColumn t') (ht : t.IsLexed) :
    t.Like (· = ·) t' where
  kind_eq := h.kind_eq
  text_eq := h.text_eq
  literal_eq := h.literal_eq
  line := h.line_eq.symm
  carries := ht.carries
  agrees_self v hv := Literal.agrees_self (ht.isNaN_eq v hv)

theorem AreLexed.abreast_of_sameButEolColumn {ts ts' : List Token} (h : AreLexed ts)
    (hsame : List.Forall₂ Token.SameButEolColumn ts ts') : Abreast (· = ·) ts ts' := by
  induction hsame with
  | nil => exact .nil
  | cons ht _ ih =>
    rcases List.forall_mem_cons.mp h with ⟨hlexed, hrest⟩
    exact .cons (ht.like hlexed) (ih hrest)

namespace Session

variable {tokens tokens' : List Token}

/-- Whether two parses come to the same tree or end alike, with errors that are the same but for the
columns of the tokens that they blame. -/
def ParsedAlike (outcome outcome' : Except Cause Node × Session) : Prop :=
  ReadAlike (· = ·) (· = ·) (Cursor.Abreast (· = ·)) outcome outcome'

/-- The columns of ends of lines do not matter to a parse. -/
theorem parsedAlike_of_sameButEolColumn [Stack] {source : String} (h : tokenize source = .ok tokens)
    (hsame : List.Forall₂ Token.SameButEolColumn tokens tokens') (failFast : Bool) :
    ParsedAlike (ofTokens tokens failFast).parse (ofTokens tokens' failFast).parse := by
  rcases (tokenize_eq_ok_iff.mp h).exists_end with ⟨inner, rfl, hinner⟩
  have hread : AreRead inner := hinner
  -- A place holds the end of the input apart from what is ahead, so it is split off here.
  have hfront := List.forall₂_take inner.length hsame
  have hlast := List.forall₂_drop inner.length hsame
  rw [List.take_left] at hfront
  rw [List.drop_left] at hlast
  rw [← List.take_append_drop inner.length tokens']
  generalize tokens'.take inner.length = inner' at hfront ⊢
  generalize tokens'.drop inner.length = last at hlast ⊢
  cases hlast with
  | @cons _ t' _ _ hend hnil =>
    cases hnil
    have hlike := hend.like (Token.isLexed_endBehind _)
    have htrails := Cursor.trails_ofTokens
      (.abreast (hread.areLexed.abreast_of_sameButEolColumn hfront)) hread.ne_eof hlike rfl
    have hparse := (like_ofTokens htrails failFast).parse Node.Congruence.equality
    generalize (ofTokens (inner ++ _) failFast).parse = outcome at hparse ⊢
    generalize (ofTokens (inner' ++ _) failFast).parse = outcome' at hparse ⊢
    cases hparse with
    | ok hn hsession =>
      rcases hn with ⟨ns, ns', rfl, rfl, hns⟩
      rw [List.forall₂_eq_eq_eq] at hns
      exact .ok (congrArg _ hns) hsession
    | error hcause hsession => exact .error hcause hsession

end Session

/-- What is shown of errors that blame tokens in other columns is the same. -/
theorem SyntaxError.map_diagnostic_eq {es es' : List SyntaxError}
    (h : List.Forall₂ (SyntaxError.Like (· = ·)) es es') :
    es'.map (·.diagnostic) = es.map (·.diagnostic) := by
  induction h with
  | nil => rfl
  | cons he _ ih =>
    rw [List.map_cons, List.map_cons, ih, diagnostic, diagnostic, he.line, he.message_eq]

namespace Check

/-! ## Reports -/

/-- The lines of a report from the dump of the tree on. -/
def Report.treeLines (r : Report) : List String :=
  r.lines.dropWhile (· != "== AST ==")

/-- Whether two checks come to the same: the verdict or the fault, the remarks, and the tree that is
shown. -/
structure Report.TellsSame (r r' : Report) : Prop where
  verdict_eq : r.verdict = r'.verdict
  remarks_eq : r.remarks false = r'.remarks false
  treeLines_eq : r.treeLines = r'.treeLines

theorem Report.TellsSame.symm {r r' : Report} (h : r.TellsSame r') : r'.TellsSame r :=
  ⟨h.verdict_eq.symm, h.remarks_eq.symm, h.treeLines_eq.symm⟩

/-- The lines of a report in front of the tree are those that show the tokens, if any. -/
def TokenLines (lines : List String) : Prop :=
  lines = [] ∨ ∃ tokens, lines = tokenDump tokens

theorem treeLines_append {lines tree : List String} (hlines : TokenLines lines)
    (htree : tree = [] ∨ ∃ program, tree = treeDump program) (verdict : Except Fault Verdict)
    (notes : List Note) (shown : Option Node) :
    Report.treeLines { verdict, lines := lines ++ tree, notes, tree := shown } = tree := by
  have hno : ∀ line ∈ lines, (line != "== AST ==") = true := by
    rcases hlines with rfl | ⟨tokens, rfl⟩
    · simp
    · intro line hline
      have hne : line ≠ "== AST ==" := fun heq => treeHead_not_mem_tokenDump tokens (heq ▸ hline)
      simpa using hne
  rw [Report.treeLines, List.dropWhile_append_of_pos hno]
  rcases htree with rfl | ⟨program, rfl⟩
  · rfl
  · simp [treeDump]

/-- Reports with the same messages and the same tree tell the same, whatever the events and the
tokens in front of them. -/
theorem tellsSame_of_parts {lines lines' tree : List String} (hlines : TokenLines lines)
    (hlines' : TokenLines lines') (htree : tree = [] ∨ ∃ program, tree = treeDump program)
    (verdict : Except Fault Verdict) (events events' : List Event) (messages : List String)
    (shown : Option Node) :
    Report.TellsSame
      { verdict, lines := lines ++ tree, notes := events.map .event ++ messages.map .message,
        tree := shown }
      { verdict, lines := lines' ++ tree, notes := events'.map .event ++ messages.map .message,
        tree := shown } where
  verdict_eq := rfl
  remarks_eq := by rw [remarks_false, remarks_false]
  treeLines_eq := by rw [treeLines_append hlines htree, treeLines_append hlines' htree]

section

variable {tokens tokens' : List Token} {lines lines' : List String} {s s' : Session}

/-- Without messages, the events in front of the tree do not matter. -/
theorem tellsSame_of_tree {tree : List String} (hlines : TokenLines lines)
    (hlines' : TokenLines lines') (htree : tree = [] ∨ ∃ program, tree = treeDump program)
    (verdict : Except Fault Verdict) (events events' log log' : List Event) (shown : Option Node) :
    Report.TellsSame
      { verdict, lines := lines ++ tree, notes := events.map .event ++ log.map .event,
        tree := shown }
      { verdict, lines := lines' ++ tree, notes := events'.map .event ++ log'.map .event,
        tree := shown } := by
  rw [← List.map_append, ← List.map_append]
  simpa only [List.map_nil, List.append_nil] using
    tellsSame_of_parts hlines hlines' htree verdict (events ++ log) (events' ++ log') [] shown

/-- Sessions that are alike have the same messages. -/
theorem errorNotes_eq_of_like (h : s.Like (· = ·) (Cursor.Abreast (· = ·)) s') :
    errorNotes s'.reporter = errorNotes s.reporter ∧
      s'.reporter.hadError = s.reporter.hadError := by
  have hdiagnostics := SyntaxError.map_diagnostic_eq h.errors
  have hlength : s'.reporter.errors.size = s.reporter.errors.size := by
    simpa using h.errors.length_eq.symm
  simp only [errorNotes, Reporter.diagnostics, Reporter.hadError, Reporter.errorCount, hlength,
    hdiagnostics, and_self]

/-- Tokens that are rejected with the same errors are rejected with the same messages. -/
theorem tellsSame_of_errors (h : s.Like (· = ·) (Cursor.Abreast (· = ·)) s')
    (hlines : TokenLines lines) (hlines' : TokenLines lines')
    (events events' log log' : List Event) :
    Report.TellsSame
      { verdict := .ok .rejected, lines,
        notes := events.map .event ++ log.map .event ++ errorNotes s.reporter }
      { verdict := .ok .rejected, lines := lines',
        notes := events'.map .event ++ log'.map .event ++ errorNotes s'.reporter } := by
  rw [(errorNotes_eq_of_like h).1, errorNotes_eq, ← List.map_append, ← List.map_append]
  simpa only [List.append_nil] using
    tellsSame_of_parts hlines hlines' (Or.inl rfl) (.ok .rejected) (events ++ log)
      (events' ++ log') (complaints s.reporter.errors.toList) none

/-- Checks of tokens that are parsed alike come to the same. -/
theorem ofTokens_tellsSame [Stack] {job job' : Job}
    (hparse : Session.ParsedAlike (Session.ofTokens tokens job.failFast).parse
      (Session.ofTokens tokens' job.failFast).parse)
    (hfast : job'.failFast = job.failFast) (hdump : job'.dumpTree = job.dumpTree)
    (hlines : TokenLines lines) (hlines' : TokenLines lines') (events events' : List Event) :
    (ofTokens job tokens lines (events.map .event)).TellsSame
      (ofTokens job' tokens' lines' (events'.map .event)) := by
  have hnothing := fun verdict log log' =>
    tellsSame_of_tree hlines hlines' (Or.inl rfl) verdict events events' log log' none
  simp only [List.append_nil] at hnothing
  unfold ofTokens
  rw [hfast, hdump]
  generalize (Session.ofTokens tokens job.failFast).parse = outcome at hparse ⊢
  generalize (Session.ofTokens tokens' job.failFast).parse = outcome' at hparse ⊢
  cases hparse with
  | @ok n n' s s' hn hlike =>
    subst hn
    have herrors := tellsSame_of_errors hlike hlines hlines' events events'
    dsimp only
    rw [(errorNotes_eq_of_like hlike).2]
    split
    · exact herrors _ _
    · cases job.dumpTree with
      | true => exact tellsSame_of_tree hlines hlines' (Or.inr ⟨n, rfl⟩) _ _ _ _ _ _
      | false => exact hnothing _ _ _
  | error hcause hlike =>
    have herrors := tellsSame_of_errors hlike hlines hlines' events events'
    cases hcause with
    | numeral fault => exact hnothing _ _ _
    | invalid _ => exact herrors _ _
    | tooDeep => exact herrors _ _

end

/-! ## Texts -/

section

variable [Stack]

/-- A fault of the lexer ends a check in the same way whatever is asked for. -/
theorem ofText_of_error {text text' : String} {fault : Lexer.Fault}
    (h : tokenize text = .error fault) (h' : tokenize text' = .error fault) (job job' : Job)
    (events events' : List Event) :
    (ofText job text (events.map .event)).TellsSame
      (ofText job' text' (events'.map .event)) := by
  have hlines : TokenLines [] := Or.inl rfl
  unfold ofText
  rw [h, h']
  dsimp only
  cases malformedPlace? fault with
  | none =>
    simpa using tellsSame_of_parts hlines hlines (Or.inl rfl) (.error (.lexer fault)) events
      events' [] none
  | some place =>
    simpa using tellsSame_of_parts hlines hlines (Or.inl rfl) (.ok .rejected) events events'
      [malformedMessage fault place.1 place.2] none

/-- Checks of texts whose tokens are the same but for the columns of the ends of lines come to the
same. -/
theorem ofText_of_tokens {text text' : String} {tokens tokens' : List Token}
    (h : tokenize text = .ok tokens) (h' : tokenize text' = .ok tokens')
    (hsame : List.Forall₂ Token.SameButEolColumn tokens tokens') {job job' : Job}
    (hfast : job'.failFast = job.failFast) (htokens : job'.dumpTokens = job.dumpTokens)
    (hdump : job'.dumpTree = job.dumpTree) (events events' : List Event) :
    (ofText job text (events.map .event)).TellsSame
      (ofText job' text' (events'.map .event)) := by
  have hlines : ∀ tokens, TokenLines (if job.dumpTokens then tokenDump tokens else []) := by
    intro tokens
    cases job.dumpTokens with
    | true => exact Or.inr ⟨tokens, rfl⟩
    | false => exact Or.inl rfl
  unfold ofText
  rw [h, h', htokens, hdump]
  dsimp only
  split
  · simpa using tellsSame_of_tree (hlines tokens) (hlines tokens') (Or.inl rfl) (.ok .accepted)
      events events' [.lexed tokens.length] [.lexed tokens'.length] none
  · have hnotes : ∀ (events : List Event) (event : Event),
        events.map Note.event ++ [.event event] = (events ++ [event]).map .event := by
      simp
    rw [hnotes, hnotes]
    exact ofTokens_tellsSame (Session.parsedAlike_of_sameButEolColumn h hsame job.failFast) hfast
      hdump (hlines tokens) (hlines tokens') _ _

/-! ## Files -/

/-- The job of checking a file. -/
def fileJob (path : String) (dumpTokens dumpTree failFast : Bool) : Job where
  source := path
  isText := false
  dumpTokens := dumpTokens
  dumpTree := dumpTree
  failFast := failFast

/-- It reads the text that the file holds. -/
theorem run_fileJob {path text : String} {load : String → Except Source.Fault (List Nat)}
    {bytes : List Nat} (hpath : path.endsWith Source.suffix = true) (hload : load path = .ok bytes)
    (htext : Source.textOfBytes bytes = .ok text) (dumpTokens dumpTree failFast : Bool) :
    run (fileJob path dumpTokens dumpTree failFast) load =
      ofText (fileJob path dumpTokens dumpTree failFast) text [.event (.reading path)] := by
  have hread : (load path >>= Source.textOfBytes) = .ok text := by
    rw [hload]
    exact htext
  simp only [run, fileJob, hpath, hread]
  rfl

/-- A text in which carriage returns only end lines is checked alike from a file and by itself.
With the lines unified it has the same tokens but for the columns of the ends of lines, or fails in
the same way, and both checks come to the same verdict, remarks and tree, or to the same fault. -/
theorem run_file {path text : String} {bytes : List Nat}
    {load load' : String → Except Source.Fault (List Nat)}
    (hpath : path.endsWith Source.suffix = true) (hload : load path = .ok bytes)
    (hbytes : Text.Utf8.decode bytes = .ok text.toList) (hreturns : ReturnsEndLines text.toList)
    (hstrings : StringsHoldNoReturn text) :
    ∃ unified, Source.textOfBytes bytes = .ok unified ∧
      ((∃ fault, tokenize text = .error fault ∧ tokenize unified = .error fault) ∨
        ∃ tokens tokens', tokenize text = .ok tokens ∧ tokenize unified = .ok tokens' ∧
          List.Forall₂ Token.SameButEolColumn tokens tokens') ∧
      ∀ dumpTokens dumpTree failFast,
        (run (fileJob path dumpTokens dumpTree failFast) load).TellsSame
          (run (textJob text dumpTokens dumpTree failFast) load') := by
  have htext : Source.textOfBytes bytes = .ok (String.ofList (withoutReturns text.toList)) := by
    rw [Source.textOfBytes, hbytes]
    dsimp only
    rw [unifyLines_eq hreturns]
  refine ⟨_, htext, ?_⟩
  rcases tokenize_withoutReturns hreturns hstrings
    with ⟨tokens, tokens', h, h', hsame⟩ | ⟨fault, h, h'⟩
  · refine ⟨Or.inr ⟨tokens, tokens', h, h', hsame⟩, fun dumpTokens dumpTree failFast => ?_⟩
    rw [run_fileJob hpath hload htext, run_textJob]
    have htells : (ofText (textJob text dumpTokens dumpTree failFast) text []).TellsSame
        (ofText (fileJob path dumpTokens dumpTree failFast) _ [.event (.reading path)]) :=
      ofText_of_tokens h h' hsame rfl rfl rfl [] [.reading path]
    exact htells.symm
  · refine ⟨Or.inl ⟨fault, h, h'⟩, fun dumpTokens dumpTree failFast => ?_⟩
    rw [run_fileJob hpath hload htext, run_textJob]
    exact ofText_of_error h' h _ _ [.reading path] []

end

/-- Two lines that end in a carriage return and a newline, with a string and a comment on the first
and an error on the second. -/
def twoLineEnds : String :=
  "s = 'a' # b\r\nprint )\r\n"

/-- The error is told of in the file, too. -/
theorem run_file_twoLineEnds :
    ReturnsEndLines twoLineEnds.toList ∧ StringsHoldNoReturn twoLineEnds ∧
      ∀ dumpTokens dumpTree failFast,
        (run (fileJob "a.qt" dumpTokens dumpTree failFast) fun _ =>
          .ok (twoLineEnds.toList.map Char.toNat)).TellsSame
          (run (textJob twoLineEnds dumpTokens dumpTree failFast) fun _ => .ok []) := by
  have hreturns : ReturnsEndLines twoLineEnds.toList := by decide
  have hall : (tokenize twoLineEnds).toOption.map (fun tokens =>
      tokens.all fun t => t.kind != .string || !t.text.toList.contains '\r') = some true := by
    decide +kernel
  cases h : tokenize twoLineEnds with
  | error fault =>
    rw [h] at hall
    cases hall
  | ok tokens =>
    rw [h] at hall
    have hstrings : StringsHoldNoReturn twoLineEnds := by
      refine .of_tokenize h fun t ht hkind => ?_
      have hno := List.all_eq_true.mp (Option.some.inj hall) t ht
      simpa [hkind] using hno
    have hpath : ("a.qt").endsWith Source.suffix = true := by decide +kernel
    have hbytes : Text.Utf8.decode (twoLineEnds.toList.map Char.toNat) =
        .ok twoLineEnds.toList := by
      decide +kernel
    rcases @run_file _ "a.qt" twoLineEnds _ (fun _ => .ok (twoLineEnds.toList.map Char.toNat))
      (fun _ => .ok []) hpath rfl hbytes hreturns hstrings with ⟨-, -, -, htells⟩
    exact ⟨hreturns, hstrings, htells⟩

end Check

end ScriptCheck
