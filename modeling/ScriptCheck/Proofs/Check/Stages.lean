import ScriptCheck.Check
import ScriptCheck.Proofs.Lexer.Failing
import ScriptCheck.Proofs.Program.FailFast
import ScriptCheck.Proofs.Program.Lexed

/-!
# The stages of a check

A check goes from one stage to the next and may end in each of them. What comes of a text depends on
what is asked for only in what is shown: either it has a malformed token, or its tokens have errors
of syntax, or they make a program (`Check.Malformed`, `Check.Faulty`, `Check.Clean`). In each case
the report is written out for all jobs on the text.
-/

namespace ScriptCheck

namespace Session

variable {tokens : List Token} {failFast : Bool}

variable [Stack]

/-- The errors of a sequence of tokens: those that a parse that recovers reports. -/
def errorsOf (tokens : List Token) : List SyntaxError :=
  (ofTokens tokens false).parse.2.reporter.errors.toList

/-- A parse that is to fail fast ends with its first error. -/
def reported (tokens : List Token) (failFast : Bool) : List SyntaxError :=
  if failFast then (errorsOf tokens).take 1 else errorsOf tokens

theorem reported_ne_nil (h : errorsOf tokens ≠ []) (failFast : Bool) :
    reported tokens failFast ≠ [] := by
  unfold reported
  cases failFast <;> simp [h]

/-- Tokens without errors make a program, the same whether a parse fails fast or not. -/
theorem parse_of_errorsOf_nil (hnumbers : NumbersCarryValues (tokens.takeWhile Cursor.isBeforeEnd))
    (hnone : errorsOf tokens = []) :
    ∃ ns, ∀ failFast, ∃ s, (ofTokens tokens failFast).parse = (.ok (.program 1 ns), s) ∧
      s.reporter.errors = #[] := by
  rcases exists_parse hnumbers with ⟨ns, s, hparse, hfast⟩
  have herrors : s.reporter.errors = #[] := by simpa [errorsOf, hparse] using hnone
  refine ⟨ns, fun failFast => ?_⟩
  cases failFast with
  | false => exact ⟨s, hparse, herrors⟩
  | true => exact ⟨s.hasten, hfast herrors, herrors⟩

/-- If there are errors, they are reported, and nothing else comes out of a parse. -/
theorem parse_of_errorsOf_ne_nil
    (hnumbers : NumbersCarryValues (tokens.takeWhile Cursor.isBeforeEnd))
    (hsome : errorsOf tokens ≠ []) (failFast : Bool) :
    (ofTokens tokens failFast).parse.2.reporter.errors.toList = reported tokens failFast ∧
      (failFast = false → ∃ ns, (ofTokens tokens failFast).parse.1 = .ok (.program 1 ns)) ∧
      ∀ cause, (ofTokens tokens failFast).parse.1 = .error cause →
        ∃ e, cause = .invalid e ∧ (ofTokens tokens failFast).parse.2.reporter.errors = #[e] := by
  cases failFast with
  | false =>
    rcases exists_parse hnumbers with ⟨ns, s, hparse, -⟩
    refine ⟨rfl, fun _ => ⟨ns, by rw [hparse]⟩, ?_⟩
    intro cause hcause
    rw [hparse] at hcause
    cases hcause
  | true =>
    cases hall : errorsOf tokens with
    | nil => exact absurd hall hsome
    | cons e es =>
      have hfirst : (ofTokens tokens false).parse.2.reporter.errors[0]? = some e := by
        rw [← Array.getElem?_toList, ← errorsOf, hall]
        rfl
      rcases exists_raisedAt hfirst with ⟨index, hraised⟩
      rcases hraised.parse_eq with ⟨s, hparse, herrors, -, -⟩
      rw [hparse]
      refine ⟨?_, by simp, ?_⟩
      · simp [herrors, reported, hall]
      · rintro cause ⟨⟩
        exact ⟨e, rfl, herrors⟩

/-- A parse that recovers comes to a program, and one that fails fast has reported what it fails
with. -/
theorem parse_ends (hnumbers : NumbersCarryValues (tokens.takeWhile Cursor.isBeforeEnd))
    (failFast : Bool) :
    (failFast = false → ∃ ns, (ofTokens tokens failFast).parse.1 = .ok (.program 1 ns)) ∧
      ∀ cause, (ofTokens tokens failFast).parse.1 = .error cause →
        ∃ e, cause = .invalid e ∧ (ofTokens tokens failFast).parse.2.reporter.errors = #[e] := by
  by_cases hnone : errorsOf tokens = []
  · rcases parse_of_errorsOf_nil hnumbers hnone with ⟨ns, hparse⟩
    rcases hparse failFast with ⟨s, hparse, -⟩
    refine ⟨fun _ => ⟨ns, by rw [hparse]⟩, ?_⟩
    intro cause hcause
    rw [hparse] at hcause
    cases hcause
  · exact (parse_of_errorsOf_ne_nil hnumbers hnone failFast).2

end Session

namespace Check

variable {source : String} {tokens : List Token} {fault : Lexer.Fault}
  {load : String → Except Source.Fault (List Nat)}

/-- The job of checking a text. -/
def textJob (source : String) (dumpTokens dumpTree failFast : Bool) : Job where
  source := source
  isText := true
  dumpTokens := dumpTokens
  dumpTree := dumpTree
  failFast := failFast

section

variable [Stack]

/-- It reads nothing but the text. -/
theorem run_textJob (source : String) (dumpTokens dumpTree failFast : Bool) :
    run (textJob source dumpTokens dumpTree failFast) load =
      ofText (textJob source dumpTokens dumpTree failFast) source [] :=
  rfl

/-! ## The lexer -/

/-- A malformed token ends a check with a message about it. -/
theorem run_of_malformed {line column : Int} (h : tokenize source = .error fault)
    (hplace : malformedPlace? fault = some (line, column)) (dumpTokens dumpTree failFast : Bool) :
    run (textJob source dumpTokens dumpTree failFast) load =
      { verdict := .ok .rejected, lines := [],
        notes := [.message (malformedMessage fault line column)] } := by
  rw [run_textJob, ofText, h]
  dsimp only
  rw [hplace]
  rfl

/-- Any other fault of the lexer ends it without a verdict. -/
theorem run_of_unplaced (h : tokenize source = .error fault) (hplace : malformedPlace? fault = none)
    (dumpTokens dumpTree failFast : Bool) :
    run (textJob source dumpTokens dumpTree failFast) load =
      { verdict := .error (.lexer fault), lines := [], notes := [] } := by
  rw [run_textJob, ofText, h]
  dsimp only
  rw [hplace]

/-- If only the tokens are asked for, they are shown, and nothing else is done. -/
theorem run_tokensOnly (h : tokenize source = .ok tokens) (failFast : Bool) :
    run (textJob source true false failFast) load =
      { verdict := .ok .accepted, lines := tokenDump tokens,
        notes := [.event (.lexed tokens.length)] } := by
  rw [run_textJob, ofText, h]
  rfl

/-- Otherwise they go on to the parser. -/
theorem run_of_tokens (h : tokenize source = .ok tokens) {dumpTokens dumpTree : Bool}
    (hflags : ¬ (dumpTokens = true ∧ dumpTree = false)) (failFast : Bool) :
    run (textJob source dumpTokens dumpTree failFast) load =
      ofTokens (textJob source dumpTokens dumpTree failFast) tokens
        (if dumpTokens then tokenDump tokens else []) [.event (.lexed tokens.length)] := by
  have hgo : (dumpTokens && !dumpTree) = false := by simpa using hflags
  rw [run_textJob, ofText, h]
  simp only [textJob, hgo, List.nil_append]
  rfl

end

/-! ## The parser -/

/-- The lines that tell of errors of syntax: one about each, and their number. -/
def complaints (es : List SyntaxError) : List String :=
  es.map (·.diagnostic.format) ++ ["parser exited with " ++ toString es.length ++ " errors"]

theorem errorNotes_eq (r : Reporter) :
    errorNotes r = (complaints r.errors.toList).map .message := by
  simp [errorNotes, complaints, Reporter.diagnostics, Reporter.errorCount]

/-- Tokens that make a program are accepted, and the program is shown if that is asked for. -/
theorem ofTokens_of_errorsOf_nil [Stack]
    (hnumbers : NumbersCarryValues (tokens.takeWhile Cursor.isBeforeEnd))
    (hnone : Session.errorsOf tokens = []) :
    ∃ program : Node, ∀ failFast, (Session.ofTokens tokens failFast).parse.1 = .ok program ∧
      ∃ events : List Event, ∀ job lines notes, job.failFast = failFast →
        ofTokens job tokens lines notes =
          { verdict := .ok .accepted,
            lines := if job.dumpTree then lines ++ treeDump program else lines,
            notes := notes ++ events.map .event,
            tree := if job.dumpTree then some program else none } := by
  rcases Session.parse_of_errorsOf_nil hnumbers hnone with ⟨ns, hparse⟩
  refine ⟨.program 1 ns, fun failFast => ?_⟩
  rcases hparse failFast with ⟨s, hparse, herrors⟩
  refine ⟨by rw [hparse], s.log.toList, ?_⟩
  rintro job lines notes rfl
  have hclean : s.reporter.hadError = false := by
    simp [Reporter.hadError, Reporter.errorCount, herrors]
  unfold ofTokens
  rw [hparse]
  dsimp only
  rw [hclean]
  rfl

/-- Tokens with errors are rejected, and the errors are told. -/
theorem ofTokens_of_errorsOf_ne_nil [Stack]
    (hnumbers : NumbersCarryValues (tokens.takeWhile Cursor.isBeforeEnd))
    (hsome : Session.errorsOf tokens ≠ []) (failFast : Bool) :
    ∃ events : List Event, ∀ job lines notes, job.failFast = failFast →
      ofTokens job tokens lines notes =
        { verdict := .ok .rejected, lines,
          notes := notes ++ events.map .event ++
            (complaints (Session.reported tokens failFast)).map .message } := by
  rcases Session.parse_of_errorsOf_ne_nil hnumbers hsome failFast with ⟨hreported, -, hfails⟩
  refine ⟨(Session.ofTokens tokens failFast).parse.2.log.toList, ?_⟩
  rintro job lines notes rfl
  have hfaulty : (Session.ofTokens tokens job.failFast).parse.2.reporter.hadError = true := by
    have hne : (Session.ofTokens tokens job.failFast).parse.2.reporter.errors.toList ≠ [] := by
      rw [hreported]
      exact Session.reported_ne_nil hsome _
    simpa [Reporter.hadError, Reporter.errorCount] using hne
  rw [← hreported, ← errorNotes_eq]
  unfold ofTokens
  cases hparse : (Session.ofTokens tokens job.failFast).parse with
  | mk outcome s =>
    rw [hparse] at hfails hfaulty
    dsimp only at hfails hfaulty ⊢
    cases outcome with
    | error cause =>
      rcases hfails cause rfl with ⟨e, rfl, -⟩
      rfl
    | ok program =>
      dsimp only
      rw [hfaulty]
      rfl

/-- What is told of a program: what was asked for, and nothing else. -/
theorem run_of_program [Stack] (h : tokenize source = .ok tokens)
    (hnone : Session.errorsOf tokens = []) (load : String → Except Source.Fault (List Nat)) :
    ∃ program, ∀ failFast, (Session.ofTokens tokens failFast).parse.1 = .ok program ∧
      ∀ dumpTokens dumpTree, ∃ events : List Event,
        run (textJob source dumpTokens dumpTree failFast) load =
          { verdict := .ok .accepted,
            lines := (if dumpTokens then tokenDump tokens else []) ++
              (if dumpTree then treeDump program else []),
            notes := events.map .event,
            tree := if dumpTree then some program else none } := by
  rcases ofTokens_of_errorsOf_nil (numbersCarryValues_of_tokenize h) hnone with ⟨program, hall⟩
  refine ⟨program, fun failFast => ⟨(hall failFast).1, fun dumpTokens dumpTree => ?_⟩⟩
  rcases (hall failFast).2 with ⟨events, hreport⟩
  -- The one report without a parse is as if there had been one.
  by_cases hflags : dumpTokens = true ∧ dumpTree = false
  · rcases hflags with ⟨rfl, rfl⟩
    exact ⟨[.lexed tokens.length], (run_tokensOnly h failFast).trans (by simp)⟩
  · refine ⟨.lexed tokens.length :: events, (run_of_tokens h hflags failFast).trans ?_⟩
    rw [hreport _ _ _ rfl]
    cases dumpTree <;> simp [textJob]

end Check

end ScriptCheck
