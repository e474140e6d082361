import ScriptCheck.Proofs.Check.Stages

/-!
# When a check has a verdict

A check of a program text ends without a verdict in two cases. The lexer may come to a number that
denotes none (`MeetsUnreadable`), and a tree that is to be shown may be too deep for the stack
(`OutgrowsStack`). Every other fault of the lexer has a place and is a message about it, and what
fails in the parser is among the errors that it reports (`Check.run_verdict`).
-/

namespace ScriptCheck.Check

variable {source : String} {dumpTokens dumpTree failFast : Bool}
  {load : String → Except Source.Fault (List Nat)}

/-- Whether a text is a program whose tree is too deep for the stack to tell it as data. -/
def OutgrowsStack [Stack] (source : String) : Prop :=
  ∃ tokens program, tokenize source = .ok tokens ∧ Session.errorsOf tokens = [] ∧
    (Session.ofTokens tokens false).parse.1 = .ok program ∧ Stack.outline < program.outlineDepth

section

variable [Stack]

/-- A report that shows no tree is told. -/
theorem runOnStack_of_tree_eq_none {job : Job} (h : (run job load).tree = none) :
    runOnStack job load = .told (run job load) := by
  rw [runOnStack, Report.ending, h]

/-- The check ends with the number that denotes none. -/
theorem runOnStack_of_unreadable (h : MeetsUnreadable source) :
    ∃ fault, tokenize source = .error (.numeral fault) ∧
      runOnStack (textJob source dumpTokens dumpTree failFast) load =
        .told { verdict := .error (.lexer (.numeral fault)), lines := [], notes := [] } := by
  rcases tokenize_numeral_iff.mpr h with ⟨fault, h⟩
  exact ⟨fault, h, by rw [runOnStack, run_of_unplaced h rfl]; rfl⟩

/-- The check of a program breaks off when its tree is to be shown and is too deep. -/
theorem runOnStack_of_outgrows (hdump : dumpTree = true) (h : OutgrowsStack source) :
    ∃ (tokens : List Token) (events : List Event), tokenize source = .ok tokens ∧
      runOnStack (textJob source dumpTokens dumpTree failFast) load =
        .brokenOff ((if dumpTokens then tokenDump tokens else []) ++ ["== AST =="])
          (events.map .event) := by
  subst hdump
  rcases h with ⟨tokens, program, h, hnone, hparse, hdeep⟩
  rcases run_of_program h hnone load with ⟨program', hall⟩
  obtain rfl : program = program' := Except.ok.inj (hparse.symm.trans (hall false).1)
  rcases (hall failFast).2 dumpTokens true with ⟨events, hreport⟩
  refine ⟨tokens, events, h, ?_⟩
  rw [runOnStack, hreport, Report.ending]
  simp [Nat.not_le.mpr hdeep, treeDump]

/-- Any other text without an unreadable number has a verdict, whatever is asked for. -/
theorem runOnStack_told (hreadable : ¬ MeetsUnreadable source)
    (hfits : ¬ (dumpTree = true ∧ OutgrowsStack source)) :
    ∃ report v, runOnStack (textJob source dumpTokens dumpTree failFast) load = .told report ∧
      report.verdict = .ok v := by
  have htold : ∀ {report v}, report.tree = none → report.verdict = .ok v →
      run (textJob source dumpTokens dumpTree failFast) load = report →
      ∃ report v, runOnStack (textJob source dumpTokens dumpTree failFast) load = .told report ∧
        report.verdict = .ok v := by
    rintro report v htree hverdict rfl
    exact ⟨_, v, runOnStack_of_tree_eq_none htree, hverdict⟩
  cases h : tokenize source with
  | error fault =>
    rcases tokenize_located h hreadable with ⟨front, ahead, -, rfl | rfl⟩
    · exact htold rfl rfl (run_of_malformed h rfl _ _ _)
    · exact htold rfl rfl (run_of_malformed h rfl _ _ _)
  | ok tokens =>
    by_cases hflags : dumpTokens = true ∧ dumpTree = false
    · rcases hflags with ⟨rfl, rfl⟩
      exact htold rfl rfl (run_tokensOnly h failFast)
    · by_cases hnone : Session.errorsOf tokens = []
      · rcases run_of_program h hnone load with ⟨program, hall⟩
        rcases (hall failFast).2 dumpTokens dumpTree with ⟨events, hreport⟩
        cases dumpTree with
        | false => exact htold rfl rfl hreport
        | true =>
          have hshallow : program.outlineDepth ≤ Stack.outline := by
            refine Nat.le_of_not_lt fun hdeep => hfits ⟨rfl, ?_⟩
            exact ⟨tokens, program, h, hnone, (hall false).1, hdeep⟩
          have htold : runOnStack (textJob source dumpTokens true failFast) load =
              .told (run (textJob source dumpTokens true failFast) load) := by
            rw [runOnStack, hreport, Report.ending]
            exact if_pos hshallow
          exact ⟨_, .accepted, htold, by rw [hreport]⟩
      · rcases ofTokens_of_errorsOf_ne_nil (numbersCarryValues_of_tokenize h) hnone failFast
          with ⟨events, hreport⟩
        exact htold rfl rfl ((run_of_tokens h hflags failFast).trans (hreport _ _ _ rfl))

/-- A check of a text has a verdict unless the lexer comes to a number that denotes none, or the
tree is to be shown and the stack has no room for telling it. The unreadable number is what the
check ends with, and no place is told; a tree that is too deep breaks it off behind the heading of
the dump. Any other fault of the lexer is told with the place where no token can be read, and the
text is rejected. A parse that recovers does not fail, and one that fails fast has reported what it
fails with. -/
theorem run_verdict (source : String) (dumpTokens dumpTree failFast : Bool)
    (load : String → Except Source.Fault (List Nat)) :
    ((∃ report v,
        runOnStack (textJob source dumpTokens dumpTree failFast) load = .told report ∧
          report.verdict = .ok v ∧ (v.status = 0 ∨ v.status = 1)) ↔
      ¬ MeetsUnreadable source ∧ ¬ (dumpTree = true ∧ OutgrowsStack source)) ∧
    (MeetsUnreadable source → ∃ fault, tokenize source = .error (.numeral fault) ∧
      runOnStack (textJob source dumpTokens dumpTree failFast) load =
        .told { verdict := .error (.lexer (.numeral fault)), lines := [], notes := [] }) ∧
    (dumpTree = true → OutgrowsStack source →
      ∃ (tokens : List Token) (events : List Event), tokenize source = .ok tokens ∧
        runOnStack (textJob source dumpTokens dumpTree failFast) load =
          .brokenOff ((if dumpTokens then tokenDump tokens else []) ++ ["== AST =="])
            (events.map .event)) ∧
    (∀ fault, tokenize source = .error fault → ¬ MeetsUnreadable source →
      ∃ front ahead, source.toList = front ++ ahead ∧
        (fault = .unterminatedString (lineAfter front) (columnAfter front) ∨
          fault = .malformedNumber (lineAfter front) (columnAfter front)) ∧
        runOnStack (textJob source dumpTokens dumpTree failFast) load =
          .told { verdict := .ok .rejected, lines := [],
                  notes := [.message
                    (malformedMessage fault (lineAfter front) (columnAfter front))] }) ∧
    ∀ tokens, tokenize source = .ok tokens →
      (failFast = false → ∃ ns, (Session.ofTokens tokens failFast).parse.1 = .ok (.program 1 ns)) ∧
      ∀ cause, (Session.ofTokens tokens failFast).parse.1 = .error cause →
        ∃ e, cause = .invalid e ∧
          (Session.ofTokens tokens failFast).parse.2.reporter.errors = #[e] := by
  refine ⟨⟨?_, ?_⟩, runOnStack_of_unreadable, runOnStack_of_outgrows, ?_, ?_⟩
  · rintro ⟨report, v, htold, hverdict, -⟩
    constructor
    · intro hmeets
      rcases runOnStack_of_unreadable hmeets with ⟨fault, -, hends⟩
      obtain rfl := Ending.told.inj (htold.symm.trans hends)
      cases hverdict
    · rintro ⟨hdump, houtgrows⟩
      rcases runOnStack_of_outgrows hdump houtgrows with ⟨tokens, events, -, hends⟩
      cases htold.symm.trans hends
  · rintro ⟨hreadable, hfits⟩
    rcases runOnStack_told hreadable hfits with ⟨report, v, htold, hverdict⟩
    refine ⟨report, v, htold, hverdict, ?_⟩
    cases v with
    | accepted => exact Or.inl rfl
    | rejected => exact Or.inr rfl
  · intro fault h hreadable
    rcases tokenize_located h hreadable with ⟨front, ahead, hsplit, hfault⟩
    refine ⟨front, ahead, hsplit, hfault, ?_⟩
    have hplace : malformedPlace? fault = some (lineAfter front, columnAfter front) := by
      rcases hfault with rfl | rfl <;> rfl
    rw [runOnStack, run_of_malformed h hplace]
    rfl
  · intro tokens h
    exact Session.parse_ends (numbersCarryValues_of_tokenize h) failFast

end

-- The tree is eleven calls deep to tell.
example : (match @runOnStack ⟨970, 10⟩ (textJob "print 1+1\n" false true false) fun _ => .ok [] with
    | .told _ => none
    | .brokenOff lines _ => some lines) = some ["== AST =="] := by
  decide +kernel

/-- The superscript two is a digit that no integer can be read from. -/
theorem run_superscript :
    tokenize "print \u00b2\n" = .error (.numeral (.notInteger "\u00b2")) ∧
      ¬ ∃ report v, runOnStack (textJob "print \u00b2\n" false false false) (fun _ => .ok []) =
        .told report ∧ report.verdict = .ok v := by
  have h : tokenize "print \u00b2\n" = .error (.numeral (.notInteger "\u00b2")) := by
    decide +kernel
  refine ⟨h, ?_⟩
  rintro ⟨report, v, htold, hverdict⟩
  rw [runOnStack, run_of_unplaced h rfl] at htold
  obtain rfl := Ending.told.inj htold
  cases hverdict

end ScriptCheck.Check
