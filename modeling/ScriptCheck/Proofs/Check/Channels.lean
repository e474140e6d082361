import ScriptCheck.Proofs.Check.Stages

/-!
# What a check tells, and where

A check tells its verdict, the lines that were asked for and the notes. `ChannelsAgree` says how
these go together, in one check of a text and from one check of it to another that asks for other
dumps. So it is wherever the lexer does not end a check without a verdict (`run_channels`).
-/

namespace ScriptCheck.Check

variable {source : String} {tokens : List Token} {fault : Lexer.Fault} {failFast : Bool}
  {load : String → Except Source.Fault (List Nat)}

/-! ## Lines -/

theorem joinLines_append (lines lines' : List String) :
    joinLines (lines ++ lines') = joinLines lines ++ joinLines lines' := by
  simp [joinLines]

/-- There is something to read if there is a line. -/
theorem joinLines_eq_empty_iff {lines : List String} : joinLines lines = "" ↔ lines = [] := by
  cases lines with
  | nil => exact ⟨fun _ => rfl, fun _ => rfl⟩
  | cons line lines =>
    rw [joinLines, List.map_cons, String.join_cons]
    simp only [reduceCtorEq, iff_false]
    intro h
    rw [String.append_eq_empty_iff, String.append_eq_empty_iff] at h
    exact absurd h.1.2 (by decide)

/-- Of the notes, the messages are shown and the events are not. -/
theorem remarks_false (verdict : Except Fault Verdict) (lines : List String) (shown : Option Node)
    (events : List Event) (messages : List String) :
    Report.remarks false
      { verdict, lines, notes := events.map .event ++ messages.map .message, tree := shown } =
      joinLines messages := by
  have hevents : (events.map Note.event).filterMap (·.line? false) = [] := by
    rw [List.filterMap_map, List.filterMap_eq_nil_iff]
    exact fun _ _ => rfl
  have hmessages : (messages.map Note.message).filterMap (·.line? false) = messages := by
    rw [List.filterMap_map]
    exact List.filterMap_some
  rw [Report.remarks, List.filterMap_append, hevents, hmessages, List.nil_append]

/-- The line of a token has a tab, which the head of the dump of a tree has not. -/
theorem treeHead_not_mem_tokenDump (tokens : List Token) : "== AST ==" ∉ tokenDump tokens := by
  rw [tokenDump, List.mem_cons, not_or]
  refine ⟨by decide, ?_⟩
  intro h
  rcases List.mem_map.mp h with ⟨t, -, ht⟩
  have htab : '\t' ∈ (tokenLine t).toList := by simp [tokenLine]
  rw [ht] at htab
  exact absurd htab (by decide)

/-! ## What goes together -/

/-- Whether a text is to be rejected: the lexer fails, or the parser is asked and finds an error. -/
def Rejects [Stack] (source : String) (dumpTokens dumpTree : Bool) : Prop :=
  (∃ fault, tokenize source = .error fault) ∨
    ¬ (dumpTokens = true ∧ dumpTree = false) ∧
      ∃ tokens, tokenize source = .ok tokens ∧ Session.errorsOf tokens ≠ []

/-- How the reports on a text go together, where `report dumpTokens dumpTree` is the one that shows
these dumps. -/
structure ChannelsAgree [Stack] (source : String) (failFast : Bool)
    (report : Bool → Bool → Report) : Prop where
  rejected_iff : ∀ dumpTokens dumpTree,
    (report dumpTokens dumpTree).verdict = .ok .rejected ↔ Rejects source dumpTokens dumpTree
  accepted_iff : ∀ dumpTokens dumpTree,
    (report dumpTokens dumpTree).verdict = .ok .accepted ↔ ¬ Rejects source dumpTokens dumpTree
  /-- There are remarks on what is rejected only. -/
  remarks_eq_empty_iff : ∀ dumpTokens dumpTree,
    (report dumpTokens dumpTree).remarks false = "" ↔
      (report dumpTokens dumpTree).verdict = .ok .accepted
  /-- The remarks on errors of syntax are a line about each, in the order in which they are
  reported, and a line with their number. -/
  remarks_of_errors : ∀ dumpTokens dumpTree tokens, ¬ (dumpTokens = true ∧ dumpTree = false) →
    tokenize source = .ok tokens → Session.errorsOf tokens ≠ [] → failFast = false →
    (report dumpTokens dumpTree).remarks false =
      joinLines ((Session.errorsOf tokens).map (·.diagnostic.format) ++
        ["parser exited with " ++ toString (Session.errorsOf tokens).length ++ " errors"])
  /-- Failing fast, there is the first of these lines, and the number is one. -/
  remarks_of_first : ∀ dumpTokens dumpTree tokens e, ¬ (dumpTokens = true ∧ dumpTree = false) →
    tokenize source = .ok tokens → (Session.errorsOf tokens).head? = some e → failFast = true →
    (report dumpTokens dumpTree).remarks false =
      joinLines [e.diagnostic.format, "parser exited with 1 errors"]
  /-- The tree is shown if it is asked for and the text is accepted. -/
  tree_shown_iff : ∀ dumpTokens dumpTree,
    "== AST ==" ∈ (report dumpTokens dumpTree).lines ↔
      dumpTree = true ∧ (report dumpTokens dumpTree).verdict = .ok .accepted
  /-- It is then that of the program which comes out of the parse. -/
  tree_eq : ∀ dumpTokens, (report dumpTokens true).verdict = .ok .accepted →
    ∃ tokens program, tokenize source = .ok tokens ∧
      (Session.ofTokens tokens failFast).parse.1 = .ok program ∧
      (report dumpTokens true).lines =
        (if dumpTokens then tokenDump tokens else []) ++ treeDump program
  /-- Unless the tokens are shown, showing the tree changes neither the verdict nor the remarks. -/
  verdict_eq : ∀ dumpTree, (report false dumpTree).verdict = (report false false).verdict
  remarks_eq : ∀ dumpTree,
    (report false dumpTree).remarks false = (report false false).remarks false
  /-- Both dumps are one behind the other. -/
  output_eq : (report true true).output = (report true false).output ++ (report false true).output

theorem complaints_singleton (e : SyntaxError) :
    complaints [e] = [e.diagnostic.format, "parser exited with 1 errors"] := by
  have hcount : "parser exited with " ++ toString ([e].length) ++ " errors" =
      "parser exited with 1 errors" := by
    rw [List.length_singleton]
    decide
  rw [complaints, hcount]
  rfl

section

variable [Stack]

theorem rejects_of_error (h : tokenize source = .error fault) (dumpTokens dumpTree : Bool) :
    Rejects source dumpTokens dumpTree :=
  Or.inl ⟨fault, h⟩

theorem rejects_of_tokens (h : tokenize source = .ok tokens) {dumpTokens dumpTree : Bool} :
    Rejects source dumpTokens dumpTree ↔
      ¬ (dumpTokens = true ∧ dumpTree = false) ∧ Session.errorsOf tokens ≠ [] := by
  simp [Rejects, h]

/-- A malformed token is told of in every report. -/
theorem channelsAgree_of_malformed {line column : Int} (h : tokenize source = .error fault)
    (hplace : malformedPlace? fault = some (line, column)) :
    ChannelsAgree source failFast fun dumpTokens dumpTree =>
      run (textJob source dumpTokens dumpTree failFast) load := by
  have hremarks : Report.remarks false
      { verdict := .ok .rejected, lines := [],
        notes := [.message (malformedMessage fault line column)] } ≠ "" := by
    have hshown := remarks_false (.ok .rejected) [] none [] [malformedMessage fault line column]
    rw [List.map_nil, List.nil_append, List.map_singleton] at hshown
    rw [hshown, Ne, joinLines_eq_empty_iff]
    exact List.cons_ne_nil _ _
  simp only [run_of_malformed h hplace]
  constructor
  case rejected_iff => simp [rejects_of_error h]
  case accepted_iff => simp [rejects_of_error h]
  case remarks_eq_empty_iff => simp [hremarks]
  case remarks_of_errors => simp [h]
  case remarks_of_first => simp [h]
  case tree_shown_iff => simp
  case tree_eq => simp
  case verdict_eq => simp
  case remarks_eq => simp
  case output_eq => rfl

/-- What is told of a text with errors of syntax: they, unless the tokens alone are asked for. -/
theorem run_parts_of_errors (h : tokenize source = .ok tokens)
    (hsome : Session.errorsOf tokens ≠ []) (load : String → Except Source.Fault (List Nat))
    (failFast dumpTokens dumpTree : Bool) :
    let report := run (textJob source dumpTokens dumpTree failFast) load
    report.lines = (if dumpTokens then tokenDump tokens else []) ∧
      (dumpTokens = true ∧ dumpTree = false →
        report.verdict = .ok .accepted ∧ report.remarks false = "") ∧
      (¬ (dumpTokens = true ∧ dumpTree = false) → report.verdict = .ok .rejected ∧
        report.remarks false = joinLines (complaints (Session.reported tokens failFast))) := by
  intro report
  by_cases hflags : dumpTokens = true ∧ dumpTree = false
  · have haccepted : report.verdict = .ok .accepted ∧ report.lines = tokenDump tokens ∧
        report.remarks false = "" := by
      obtain ⟨rfl, rfl⟩ := hflags
      have hreport : report = _ := run_tokensOnly h failFast
      rw [hreport]
      exact ⟨rfl, rfl, remarks_false _ _ _ [.lexed tokens.length] []⟩
    refine ⟨?_, fun _ => ⟨haccepted.1, haccepted.2.2⟩, fun hno => absurd hflags hno⟩
    rw [haccepted.2.1, if_pos hflags.1]
  · rcases ofTokens_of_errorsOf_ne_nil (numbersCarryValues_of_tokenize h) hsome failFast
      with ⟨events, hall⟩
    have hreport : report =
        { verdict := .ok .rejected, lines := if dumpTokens then tokenDump tokens else [],
          notes := (.lexed tokens.length :: events).map .event ++
            (complaints (Session.reported tokens failFast)).map .message } := by
      refine (run_of_tokens h hflags failFast).trans ?_
      rw [hall _ _ _ rfl]
      rfl
    rw [hreport, remarks_false]
    exact ⟨rfl, fun hyes => absurd hyes hflags, fun _ => ⟨rfl, rfl⟩⟩

/-- What is told of a program: what was asked for, and nothing else. -/
theorem run_parts_of_program (h : tokenize source = .ok tokens)
    (hnone : Session.errorsOf tokens = []) (load : String → Except Source.Fault (List Nat))
    (failFast : Bool) :
    ∃ program, (Session.ofTokens tokens failFast).parse.1 = .ok program ∧
      ∀ dumpTokens dumpTree,
        let report := run (textJob source dumpTokens dumpTree failFast) load
        report.verdict = .ok .accepted ∧ report.remarks false = "" ∧
          report.lines = (if dumpTokens then tokenDump tokens else []) ++
            (if dumpTree then treeDump program else []) := by
  rcases run_of_program h hnone load with ⟨program, hall⟩
  refine ⟨program, (hall failFast).1, fun dumpTokens dumpTree => ?_⟩
  rcases (hall failFast).2 dumpTokens dumpTree with ⟨events, hreport⟩
  intro report
  have hremarks := remarks_false (.ok .accepted) report.lines report.tree events []
  rw [List.map_nil, List.append_nil] at hremarks
  rw [show report = _ from hreport] at hremarks ⊢
  exact ⟨rfl, hremarks, rfl⟩

/-- Errors of syntax are told of in every report but the one that shows the tokens alone. -/
theorem channelsAgree_of_errors (h : tokenize source = .ok tokens)
    (hsome : Session.errorsOf tokens ≠ []) :
    ChannelsAgree source failFast fun dumpTokens dumpTree =>
      run (textJob source dumpTokens dumpTree failFast) load := by
  have hparts := run_parts_of_errors h hsome load failFast
  have hrejects : ∀ dumpTokens dumpTree,
      Rejects source dumpTokens dumpTree ↔ ¬ (dumpTokens = true ∧ dumpTree = false) := by
    intro dumpTokens dumpTree
    rw [rejects_of_tokens h, and_iff_left hsome]
  have hverdict : ∀ dumpTokens dumpTree,
      (run (textJob source dumpTokens dumpTree failFast) load).verdict =
        if dumpTokens = true ∧ dumpTree = false then .ok .accepted else .ok .rejected := by
    intro dumpTokens dumpTree
    split
    · next hflags => exact ((hparts _ _).2.1 hflags).1
    · next hflags => exact ((hparts _ _).2.2 hflags).1
  constructor
  case rejected_iff => simp [hverdict, hrejects]
  case accepted_iff => simp [hverdict, hrejects]
  case remarks_eq_empty_iff =>
    intro dumpTokens dumpTree
    by_cases hflags : dumpTokens = true ∧ dumpTree = false
    · simp [(hparts _ _).2.1 hflags]
    · rw [((hparts _ _).2.2 hflags).2, joinLines_eq_empty_iff, hverdict, if_neg hflags]
      simp [complaints]
  case remarks_of_errors =>
    rintro dumpTokens dumpTree tokens' hflags htokens - rfl
    obtain rfl := Except.ok.inj (h.symm.trans htokens)
    exact ((hparts _ _).2.2 hflags).2
  case remarks_of_first =>
    rintro dumpTokens dumpTree tokens' e hflags htokens he rfl
    obtain rfl := Except.ok.inj (h.symm.trans htokens)
    rcases List.head?_eq_some_iff.mp he with ⟨es, hes⟩
    have hfirst : Session.reported tokens true = [e] := by simp [Session.reported, hes]
    rw [((hparts _ _).2.2 hflags).2, hfirst, complaints_singleton]
  case tree_shown_iff =>
    intro dumpTokens dumpTree
    have hno := treeHead_not_mem_tokenDump tokens
    rw [(hparts _ _).1, hverdict]
    cases dumpTokens <;> cases dumpTree <;> simp [hno]
  case tree_eq => simp [hverdict]
  case verdict_eq => simp [hverdict]
  case remarks_eq =>
    intro dumpTree
    rw [((hparts false dumpTree).2.2 (by simp)).2, ((hparts false false).2.2 (by simp)).2]
  case output_eq => simp [Report.output, (hparts _ _).1, ← joinLines_append]

/-- Where there are none, nothing is remarked. -/
theorem channelsAgree_of_program (h : tokenize source = .ok tokens)
    (hnone : Session.errorsOf tokens = []) :
    ChannelsAgree source failFast fun dumpTokens dumpTree =>
      run (textJob source dumpTokens dumpTree failFast) load := by
  rcases run_parts_of_program h hnone load failFast with ⟨program, hparse, hparts⟩
  have hverdict := fun dumpTokens dumpTree => (hparts dumpTokens dumpTree).1
  have hremarks := fun dumpTokens dumpTree => (hparts dumpTokens dumpTree).2.1
  have hlines := fun dumpTokens dumpTree => (hparts dumpTokens dumpTree).2.2
  constructor
  case rejected_iff => simp [hverdict, rejects_of_tokens h, hnone]
  case accepted_iff => simp [hverdict, rejects_of_tokens h, hnone]
  case remarks_eq_empty_iff => simp [hremarks, hverdict]
  case remarks_of_errors =>
    intro dumpTokens dumpTree tokens' _ htokens hsome
    obtain rfl := Except.ok.inj (h.symm.trans htokens)
    exact absurd hnone hsome
  case remarks_of_first =>
    intro dumpTokens dumpTree tokens' e _ htokens he
    obtain rfl := Except.ok.inj (h.symm.trans htokens)
    simp [hnone] at he
  case tree_shown_iff =>
    intro dumpTokens dumpTree
    have hno := treeHead_not_mem_tokenDump tokens
    rw [hlines, hverdict]
    cases dumpTokens <;> cases dumpTree <;> simp [hno, treeDump]
  case tree_eq =>
    intro dumpTokens _
    exact ⟨tokens, program, h, hparse, by rw [hlines, if_pos rfl]⟩
  case verdict_eq => simp [hverdict]
  case remarks_eq => simp [hremarks]
  case output_eq =>
    simp only [Report.output, hlines, ← joinLines_append]
    simp

/-- On a text where no number keeps the lexer from a verdict, the channels agree with each other and
from one report to another, failing fast or not. -/
theorem run_channels (hreadable : ∀ fault, tokenize source ≠ .error (.numeral fault))
    (load : String → Except Source.Fault (List Nat)) (failFast : Bool) :
    ChannelsAgree source failFast fun dumpTokens dumpTree =>
      run (textJob source dumpTokens dumpTree failFast) load := by
  cases h : tokenize source with
  | error fault =>
    have hno : ¬ MeetsUnreadable source := by
      rw [← tokenize_numeral_iff]
      exact not_exists.mpr hreadable
    rcases tokenize_located h hno with ⟨front, ahead, -, rfl | rfl⟩
    · exact channelsAgree_of_malformed h rfl
    · exact channelsAgree_of_malformed h rfl
  | ok tokens =>
    by_cases hnone : Session.errorsOf tokens = []
    · exact channelsAgree_of_program h hnone
    · exact channelsAgree_of_errors h hnone

end

/-- A text with an error on each of two lines. -/
def twoFaultyLines : String :=
  "print )\nx = y z\n"

/-- Both errors are told of, or the first of them. -/
theorem run_channels_twoFaultyLines :
    (∀ fault, tokenize twoFaultyLines ≠ .error (.numeral fault)) ∧
      (∃ tokens, tokenize twoFaultyLines = .ok tokens ∧ (Session.errorsOf tokens).length = 2) ∧
      ∀ failFast, ChannelsAgree twoFaultyLines failFast fun dumpTokens dumpTree =>
        run (textJob twoFaultyLines dumpTokens dumpTree failFast) fun _ => .ok [] := by
  have hcount : (tokenize twoFaultyLines).toOption.map (fun tokens =>
      (Session.errorsOf tokens).length) = some 2 := by
    decide +kernel
  cases h : tokenize twoFaultyLines with
  | error fault =>
    rw [h] at hcount
    cases hcount
  | ok tokens =>
    rw [h] at hcount
    have hreadable : ∀ fault, tokenize twoFaultyLines ≠ .error (.numeral fault) := by
      intro fault hfault
      rw [h] at hfault
      cases hfault
    exact ⟨by simp, ⟨tokens, rfl, Option.some.inj hcount⟩,
      fun failFast => run_channels hreadable _ failFast⟩

end ScriptCheck.Check
