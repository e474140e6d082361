import ScriptCheck.Proofs.Check.Verdict

/-!
# Programs that outgrow every stack

The operands of a long sum are read in a loop, so a sum is nested no deeper than a name. Its tree is
as deep as the sum is long. Hence a text can outgrow any stack without being nested at all
(`Check.exists_outgrowsStack`), and what breaks off its check is that the tree is to be shown, and
not that it is made (`Check.exists_brokenOff`).
-/

namespace ScriptCheck

open ScriptCheck.Text ScriptCheck.Lexeme

namespace Node

mutual

/-- How deep it is to tell a tree does not depend on its lines. -/
theorem outlineDepth_eraseLines : (n : Node) → n.eraseLines.outlineDepth = n.outlineDepth
  | program _ statements => by
    simp only [eraseLines, outlineDepth, outlineDepthAll_eraseAllLines statements]
  | function _ _ _ body => by simp only [eraseLines, outlineDepth, body.outlineDepth_eraseLines]
  | binding _ _ none => rfl
  | binding _ _ (some initializer) => by
    simp only [eraseLines, outlineDepth, initializer.outlineDepth_eraseLines]
  | block _ statements => by
    simp only [eraseLines, outlineDepth, outlineDepthAll_eraseAllLines statements]
  | conditional _ condition thenBranch none => by
    simp only [eraseLines, outlineDepth, condition.outlineDepth_eraseLines,
      thenBranch.outlineDepth_eraseLines]
  | conditional _ condition thenBranch (some elseBranch) => by
    simp only [eraseLines, outlineDepth, condition.outlineDepth_eraseLines,
      thenBranch.outlineDepth_eraseLines, elseBranch.outlineDepth_eraseLines]
  | loop _ condition body => by
    simp only [eraseLines, outlineDepth, condition.outlineDepth_eraseLines,
      body.outlineDepth_eraseLines]
  | print _ value => by simp only [eraseLines, outlineDepth, value.outlineDepth_eraseLines]
  | return_ _ value => by simp only [eraseLines, outlineDepth, value.outlineDepth_eraseLines]
  | expression _ value => by simp only [eraseLines, outlineDepth, value.outlineDepth_eraseLines]
  | assign _ _ value => by simp only [eraseLines, outlineDepth, value.outlineDepth_eraseLines]
  | logical _ _ left right => by
    simp only [eraseLines, outlineDepth, left.outlineDepth_eraseLines,
      right.outlineDepth_eraseLines]
  | binary _ _ left right => by
    simp only [eraseLines, outlineDepth, left.outlineDepth_eraseLines,
      right.outlineDepth_eraseLines]
  | unary _ _ operand => by simp only [eraseLines, outlineDepth, operand.outlineDepth_eraseLines]
  | call _ callee arguments => by
    simp only [eraseLines, outlineDepth, callee.outlineDepth_eraseLines,
      outlineDepthAll_eraseAllLines arguments]
  | literal .. => rfl
  | var .. => rfl
  | grouping _ inner => by simp only [eraseLines, outlineDepth, inner.outlineDepth_eraseLines]
  | bare _ => rfl

theorem outlineDepthAll_eraseAllLines :
    (ns : List Node) → outlineDepthAll (eraseAllLines ns) = outlineDepthAll ns
  | [] => rfl
  | n :: ns => by
    simp only [eraseAllLines, outlineDepthAll, n.outlineDepth_eraseLines,
      outlineDepthAll_eraseAllLines ns]

end

/-! ## The tree of a sum -/

/-- A name with so many of the same added to it. -/
def sum : Nat → Node
  | 0 => .var 0 "a"
  | k + 1 => .binary 0 "+" (sum k) (.var 0 "a")

/-- The sum as a program. -/
def sumProgram (k : Nat) : Node :=
  .program 0 [.expression 0 (sum k)]

variable (k : Nat)

theorem outlineDepth_sum : (sum k).outlineDepth = 2 * k + 3 := by
  induction k with
  | zero => rfl
  | succ k ih =>
    rw [sum, outlineDepth, ih, outlineDepth]
    omega

theorem nesting_sum : (sum k).nesting = 0 := by
  induction k with
  | zero => rfl
  | succ k ih =>
    rw [sum, nesting, ih, nesting]
    rfl

theorem isCanonical_sum : (sum k).isCanonical = true := by
  induction k with
  | zero => rfl
  | succ k ih =>
    have hjoins : joins (!·.isLogical) "+" (sum k) (.var 0 "a") = true := by
      cases k <;> rfl
    rw [sum, isCanonical, hjoins, ih]
    rfl

theorem flat_sum :
    (sum k).flat =
      .name "a" :: (List.replicate k [Symbol.lexeme "+", Symbol.name "a"]).flatten := by
  induction k with
  | zero => rfl
  | succ k ih =>
    rw [sum, flat, ih, List.replicate_succ', List.flatten_append]
    rfl

theorem isCanonicalProgram_sumProgram : (sumProgram k).isCanonicalProgram = true := by
  simp [sumProgram, isCanonicalProgram, allDeclared, isCanonicalAs, isCanonical_sum]

theorem nesting_sumProgram : (sumProgram k).nesting = 0 := by
  simp [sumProgram, nesting, nestingWithin, nesting_sum]

theorem lt_outlineDepth_sumProgram : k < (sumProgram k).outlineDepth := by
  simp only [sumProgram, outlineDepth, outlineDepthAll, outlineDepth_sum]
  omega

end Node

/-! ## The text of a sum -/

/-- What is written behind the first name of a sum, up to the end of its line. -/
def summands (k : Nat) : List Char :=
  (List.replicate k ['+', 'a']).flatten ++ ['\n']

/-- The text of a sum. -/
def sumText (k : Nat) : String :=
  String.ofList ('a' :: summands k)

theorem summands_succ (k : Nat) : summands (k + 1) = '+' :: 'a' :: summands k := by
  simp [summands, List.replicate_succ]

theorem lexes_name (k : Nat) {line column : Int} :
    Lexes ['a'] (summands k) { kind := .ident, text := "a", line, column } := by
  have hnext : NotNext isWordPart (summands k) := by
    intro c hc
    cases k with
    | zero =>
      obtain rfl := Option.some.inj hc
      decide
    | succ k =>
      rw [summands_succ] at hc
      obtain rfl := Option.some.inj hc
      decide
  exact .word (by decide) (by simp) hnext

theorem lexes_plus (rest : List Char) {line column : Int} :
    Lexes ['+'] ('a' :: rest) { kind := .operator .plus, text := "+", line, column } := by
  have hsecond : NotNext Operator.isSecond ('a' :: rest) := by
    intro c hc
    obtain rfl := Option.some.inj hc
    decide
  have hlongest : ∀ op : Operator, op.Starts (Operator.plus.symbol.toList ++ 'a' :: rest) →
      op.symbol.length ≤ Operator.plus.symbol.length :=
    fun _ hstarts => (hstarts.of_append (List.cons_ne_nil '+' []) hsecond).length_le
  exact .operator hlongest

/-- The signs and the names of a sum are its tokens, wherever it is read. -/
theorem exists_tiles_summands (before : List Char) (k : Nat) :
    ∃ front, Tiles Lexes before (summands k) (front ++ [.endBehind (before ++ summands k)]) ∧
      front.map Token.symbol =
        (List.replicate k [Symbol.lexeme "+", Symbol.name "a"]).flatten ++ [.mark .eol] := by
  induction k generalizing before with
  | zero =>
    have hend : Tiles Lexes (before ++ ['\n']) [] [.endBehind (before ++ ['\n'] ++ [])] :=
      .finish (.nil [])
    have heol := Tiles.next_at_start Lexes.eol ⟨rfl, rfl⟩ hend
    rw [List.append_assoc] at heol
    exact ⟨[_], heol, rfl⟩
  | succ k ih =>
    rcases ih (before ++ ['+'] ++ ['a']) with ⟨front, htiles, hsymbols⟩
    have hname := Tiles.next_at_start (lexes_name k) ⟨rfl, rfl⟩ htiles
    have hplus := Tiles.next_at_start (lexes_plus (summands k)) ⟨rfl, rfl⟩ hname
    rw [List.append_assoc, List.append_assoc] at hplus
    refine ⟨_ :: _ :: front, hplus, ?_⟩
    rw [List.replicate_succ, List.flatten_cons, List.map_cons, List.map_cons, hsymbols]
    rfl

/-- The text of a sum is what its program is written as. -/
theorem tokenize_sumText (k : Nat) :
    ∃ tokens, tokenize (sumText k) = .ok tokens ∧
      (Node.sumProgram k).IsWrittenAs (tokens.takeWhile Cursor.isBeforeEnd) := by
  rcases exists_tiles_summands ['a'] k with ⟨front, htiles, hsymbols⟩
  have hall : Tiles Lexes [] ('a' :: summands k) _ :=
    .next_at_start (lexes_name k) ⟨rfl, rfl⟩ htiles
  refine ⟨_, by rw [tokenize_eq_ok_iff, sumText, String.toList_ofList]; exact hall, ?_⟩
  rcases hall.exists_end with ⟨front', heq, hread : AreRead front'⟩
  obtain ⟨rfl, -⟩ := List.append_inj' (List.cons_append.trans heq) rfl
  rw [← List.cons_append, Cursor.takeWhile_isBeforeEnd_append hread.ne_eof]
  have hend : [Token.endBehind (['a'] ++ summands k)].takeWhile Cursor.isBeforeEnd = [] := rfl
  rw [hend, List.append_nil]
  refine ⟨hread.areLexed.areSpelled, hread.areLexed.numbersCarryValues, ?_⟩
  rw [List.map_cons, hsymbols, Node.sumProgram, Node.flat, Node.flatAll, Node.flat, Node.flat_sum]
  simp [Node.flatAll, Token.symbol]

/-! ## A program that outgrows a stack -/

namespace Check

/-- For every stack there is a text that outgrows it. -/
theorem exists_outgrowsStack [Stack] : ∃ source, OutgrowsStack source := by
  rcases tokenize_sumText Stack.outline with ⟨tokens, h, hwritten⟩
  rcases hwritten.forms (Node.isCanonicalProgram_sumProgram _) with ⟨ns, hforms, hsame⟩
  rw [Node.nesting_sumProgram] at hforms
  rcases Session.parse_of_formsProgram hforms with ⟨-, hparse, hnone⟩ | ⟨hno, -⟩
  · refine ⟨_, tokens, _, h, by simp [Session.errorsOf, hnone], hparse, ?_⟩
    rw [← Node.outlineDepth_eraseLines, hsame, Node.outlineDepth_eraseLines]
    exact Node.lt_outlineDepth_sumProgram _
  · exact absurd (Nat.zero_le _) hno

/-- For every stack there is a text that is accepted, but breaks the check off when its tree is to
be shown. -/
theorem exists_brokenOff [Stack] (load : String → Except Source.Fault (List Nat)) :
    ∃ source, ∀ dumpTokens failFast,
      (∃ report, runOnStack (textJob source dumpTokens false failFast) load = .told report ∧
        report.verdict = .ok .accepted) ∧
      ∃ lines notes,
        runOnStack (textJob source dumpTokens true failFast) load = .brokenOff lines notes := by
  rcases exists_outgrowsStack with ⟨source, houtgrows⟩
  refine ⟨source, fun dumpTokens failFast => ⟨?_, ?_⟩⟩
  · rcases houtgrows with ⟨tokens, -, h, hnone, -, -⟩
    rcases run_of_program h hnone load with ⟨program, hall⟩
    rcases (hall failFast).2 dumpTokens false with ⟨events, hreport⟩
    exact ⟨_, runOnStack_of_tree_eq_none (by rw [hreport]; rfl), by rw [hreport]⟩
  · rcases runOnStack_of_outgrows rfl houtgrows with ⟨tokens, events, -, hends⟩
    exact ⟨_, _, hends⟩

end Check

end ScriptCheck
