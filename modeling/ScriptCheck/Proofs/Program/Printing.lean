import ScriptCheck.Proofs.Program.Reading
import ScriptCheck.Proofs.Statement.Written

/-!
# Printing and parsing

A canonical program is written out as tokens, and a parse of them gives the program back. And every
program that a parse gives is canonical, once declared variables are taken for expressions: what
comes out of a recovery as well, since every statement of a parse was formed by tokens of the input.
-/

namespace ScriptCheck

/-! ## Tokens of a lexer -/

/-- Whether a token has the text and the value that a lexer gives it: a reserved word or an operator
is written as its kind is, a number carries its value, and no value differs from itself. -/
structure Token.IsLexed (t : Token) : Prop where
  spelled : t.IsSpelled
  carries : t.kind = .number → t.literal ≠ none
  isNaN_eq : ∀ v, t.literal = some v → v.isNaN = false

/-- Whether all tokens have. -/
def AreLexed (tokens : List Token) : Prop :=
  ∀ t ∈ tokens, t.IsLexed

namespace AreLexed

variable {i r : List Token}

theorem of_suffix (h : AreLexed i) (hr : r <:+ i) : AreLexed r :=
  fun t ht => h t (hr.mem ht)

theorem areSpelled (h : AreLexed i) : AreSpelled i :=
  fun t ht => (h t ht).spelled

theorem numbersCarryValues (h : AreLexed i) : NumbersCarryValues i :=
  fun t ht => (h t ht).carries

end AreLexed

/-! ## Literals of what is formed -/

theorem Node.isNaN_flatNames : (names : List String) → ∀ a ∈ flatNames names, a.isNaN = false
  | [] => by simp [flatNames]
  | [name] => by simp [flatNames, Symbol.isNaN]
  | name :: name' :: names => by
    simp only [flatNames, List.forall_mem_cons]
    exact ⟨rfl, rfl, isNaN_flatNames (name' :: names)⟩

theorem Node.isNaN_flatAll {ns : List Node} (h : ∀ n ∈ ns, ∀ a ∈ n.settle.flat, a.isNaN = false) :
    ∀ a ∈ flatAll (settleAll ns), a.isNaN = false := by
  induction ns with
  | nil => simp [settleAll, flatAll]
  | cons n ns ih =>
    rw [List.forall_mem_cons] at h
    simp only [settleAll, flatAll, List.forall_mem_append]
    exact ⟨h.1, ih h.2⟩

namespace Forms

variable {L : Level} {i r : List Token} {a : Nat} {n : Node}

/-- What tokens of a lexer spell has no literal that differs from itself. -/
theorem isNaN_flat_of_spelledIn {e : Node} (h : SpelledIn AreLexed e) :
    ∀ a ∈ e.flat, a.isNaN = false := by
  rcases h with ⟨s, i, r, hi, hspells⟩
  rcases hspells.shows hi.areSpelled with ⟨w, rfl, hw⟩
  intro a ha
  rw [← hw] at ha
  rcases List.mem_map.mp ha with ⟨t, ht, rfl⟩
  have hlexed := hi t (List.mem_append_left r ht)
  exact Token.isNaN_symbol hlexed.carries hlexed.isNaN_eq

/-- The first clause of a `for` is written as its expression is, and an end of line. -/
theorem flat_initializerOf (e : Node) :
    (Grammar.initializerOf e).settle.flat = e.flat ++ [.mark .eol] := by
  cases e <;> rfl

theorem isNaN_flat_forLoop {line : Int} {initializer condition increment : Option Node}
    {body : Node} (hinitializer : ∀ e ∈ initializer, ∀ a ∈ e.flat, a.isNaN = false)
    (hcondition : ∀ e ∈ condition, ∀ a ∈ e.flat, a.isNaN = false)
    (hincrement : ∀ e ∈ increment, ∀ a ∈ e.flat, a.isNaN = false)
    (hbody : ∀ a ∈ body.settle.flat, a.isNaN = false) :
    ∀ a ∈ (Grammar.forLoop line (initializer.map Grammar.initializerOf) condition increment
      body).settle.flat, a.isNaN = false := by
  have htest : ∀ a ∈ (condition.getD (.literal line (.bool true))).flat, a.isNaN = false := by
    cases condition with
    | none => simp [Node.flat, Symbol.isNaN, Literal.isNaN]
    | some e => exact hcondition e rfl
  have hstep : ∀ a ∈ Node.flatAll (Node.settleAll
      (increment.map fun e => Node.expression e.line e).toList), a.isNaN = false := by
    cases increment with
    | none => simp [Node.settleAll, Node.flatAll]
    | some e =>
      simp only [Option.map_some, Option.toList_some, Node.settleAll, Node.settle, Node.flatAll,
        Node.flat, List.forall_mem_append]
      exact ⟨⟨hincrement e rfl, by simp [Symbol.isNaN]⟩, by simp⟩
  cases initializer with
  | none =>
    simp only [Grammar.forLoop, Node.settle, Node.settleAll, Node.flat, Node.flatAll,
      List.forall_mem_append, List.forall_mem_cons, Option.map_none, Option.toList_none,
      List.nil_append]
    simp_all [Symbol.isNaN]
  | some e =>
    have hfirst := hinitializer e rfl
    simp only [Grammar.forLoop, Node.settle, Node.settleAll, Node.flat, Node.flatAll,
      List.forall_mem_append, List.forall_mem_cons, Option.map_some, Option.toList_some,
      List.cons_append, List.nil_append, flat_initializerOf]
    simp_all [Symbol.isNaN]

/-- Nor has what they form. -/
theorem isNaN_flat (h : Forms L i r a n) (hi : AreLexed i) :
    ∀ a ∈ n.settle.flat, a.isNaN = false := by
  refine h.tree_induct (P := fun _ n => ∀ a ∈ n.settle.flat, a.isNaN = false)
    (fun i r hi hr => hi.of_suffix hr) ?_ ?_ ?_ ?_ ?_ ?_ ?_ ?_ ?_ ?_ ?_ hi
  · intro line e he
    simp only [Node.settle, Node.flat, List.forall_mem_append, List.forall_mem_cons]
    exact ⟨rfl, isNaN_flat_of_spelledIn he, rfl, by simp⟩
  · intro line e he
    simp only [Node.settle, Node.flat, List.forall_mem_append, List.forall_mem_cons]
    exact ⟨rfl, isNaN_flat_of_spelledIn he, rfl, by simp⟩
  · intro line e he
    simp only [Node.settle, Node.flat, List.forall_mem_append, List.forall_mem_cons]
    exact ⟨isNaN_flat_of_spelledIn he, rfl, by simp⟩
  · intro line e n he hn
    simp only [Node.settle, Node.flat, List.forall_mem_append, List.forall_mem_cons]
    exact ⟨rfl, isNaN_flat_of_spelledIn he, rfl, hn⟩
  · intro line e n m he hn _ hm
    simp only [Node.settle, Node.flat, List.forall_mem_append, List.forall_mem_cons]
    exact ⟨rfl, isNaN_flat_of_spelledIn he, rfl, hn, rfl, hm⟩
  · intro line e n he hn
    simp only [Node.settle, Node.flat, List.forall_mem_append, List.forall_mem_cons]
    exact ⟨rfl, rfl, isNaN_flat_of_spelledIn he, rfl, hn⟩
  · intro line initializer condition increment n hinitializer hcondition hincrement hn
    exact isNaN_flat_forLoop (fun e he => isNaN_flat_of_spelledIn (hinitializer e he))
      (fun e he => isNaN_flat_of_spelledIn (hcondition e he))
      (fun e he => isNaN_flat_of_spelledIn (hincrement e he)) hn
  · intro n hn
    exact hn
  · intro line ns hns
    simp only [Node.settle, Node.flat, List.forall_mem_append, List.forall_mem_cons]
    exact ⟨rfl, Node.isNaN_flatAll hns, rfl, by simp⟩
  · intro line name params body hbody
    simp only [Node.settle, Node.flat, List.forall_mem_append, List.forall_mem_cons]
    exact ⟨rfl, rfl, rfl, Node.isNaN_flatNames params, rfl, hbody⟩
  · intro n hn
    exact hn

end Forms

/-! ## Printing and parsing -/

namespace Node

/-- Whether tokens are what a tree is written as, wherever they stand. -/
structure IsWrittenAs (n : Node) (tokens : List Token) : Prop where
  spelled : AreSpelled tokens
  carry : NumbersCarryValues tokens
  symbols_eq : tokens.map Token.symbol = n.flat

theorem flat_isProper_of_isCanonicalProgram {P : Node} (h : P.isCanonicalProgram = true) :
    ∀ s ∈ P.flat, s.isProper = true := by
  cases P with
  | program _ statements => exact flatAll_isProper statements h
  | _ => simp [isCanonicalProgram] at h

theorem isWrittenAs_tokens {P : Node} (h : P.isCanonicalProgram = true) :
    P.IsWrittenAs P.tokens where
  spelled := tokens_spelled (flat_isProper_of_isCanonicalProgram h)
  carry := tokens_carry (flat_isProper_of_isCanonicalProgram h)
  symbols_eq := map_symbol_tokens (flat_isProper_of_isCanonicalProgram h)

theorem IsWrittenAs.takeWhile_eq {P : Node} {tokens : List Token} (h : P.IsWrittenAs tokens)
    (hP : P.isCanonicalProgram = true) : tokens.takeWhile Cursor.isBeforeEnd = tokens := by
  refine Symbol.takeWhile_of_isProper fun t ht => ?_
  refine flat_isProper_of_isCanonicalProgram hP _ ?_
  rw [← h.symbols_eq]
  exact List.mem_map.mpr ⟨t, ht, rfl⟩

/-- What a canonical program is written as forms the program, lines aside. -/
theorem IsWrittenAs.forms {P : Node} {tokens : List Token} (h : P.IsWrittenAs tokens)
    (hP : P.isCanonicalProgram = true) :
    ∃ ns, FormsProgram tokens P.nesting ns ∧ (program 1 ns).eraseLines = P.eraseLines := by
  cases P with
  | program line statements =>
    have hshows : Shows (flatAll statements) tokens [] := ⟨tokens, by simp, h.symbols_eq⟩
    have hsequence : ∃ ns, FormsProgram tokens (nestingWithin 0 statements) ns ∧
        eraseAllLines ns = eraseAllLines statements :=
      sequence_of_allDeclared statements hP h.spelled hshows rfl (by decide) (by decide)
    rcases hsequence with ⟨ns, hforms, hsame⟩
    refine ⟨ns, hforms, ?_⟩
    rw [eraseLines, eraseLines, hsame]
  | _ => simp [isCanonicalProgram] at hP

theorem agrees_self_of_isCanonicalProgram {P : Node} (h : P.isCanonicalProgram = true)
    (hnan : ∀ a ∈ P.flat, a.isNaN = false) : P.agrees P = true := by
  cases P with
  | program _ statements => exact allAgree_self_of_allDeclared statements h hnan
  | _ => simp [isCanonicalProgram] at h

end Node

namespace Session

section

variable [Stack]

/-- Tokens that a canonical program is written as are parsed as the program, without an error. -/
theorem parse_of_isWrittenAs {P : Node} (hP : P.isCanonicalProgram = true)
    (hnan : ∀ a ∈ P.flat, a.isNaN = false) (hfits : P.nesting ≤ Nesting.limit)
    {tokens : List Token} (h : P.IsWrittenAs tokens) :
    ∃ P', (ofTokens tokens false).parse.1 = .ok P' ∧ P'.agrees P = true ∧
      P'.eraseLines = P.eraseLines ∧ (ofTokens tokens false).parse.2.reporter.errors = #[] := by
  rcases h.forms hP with ⟨ns, hforms, hsame⟩
  have hwhole := h.takeWhile_eq hP
  rw [← hwhole] at hforms
  rcases parse_of_formsProgram hforms with ⟨-, hresult, herrors⟩ | ⟨hno, -⟩
  · have hself := Node.agrees_self_of_isCanonicalProgram hP hnan
    exact ⟨_, hresult, Node.agrees_of_eraseLines hsame hself, hsame, herrors⟩
  · exact absurd hfits hno

/-- What a parse of tokens of a lexer gives is a canonical program in which no literal differs from
itself, once declared variables are taken for expressions. -/
theorem parse_isCanonical {tokens : List Token}
    (hlexed : AreLexed (tokens.takeWhile Cursor.isBeforeEnd)) :
    ∃ P, (ofTokens tokens false).parse.1 = .ok P ∧ P.settle.isCanonicalProgram = true ∧
      ∀ a ∈ P.settle.flat, a.isNaN = false := by
  rcases parse_forms hlexed.numbersCarryValues with ⟨ns, hresult, hall⟩
  refine ⟨_, hresult, ?_, ?_⟩
  · rw [Node.settle, Node.isCanonicalProgram]
    refine Node.allDeclared_settleAll fun n hn => ?_
    rcases hall n hn with ⟨i, r, need, hsuffix, hforms⟩
    exact hforms.isCanonicalAs (hlexed.of_suffix hsuffix).areSpelled
  · rw [Node.settle, Node.flat]
    refine Node.isNaN_flatAll fun n hn => ?_
    rcases hall n hn with ⟨i, r, need, hsuffix, hforms⟩
    exact hforms.isNaN_flat (hlexed.of_suffix hsuffix)

/-- Printing and then parsing gives a canonical program back, and what a parse gives, well formed or
not, is canonical where no variable is declared, and settled it always is. -/
theorem parse_printed :
    (∀ P : Node, P.isCanonicalProgram = true → (∀ a ∈ P.flat, a.isNaN = false) →
      P.nesting ≤ Nesting.limit → P.IsWrittenAs P.tokens ∧
        ∀ tokens, P.IsWrittenAs tokens → ∃ P', (ofTokens tokens false).parse.1 = .ok P' ∧
          P'.agrees P = true ∧ P'.eraseLines = P.eraseLines ∧
          (ofTokens tokens false).parse.2.reporter.errors = #[]) ∧
    (∀ tokens : List Token, AreLexed (tokens.takeWhile Cursor.isBeforeEnd) →
      ∃ P, (ofTokens tokens false).parse.1 = .ok P ∧
        (P.settle.isCanonicalProgram = true ∧ ∀ a ∈ P.settle.flat, a.isNaN = false) ∧
        (P.declaresVariable = false →
          P.isCanonicalProgram = true ∧ ∀ a ∈ P.flat, a.isNaN = false)) := by
  constructor
  · intro P hP hnan hfits
    refine ⟨Node.isWrittenAs_tokens hP, ?_⟩
    intro tokens h
    exact parse_of_isWrittenAs hP hnan hfits h
  · intro tokens hlexed
    rcases parse_isCanonical hlexed with ⟨P, hresult, hP, hnan⟩
    refine ⟨P, hresult, ⟨hP, hnan⟩, ?_⟩
    intro hdeclares
    rw [P.settle_eq_self hdeclares] at hP hnan
    exact ⟨hP, hnan⟩

end

/-- A function, and a conditional with one inside that has the first `else`. -/
def sampleProgram : Node :=
  .program 0
    [.function 0 "f" ["x", "y"]
      (.block 0 [.return_ 0 (.binary 0 "+" (.var 0 "x") (.literal 0 (.text "one")))]),
    .conditional 0 (.logical 0 "and" (.var 0 "a") (.unary 0 "!" (.var 0 "b")))
      (.conditional 0 (.var 0 "c") (.print 0 (.var 0 "c")) (some (.print 0 (.literal 0 .nil))))
      (some (.expression 0 (.assign 0 "a" (.call 0 (.var 0 "f") [.var 0 "a", .var 0 "b"]))))]

/-- The tokens of a line that is no statement and of a loop that declares its variable:
`print )` and then `for (i and and) print 1`. -/
def brokenLine : List Token :=
  [⟨.keyword .print, "print", 1, 1, none⟩, ⟨.operator .rparen, ")", 1, 7, none⟩,
    ⟨.eol, "", 1, 8, none⟩, ⟨.keyword .for_, "for", 2, 1, none⟩,
    ⟨.operator .lparen, "(", 2, 5, none⟩, ⟨.ident, "i", 2, 6, none⟩,
    ⟨.keyword .and_, "and", 2, 8, none⟩, ⟨.keyword .and_, "and", 2, 12, none⟩,
    ⟨.operator .rparen, ")", 2, 15, none⟩, ⟨.keyword .print, "print", 2, 17, none⟩,
    ⟨.number, "1", 2, 23, some (.int 1)⟩, ⟨.eol, "", 2, 24, none⟩]

theorem brokenLine_lexed : AreLexed (brokenLine.takeWhile Cursor.isBeforeEnd) := by
  change AreLexed brokenLine
  intro t ht
  simp only [brokenLine, List.mem_cons, List.not_mem_nil, or_false] at ht
  rcases ht with rfl | rfl | rfl | rfl | rfl | rfl | rfl | rfl | rfl | rfl | rfl | rfl <;>
    constructor <;>
      simp [Token.IsSpelled, Kind.lexeme?, Operator.symbol, Keyword.word, Literal.isNaN]

/-- Both halves at work. -/
theorem parse_printed_sample :
    (∃ P, (ofTokens sampleProgram.tokens false).parse.1 = .ok P ∧ P.agrees sampleProgram = true) ∧
      ∃ P, (ofTokens brokenLine false).parse.1 = .ok P ∧ P.settle.isCanonicalProgram = true := by
  constructor
  · rcases parse_printed.1 sampleProgram (by decide) (by decide) (by decide) with ⟨hwritten, hall⟩
    rcases hall _ hwritten with ⟨P, hresult, hagrees, -⟩
    exact ⟨P, hresult, hagrees⟩
  · rcases parse_printed.2 brokenLine brokenLine_lexed with ⟨P, hresult, ⟨hcanonical, -⟩, -⟩
    exact ⟨P, hresult, hcanonical⟩

end Session

end ScriptCheck
