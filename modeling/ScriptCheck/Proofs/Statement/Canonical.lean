import ScriptCheck.Proofs.Expression.Canonical
import ScriptCheck.Proofs.Statement.Forming

/-!
# Statements that are written as they are read

`Node.isCanonicalAs` says which trees can be written as a declaration, a statement or a block. The
expressions in them have to be canonical, functions stand in lists of declarations only, and where
a conditional has an `else`, its branch must not end in one that could take it (`Node.endsOpen`).

Tokens form canonical trees only (`Forms.isCanonicalAs`), once the variable that a `for` declares is
taken for an expression: nothing is written for a declaration of that kind. And what a canonical
tree is written as forms it, lines aside (`reforms_of_isCanonicalAs`).
-/

namespace ScriptCheck

namespace Node

/-- Whether a statement ends in a conditional that an `else` behind it would belong to. -/
def endsOpen : Node → Bool
  | conditional _ _ _ none => true
  | conditional _ _ _ (some elseBranch) => elseBranch.endsOpen
  | loop _ _ body => body.endsOpen
  | _ => false

mutual

/-- Whether a tree is written as it is read on a level. -/
def isCanonicalAs : Node → Level → Bool
  | function _ _ _ body, L => L == .declaration && body.isCanonicalAs .block
  | block _ statements, _ => allDeclared statements
  | conditional _ condition thenBranch none, L =>
    L != .block && condition.isCanonical && thenBranch.isCanonicalAs .statement
  | conditional _ condition thenBranch (some elseBranch), L =>
    L != .block && condition.isCanonical && thenBranch.isCanonicalAs .statement &&
      !thenBranch.endsOpen && elseBranch.isCanonicalAs .statement
  | loop _ condition body, L =>
    L != .block && condition.isCanonical && body.isCanonicalAs .statement
  | print _ value, L | return_ _ value, L | expression _ value, L =>
    L != .block && value.isCanonical
  | _, _ => false

/-- Whether several trees are declarations that are written as they are read. -/
def allDeclared : List Node → Bool
  | [] => true
  | n :: ns => n.isCanonicalAs .declaration && allDeclared ns

end

/-- Whether a tree is a program that is written as it is read. -/
def isCanonicalProgram : Node → Bool
  | program _ statements => allDeclared statements
  | _ => false

mutual

/-- A tree in which the name alone is evaluated where a `for` declares its variable. -/
def settle : Node → Node
  | program line statements => program line (settleAll statements)
  | function line name params body => function line name params body.settle
  | binding line name none => expression line (var line name)
  | block line statements => block line (settleAll statements)
  | conditional line condition thenBranch none => conditional line condition thenBranch.settle none
  | conditional line condition thenBranch (some elseBranch) =>
    conditional line condition thenBranch.settle (some elseBranch.settle)
  | loop line condition body => loop line condition body.settle
  | n => n

/-- The same for several trees. -/
def settleAll : List Node → List Node
  | [] => []
  | n :: ns => n.settle :: settleAll ns

end

theorem endsOpen_settle : (n : Node) → n.settle.endsOpen = n.endsOpen
  | conditional _ _ _ (some elseBranch) => elseBranch.endsOpen_settle
  | loop _ _ body => body.endsOpen_settle
  | binding _ _ none | binding _ _ (some _) | conditional _ _ _ none => rfl
  | program .. | function .. | block .. | print .. | return_ .. | expression .. | assign .. => rfl
  | logical .. | binary .. | unary .. | call .. | literal .. | var .. | grouping .. | bare _ => rfl

mutual

/-- Whether a `for` in a tree declares its variable. -/
def declaresVariable : Node → Bool
  | program _ statements | block _ statements => anyDeclaresVariable statements
  | function _ _ _ body => body.declaresVariable
  | binding .. => true
  | conditional _ _ thenBranch none => thenBranch.declaresVariable
  | conditional _ _ thenBranch (some elseBranch) =>
    thenBranch.declaresVariable || elseBranch.declaresVariable
  | loop _ _ body => body.declaresVariable
  | _ => false

/-- Whether one does in any of several trees. -/
def anyDeclaresVariable : List Node → Bool
  | [] => false
  | n :: ns => n.declaresVariable || anyDeclaresVariable ns

end

mutual

/-- Nothing is settled where no variable is declared. -/
theorem settle_eq_self : (n : Node) → n.declaresVariable = false → n.settle = n
  | program _ statements, h => by rw [settle, settleAll_eq_self statements h]
  | function _ _ _ body, h => by rw [settle, settle_eq_self body h]
  | block _ statements, h => by rw [settle, settleAll_eq_self statements h]
  | conditional _ _ thenBranch none, h => by rw [settle, settle_eq_self thenBranch h]
  | conditional _ _ thenBranch (some elseBranch), h => by
    rw [declaresVariable, Bool.or_eq_false_iff] at h
    rw [settle, settle_eq_self thenBranch h.1, settle_eq_self elseBranch h.2]
  | loop _ _ body, h => by rw [settle, settle_eq_self body h]
  | print .., _ | return_ .., _ | expression .., _ | assign .., _ | logical .., _ => rfl
  | binary .., _ | unary .., _ | call .., _ | literal .., _ | var .., _ | grouping .., _ => rfl
  | bare _, _ => rfl

theorem settleAll_eq_self : (ns : List Node) → anyDeclaresVariable ns = false → settleAll ns = ns
  | [], _ => rfl
  | n :: ns, h => by
    rw [anyDeclaresVariable, Bool.or_eq_false_iff] at h
    rw [settleAll, settle_eq_self n h.1, settleAll_eq_self ns h.2]

end

/-- What is canonical as a block is so as a statement, and what is so as a statement is so as a
declaration. -/
theorem isCanonicalAs_mono {n : Node} {L M : Level} (h : n.isCanonicalAs L = true)
    (hLM : L = .block ∨ (L = .statement ∧ M = .declaration)) : n.isCanonicalAs M = true := by
  cases n with
  | conditional _ _ _ elseBranch =>
    cases elseBranch <;> rcases hLM with rfl | ⟨rfl, rfl⟩ <;> simp_all [isCanonicalAs]
  | _ => rcases hLM with rfl | ⟨rfl, rfl⟩ <;> simp_all [isCanonicalAs]

theorem allDeclared_settleAll {ns : List Node}
    (h : ∀ n ∈ ns, n.settle.isCanonicalAs .declaration = true) :
    allDeclared (settleAll ns) = true := by
  induction ns with
  | nil => rfl
  | cons n ns ih =>
    rw [List.forall_mem_cons] at h
    rw [settleAll, allDeclared, h.1, ih h.2]
    rfl

/-- A block is closed. -/
theorem endsOpen_of_block {n : Node} (h : n.isCanonicalAs .block = true) : n.endsOpen = false := by
  cases n with
  | conditional _ _ _ elseBranch => cases elseBranch <;> simp [isCanonicalAs] at h
  | loop _ _ _ => simp [isCanonicalAs] at h
  | _ => rfl

end Node

/-! ## What is formed is canonical -/

namespace Forms

variable {L : Level} {i r : List Token} {a : Nat} {n : Node}

/-- No `else` stands behind a statement that would take it. -/
theorem nextKind_ne_else (h : Forms L i r a n) (hopen : n.endsOpen = true) :
    nextKind (dropBlank r) ≠ .keyword .else_ := by
  induction h using Forms.induct with
  | conditional _ _ _ _ hno _ =>
    rw [dropBlank_dropBlank]
    exact hno
  | alternative _ _ _ _ _ _ _ _ ih => exact ih hopen
  | loop _ _ _ _ _ ih => exact ih hopen
  | blockStatement _ ih => exact ih hopen
  | declared _ ih => exact ih hopen
  | _ => simp [Node.endsOpen, Grammar.forLoop] at hopen

/-- Whether an expression is spelled somewhere in tokens of which `A` holds. -/
def SpelledIn (A : List Token → Prop) (e : Node) : Prop :=
  ∃ s i r, A i ∧ Spells .assignment s i r e

theorem spelledIn_of_clause {A : List Token → Prop} {stop : Kind} {clause : Option Node}
    (h : Clause stop i r clause) (hi : A i) : ∀ e ∈ clause, SpelledIn A e := by
  intro e he
  cases h with
  | none _ => cases he
  | some _ hspells =>
    obtain rfl := Option.some.inj he
    exact ⟨_, _, _, hi, hspells⟩

section

variable {A : List Token → Prop} (hA : ∀ i r, A i → r <:+ i → A r)
  {P : Level → Node → Prop}
  (print : ∀ line e, SpelledIn A e → P .statement (.print line e))
  (return_ : ∀ line e, SpelledIn A e → P .statement (.return_ line e))
  (expression : ∀ line e, SpelledIn A e → P .statement (.expression line e))
  (conditional : ∀ line e n, SpelledIn A e → P .statement n →
    P .statement (.conditional line e n none))
  (alternative : ∀ line e n m, SpelledIn A e → P .statement n → n.endsOpen = false →
    P .statement m → P .statement (.conditional line e n (some m)))
  (loop : ∀ line e n, SpelledIn A e → P .statement n → P .statement (.loop line e n))
  (forLoop : ∀ line (initializer condition increment : Option Node) n,
    (∀ e ∈ initializer, SpelledIn A e) → (∀ e ∈ condition, SpelledIn A e) →
    (∀ e ∈ increment, SpelledIn A e) → P .statement n → P .statement
      (Grammar.forLoop line (initializer.map Grammar.initializerOf) condition increment n))
  (blockStatement : ∀ n, P .block n → P .statement n)
  (block : ∀ line ns, (∀ n ∈ ns, P .declaration n) → P .block (.block line ns))
  (function : ∀ line name params body, P .block body →
    P .declaration (.function line name params body))
  (declared : ∀ n, P .statement n → P .declaration n)

include hA print return_ expression conditional alternative loop forLoop blockStatement block
  function declared

/-- Induction on the tree that is formed: where `A` holds of the tokens and of all that is left of
them, the places are no matter. The branch in front of an `else` is closed. -/
theorem tree_induct (h : Forms L i r a n) (hi : A i) : P L n := by
  induction h using Forms.induct with
  | print _ he _ => exact print _ _ ⟨_, _, _, hA _ _ hi (List.suffix_cons _ _), he⟩
  | return_ _ he _ => exact return_ _ _ ⟨_, _, _, hA _ _ hi (List.suffix_cons _ _), he⟩
  | expression he _ => exact expression _ _ ⟨_, _, _, hi, he⟩
  | @conditional i j k a start e n _ he _ _ _ ih =>
    have hi' := hA _ _ hi (List.suffix_cons start i)
    have hj := hA _ _ hi' ((dropBlank_suffix j).trans he.spans.suffix)
    exact conditional _ _ _ ⟨_, _, _, hi', he⟩ (ih hj)
  | @alternative i j k l r a b start other e n m _ he _ hn hk hother _ ih ihElse =>
    have hi' := hA _ _ hi (List.suffix_cons start i)
    have hj := hA _ _ hi' ((dropBlank_suffix j).trans he.spans.suffix)
    have hrest := hA _ _ hj ((dropBlank_suffix k).trans hn.spans.suffix)
    rw [hk] at hrest
    have hl := hA _ _ hrest ((dropBlank_suffix l).trans (List.suffix_cons other l))
    -- The branch is not open, since it leaves the `else` behind it.
    have hclosed : n.endsOpen = false := by
      rw [Bool.eq_false_iff]
      intro hopen
      have hno := hn.nextKind_ne_else hopen
      rw [hk] at hno
      exact hno hother
    exact alternative _ _ _ _ ⟨_, _, _, hi', he⟩ (ih hj) hclosed (ihElse hl)
  | @loop i j r a start opening closing e n _ _ he _ _ ih =>
    have hi' := hA _ _ hi (suffix_cons_cons start opening i)
    have hj := hA _ _ hi' ((dropBlank_suffix j).trans
      ((List.suffix_cons closing j).trans he.spans.suffix))
    exact loop _ _ _ ⟨_, _, _, hi', he⟩ (ih hj)
  | @forLoop i j k l r a start opening and₁ and₂ closing initializer condition increment n _ _
      hinitializer hcondition hincrement _ ih =>
    have hi' := hA _ _ hi (suffix_cons_cons start opening i)
    have hj := hA _ _ hi' (hinitializer.inExpression rfl).suffix
    have hk := hA _ _ hj (hcondition.inExpression rfl).suffix
    have hl := hA _ _ hk ((dropBlank_suffix l).trans (hincrement.inExpression rfl).suffix)
    exact forLoop _ _ _ _ _ (spelledIn_of_clause hinitializer hi')
      (spelledIn_of_clause hcondition hj) (spelledIn_of_clause hincrement hk) (ih hl)
  | blockStatement _ ih => exact blockStatement _ (ih hi)
  | @block i r a opening closing ns _ hns =>
    have hi' := hA _ _ hi ((dropBlank_suffix i).trans (List.suffix_cons opening i))
    refine block _ _ ?_
    generalize dropBlank i = j, closing :: r = k at hns hi'
    induction hns with
    | done _ => simp
    | next hn _ ih =>
      rcases hn with ⟨hforms, hP⟩
      have hrest := hA _ _ hi' ((dropBlank_suffix _).trans hforms.spans.suffix)
      exact List.forall_mem_cons.mpr ⟨hP hi', ih hrest⟩
  | @function i j r a start name opening closing params body _ _ _ hparams _ ih =>
    have hi' := hA _ _ hi ((suffix_cons_cons name opening i).trans (List.suffix_cons start _))
    have hj := hA _ _ hi' ((dropBlank_suffix j).trans hparams.inExpression.suffix)
    exact function _ _ _ _ (ih hj)
  | declared _ ih => exact declared _ (ih hi)

end

theorem isCanonical_of_spelledIn {e : Node} (h : SpelledIn AreSpelled e) :
    e.isCanonical = true := by
  rcases h with ⟨s, i, r, hi, hspells⟩
  exact (hspells.isCanonical hi).1

/-- The first clause of a `for` makes a canonical statement. -/
theorem isCanonicalAs_initializerOf {e : Node} (h : e.isCanonical = true) :
    (Grammar.initializerOf e).settle.isCanonicalAs .declaration = true := by
  cases e <;> simp_all [Grammar.initializerOf, Node.settle, Node.isCanonicalAs, Node.isCanonical]

/-- A `for` makes a canonical block of canonical parts. -/
theorem isCanonicalAs_forLoop {line : Int} {initializer condition increment : Option Node}
    {body : Node} (hinitializer : ∀ e ∈ initializer, e.isCanonical = true)
    (hcondition : ∀ e ∈ condition, e.isCanonical = true)
    (hincrement : ∀ e ∈ increment, e.isCanonical = true)
    (hbody : body.settle.isCanonicalAs .statement = true) :
    (Grammar.forLoop line (initializer.map Grammar.initializerOf) condition increment
      body).settle.isCanonicalAs .statement = true := by
  have hdeclared := Node.isCanonicalAs_mono (M := .declaration) hbody (Or.inr ⟨rfl, rfl⟩)
  have htest : (condition.getD (.literal line (.bool true))).isCanonical = true := by
    cases condition with
    | none => rfl
    | some e => exact hcondition e rfl
  have hstep : Node.allDeclared (Node.settleAll
      (increment.map fun e => Node.expression e.line e).toList) = true := by
    cases increment with
    | none => rfl
    | some e =>
      simp [Node.settleAll, Node.allDeclared, Node.settle, Node.isCanonicalAs, hincrement e rfl]
  cases initializer with
  | none =>
    simp [Grammar.forLoop, Node.settle, Node.settleAll, Node.isCanonicalAs, Node.allDeclared,
      htest, hdeclared, hstep]
  | some e =>
    have hfirst := isCanonicalAs_initializerOf (hinitializer e rfl)
    simp [Grammar.forLoop, Node.settle, Node.settleAll, Node.isCanonicalAs, Node.allDeclared,
      htest, hdeclared, hstep, hfirst]

/-- What is formed is canonical on its level, once declared variables are taken for expressions. -/
theorem isCanonicalAs (h : Forms L i r a n) (hi : AreSpelled i) :
    n.settle.isCanonicalAs L = true := by
  refine h.tree_induct (P := fun L n => n.settle.isCanonicalAs L = true)
    (fun i r hi hr => hi.of_suffix hr) ?_ ?_ ?_ ?_ ?_ ?_ ?_ ?_ ?_ ?_ ?_ hi
  · intro line e he
    simp [Node.settle, Node.isCanonicalAs, isCanonical_of_spelledIn he]
  · intro line e he
    simp [Node.settle, Node.isCanonicalAs, isCanonical_of_spelledIn he]
  · intro line e he
    simp [Node.settle, Node.isCanonicalAs, isCanonical_of_spelledIn he]
  · intro line e n he hn
    simp [Node.settle, Node.isCanonicalAs, isCanonical_of_spelledIn he, hn]
  · intro line e n m he hn hclosed hm
    simp [Node.settle, Node.isCanonicalAs, Node.endsOpen_settle, isCanonical_of_spelledIn he, hn,
      hclosed, hm]
  · intro line e n he hn
    simp [Node.settle, Node.isCanonicalAs, isCanonical_of_spelledIn he, hn]
  · intro line initializer condition increment n hinitializer hcondition hincrement hn
    exact isCanonicalAs_forLoop (fun e he => isCanonical_of_spelledIn (hinitializer e he))
      (fun e he => isCanonical_of_spelledIn (hcondition e he))
      (fun e he => isCanonical_of_spelledIn (hincrement e he)) hn
  · intro n hn
    exact Node.isCanonicalAs_mono hn (Or.inl rfl)
  · intro line ns hns
    rw [Node.settle, Node.isCanonicalAs]
    exact Node.allDeclared_settleAll hns
  · intro line name params body hbody
    simp [Node.settle, Node.isCanonicalAs, hbody]
  · intro n hn
    exact Node.isCanonicalAs_mono hn (Or.inr ⟨rfl, rfl⟩)

end Forms

/-! ## What a canonical tree is written as forms it -/

/-- Whether tokens that show what a tree is written as form the tree on a level, lines aside. What
is behind them must not be an `else` that the tree would take. -/
def Reforms (L : Level) (n : Node) : Prop :=
  ∀ i r, AreSpelled i → Shows n.flat i r →
    (n.endsOpen = true → nextKind (dropBlank r) ≠ .keyword .else_) →
    ∃ n' r', Forms L i r' n.nesting n' ∧ n'.eraseLines = n.eraseLines ∧ dropBlank r' = dropBlank r

namespace Reforms

/-- A statement is a declaration, too. -/
theorem declared {n : Node} (h : Reforms .statement n) : Reforms .declaration n := by
  intro i r hi hshows hend
  rcases h i r hi hshows hend with ⟨n', r', hforms, hsame, hr⟩
  exact ⟨n', r', .declared hforms, hsame, hr⟩

/-- What is canonical as a statement, but no block, is no block on any level. -/
theorem ofLevel {n : Node} (h : Reforms .statement n) {L : Level} (hL : L ≠ .block) :
    Reforms L n := by
  cases L with
  | declaration => exact h.declared
  | statement => exact h
  | block => exact absurd rfl hL

/-- An expression in front of something that does not go on with it. -/
theorem expression_spells {e : Node} (he : e.isCanonical = true) {i r : List Token}
    (hi : AreSpelled i) (h : Shows e.flat i r) :
    ∃ e', Spells .assignment false i r e' ∧ e'.eraseLines = e.eraseLines ∧
      e'.nesting = e.nesting := by
  rcases respells_of_isCanonical e he i r hi h with ⟨e', hspells, hsame⟩
  exact ⟨e', hspells.loosen (Nat.zero_le _), hsame, Node.nesting_eq_of_eraseLines hsame⟩

/-- An expression and the end of line behind it. -/
theorem line_spells {e : Node} (he : e.isCanonical = true) {i r : List Token} (hi : AreSpelled i)
    (h : Shows (e.flat ++ [.mark .eol]) i r) :
    ∃ e' j, Spells .assignment false i j e' ∧ Terminated j r ∧ e'.eraseLines = e.eraseLines ∧
      e'.nesting = e.nesting := by
  rcases h.exists_of_append with ⟨j, hvalue, hrest⟩
  rcases expression_spells he hi hvalue with ⟨e', hspells, hsame, hnesting⟩
  rcases hrest.exists_of_cons with ⟨t, k, rfl, ht, hrest⟩
  obtain rfl := hrest.eq_of_nil
  exact ⟨e', _, hspells, .line (Token.kind_of_symbol_mark ht), hsame, hnesting⟩

theorem print (line : Int) {e : Node} (he : e.isCanonical = true) :
    Reforms .statement (.print line e) := by
  intro i r hi hshows _
  rcases Segment.exists_of_lexeme (k := .keyword .print) hi hshows rfl
    with ⟨start, j, rfl, hstart, -, hj, hrest⟩
  rcases line_spells he hj hrest with ⟨e', k, hspells, hend, hsame, hnesting⟩
  refine ⟨.print start.line e', r, ?_, ?_, rfl⟩
  · rw [Node.nesting, ← hnesting]
    exact .print hstart hspells hend
  · simp only [Node.eraseLines, hsame]

theorem return_ (line : Int) {e : Node} (he : e.isCanonical = true) :
    Reforms .statement (.return_ line e) := by
  intro i r hi hshows _
  rcases Segment.exists_of_lexeme (k := .keyword .return_) hi hshows rfl
    with ⟨start, j, rfl, hstart, -, hj, hrest⟩
  rcases line_spells he hj hrest with ⟨e', k, hspells, hend, hsame, hnesting⟩
  refine ⟨.return_ start.line e', r, ?_, ?_, rfl⟩
  · rw [Node.nesting, ← hnesting]
    exact .return_ hstart hspells hend
  · simp only [Node.eraseLines, hsame]

theorem expression (line : Int) {e : Node} (he : e.isCanonical = true) :
    Reforms .statement (.expression line e) := by
  intro i r hi hshows _
  rcases line_spells he hi hshows with ⟨e', k, hspells, hend, hsame, hnesting⟩
  refine ⟨.expression e'.line e', r, ?_, ?_, rfl⟩
  · rw [Node.nesting, ← hnesting]
    exact .expression hspells hend
  · simp only [Node.eraseLines, hsame]

/-- A condition, the end of line behind it, and the branch. -/
theorem condition_forms {e n : Node} (he : e.isCanonical = true) (hn : Reforms .statement n)
    {rest : List Symbol} {i r : List Token} (hi : AreSpelled i)
    (h : Shows (e.flat ++ .mark .eol :: (n.flat ++ rest)) i r)
    (hend : n.endsOpen = true → ∀ k, AreSpelled k → Shows rest k r →
      nextKind (dropBlank k) ≠ .keyword .else_) :
    ∃ e' j n' k k', Spells .assignment false i j e' ∧ e'.eraseLines = e.eraseLines ∧
      e'.nesting = e.nesting ∧ Tier.assignment.extendedBy false (nextKind j) = false ∧
      Forms .statement (dropBlank j) k' n.nesting n' ∧ n'.eraseLines = n.eraseLines ∧
      dropBlank k' = dropBlank k ∧ AreSpelled k ∧ Shows rest k r := by
  rcases h.exists_of_append with ⟨j, hcondition, hrest⟩
  rcases expression_spells he hi hcondition with ⟨e', hspells, hsame, hnesting⟩
  rcases hrest.exists_of_cons with ⟨t, l, rfl, ht, hrest⟩
  have heol := Token.kind_of_symbol_mark ht
  rcases hrest.exists_of_append with ⟨k, hbranch, hrest⟩
  have hl := hi.of_suffix ((List.suffix_cons t l).trans hcondition.suffix)
  have hk := hl.of_suffix hbranch.suffix
  rcases hn l k hl hbranch (fun hopen => hend hopen k hk hrest) with ⟨n', k', hforms, hsame', hk'⟩
  refine ⟨e', t :: l, n', k, k', hspells, hsame, hnesting, ?_, ?_, hsame', hk', hk, hrest⟩
  · rw [nextKind_cons, heol]
    rfl
  · -- The end of line that is written behind the condition is passed in front of the branch.
    rw [dropBlank_cons_eol heol, dropBlank_of_nextKind_ne (hforms.nextKind_ne rfl)]
    exact hforms

theorem conditional (line : Int) {e n : Node} (he : e.isCanonical = true)
    (hn : Reforms .statement n) : Reforms .statement (.conditional line e n none) := by
  intro i r hi hshows hend
  rcases Segment.exists_of_lexeme (k := .keyword .if_) hi hshows rfl
    with ⟨start, j, rfl, hstart, -, hj, hrest⟩
  have hno := hend rfl
  rw [← List.append_nil n.flat] at hrest
  rcases condition_forms he hn hj hrest
      (by
        intro _ k _ hk
        rw [hk.eq_of_nil]
        exact hno)
    with ⟨e', l, n', k, k', hspells, hsame, hnesting, hstop, hforms, hsame', hk', -, hk⟩
  obtain rfl := hk.eq_of_nil
  refine ⟨.conditional start.line e' n' none, _, ?_, ?_, (dropBlank_dropBlank _).trans hk'⟩
  · rw [Node.nesting, ← hnesting]
    exact .conditional hstart hspells hstop hforms (by rw [hk']; exact hno)
  · simp only [Node.eraseLines, hsame, hsame']

theorem alternative (line : Int) {e n m : Node} (he : e.isCanonical = true)
    (hn : Reforms .statement n) (hclosed : n.endsOpen = false) (hm : Reforms .statement m) :
    Reforms .statement (.conditional line e n (some m)) := by
  intro i r hi hshows hend
  rcases Segment.exists_of_lexeme (k := .keyword .if_) hi hshows rfl
    with ⟨start, j, rfl, hstart, -, hj, hrest⟩
  -- The branch is closed, so an `else` may stand behind it.
  rcases condition_forms he hn hj hrest (by simp [hclosed])
    with ⟨e', l, n', k, k', hspells, hsame, hnesting, hstop, hforms, hsame', hk', hk, hrest⟩
  rcases hrest.exists_of_lexeme (k := .keyword .else_) hk rfl
    with ⟨other, p, rfl, hother, -, hp, hrest⟩
  rcases hm p r hp hrest hend with ⟨m', r', hforms', hsame'', hr⟩
  rw [dropBlank_of_nextKind_ne (r := other :: p) (by simp [hother])] at hk'
  refine ⟨.conditional start.line e' n' (some m'), r', ?_, ?_, hr⟩
  · rw [Node.nesting, ← hnesting]
    refine .alternative hstart hspells hstop hforms hk' hother ?_
    rw [dropBlank_of_nextKind_ne (hforms'.nextKind_ne rfl)]
    exact hforms'
  · simp only [Node.eraseLines, hsame, hsame', hsame'']

theorem loop (line : Int) {e n : Node} (he : e.isCanonical = true) (hn : Reforms .statement n) :
    Reforms .statement (.loop line e n) := by
  intro i r hi hshows hend
  rcases Segment.exists_of_lexeme (k := .keyword .while_) hi hshows rfl
    with ⟨start, j, rfl, hstart, -, hj, hrest⟩
  rcases hrest.exists_of_lexeme (k := .operator .lparen) hj rfl
    with ⟨opening, k, rfl, hopen, -, hk, hrest⟩
  rcases hrest.exists_of_append with ⟨l, hcondition, hrest⟩
  rcases expression_spells he hk hcondition with ⟨e', hspells, hsame, hnesting⟩
  rcases hrest.exists_of_lexeme (k := .operator .rparen) (hk.of_suffix hcondition.suffix) rfl
    with ⟨closing, m, rfl, hclose, -, hm, hrest⟩
  rcases hn m r hm hrest hend with ⟨n', r', hforms, hsame', hr⟩
  refine ⟨.loop start.line e' n', r', ?_, ?_, hr⟩
  · rw [Node.nesting, ← hnesting]
    refine .loop hstart hopen hspells hclose ?_
    rw [dropBlank_of_nextKind_ne (hforms.nextKind_ne rfl)]
    exact hforms
  · simp only [Node.eraseLines, hsame, hsame']

/-- Names with commas between them. -/
theorem separated_names {name : String} {names : List String} {i r : List Token}
    (hi : AreSpelled i) (h : Shows (Node.flatNames (name :: names)) i r) :
    Separated IsParameter i r (name :: names) := by
  induction names generalizing name i with
  | nil =>
    rcases h.exists_of_cons with ⟨t, j, rfl, ht, hrest⟩
    obtain rfl := hrest.eq_of_nil
    rcases Token.kind_of_symbol_name ht with ⟨hkind, htext⟩
    exact .one ⟨t, rfl, hkind, htext⟩
  | cons name' names ih =>
    rcases h.exists_of_cons with ⟨t, j, rfl, ht, hrest⟩
    rcases Token.kind_of_symbol_name ht with ⟨hkind, htext⟩
    rcases hrest.exists_of_lexeme (k := .operator .comma) (hi.of_suffix (List.suffix_cons t j)) rfl
      with ⟨comma, k, rfl, hcomma, -, hk, hrest⟩
    exact .more ⟨t, rfl, hkind, htext⟩ hcomma (ih hk hrest)

theorem parameters_form {names : List String} {i r : List Token} (hi : AreSpelled i)
    (h : Shows (Node.flatNames names) i r) (hclose : nextKind r = .operator .rparen) :
    Parameters i r names := by
  cases names with
  | nil =>
    obtain rfl := h.eq_of_nil
    exact .none hclose
  | cons name names => exact .some hclose (separated_names hi h)

theorem block {line : Int} {ns : List Node}
    (hns : ∀ i r, AreSpelled i → Shows (Node.flatAll ns) i r → nextKind r = .keyword .end_ →
      ∃ ns', Sequence (Forms .declaration) (.keyword .end_) (Nesting.weight .block) (dropBlank i) r
          (Node.nestingWithin (Nesting.weight .block) ns) ns' ∧
        Node.eraseAllLines ns' = Node.eraseAllLines ns) :
    Reforms .block (.block line ns) := by
  intro i r hi hshows _
  rcases Segment.exists_of_lexeme (k := .keyword .do_) hi hshows rfl
    with ⟨opening, j, rfl, hopen, -, hj, hrest⟩
  rcases hrest.exists_of_append with ⟨k, hstatements, hrest⟩
  rcases hrest.exists_of_lexeme (k := .keyword .end_) (hj.of_suffix hstatements.suffix) rfl
    with ⟨closing, l, rfl, hclose, -, -, hrest⟩
  obtain rfl := hrest.eq_of_nil
  rcases hns j _ hj hstatements hclose with ⟨ns', hsequence, hsame⟩
  refine ⟨.block opening.line ns', l, .block hopen hsequence, ?_, rfl⟩
  simp only [Node.eraseLines, hsame]

/-- A block is a statement, too. -/
theorem blockStatement {n : Node} (h : Reforms .block n) : Reforms .statement n := by
  intro i r hi hshows hend
  rcases h i r hi hshows hend with ⟨n', r', hforms, hsame, hr⟩
  exact ⟨n', r', .blockStatement hforms, hsame, hr⟩

theorem function (line : Int) (name : String) (params : List String) {body : Node}
    (hbody : Reforms .block body) (hclosed : body.endsOpen = false) :
    Reforms .declaration (.function line name params body) := by
  intro i r hi hshows _
  rcases Segment.exists_of_lexeme (k := .keyword .fn) hi hshows rfl
    with ⟨start, j, rfl, hstart, -, hj, hheader⟩
  rcases hheader.exists_of_cons with ⟨t, k, rfl, ht, hrest⟩
  rcases Token.kind_of_symbol_name ht with ⟨hname, rfl⟩
  rcases hrest.exists_of_lexeme (k := .operator .lparen) (hj.of_suffix (List.suffix_cons t k)) rfl
    with ⟨opening, l, rfl, hopen, -, hl, hrest⟩
  rcases hrest.exists_of_append with ⟨m, hnames, hrest⟩
  rcases hrest.exists_of_lexeme (k := .operator .rparen) (hl.of_suffix hnames.suffix) rfl
    with ⟨closing, p, rfl, hclose, -, hp, hrest⟩
  rcases hbody p r hp hrest (by simp [hclosed]) with ⟨body', r', hforms, hsame, hr⟩
  refine ⟨.function start.line t.text params body', r', ?_, ?_, hr⟩
  · rw [Node.nesting]
    refine .function hstart hname hopen (parameters_form hl hnames hclose) ?_
    rw [dropBlank_of_nextKind_ne (hforms.nextKind_ne rfl)]
    exact hforms
  · simp only [Node.eraseLines, hsame]

end Reforms

mutual

/-- Tokens that show what a canonical tree is written as form the tree. -/
theorem reforms_of_isCanonicalAs :
    (n : Node) → (L : Level) → n.isCanonicalAs L = true → Reforms L n
  | .function line name params body, L, h => by
    simp only [Node.isCanonicalAs, Bool.and_eq_true, beq_iff_eq] at h
    rcases h with ⟨rfl, hbody⟩
    exact .function line name params (reforms_of_isCanonicalAs body .block hbody)
      (Node.endsOpen_of_block hbody)
  | .block line statements, L, h => by
    have hblock : Reforms .block (.block line statements) := .block fun i r hi hshows hclose =>
      sequence_of_allDeclared statements h hi hshows hclose (by decide) (by decide)
    cases L with
    | declaration => exact hblock.blockStatement.declared
    | statement => exact hblock.blockStatement
    | block => exact hblock
  | .conditional line condition thenBranch none, L, h => by
    simp only [Node.isCanonicalAs, Bool.and_eq_true, bne_iff_ne] at h
    rcases h with ⟨⟨hL, hcondition⟩, hthen⟩
    exact (Reforms.conditional line hcondition
      (reforms_of_isCanonicalAs thenBranch .statement hthen)).ofLevel hL
  | .conditional line condition thenBranch (some elseBranch), L, h => by
    simp only [Node.isCanonicalAs, Bool.and_eq_true, bne_iff_ne, Bool.not_eq_true'] at h
    rcases h with ⟨⟨⟨⟨hL, hcondition⟩, hthen⟩, hclosed⟩, helse⟩
    exact (Reforms.alternative line hcondition
      (reforms_of_isCanonicalAs thenBranch .statement hthen) hclosed
      (reforms_of_isCanonicalAs elseBranch .statement helse)).ofLevel hL
  | .loop line condition body, L, h => by
    simp only [Node.isCanonicalAs, Bool.and_eq_true, bne_iff_ne] at h
    rcases h with ⟨⟨hL, hcondition⟩, hbody⟩
    exact (Reforms.loop line hcondition
      (reforms_of_isCanonicalAs body .statement hbody)).ofLevel hL
  | .print line value, L, h => by
    simp only [Node.isCanonicalAs, Bool.and_eq_true, bne_iff_ne] at h
    exact (Reforms.print line h.2).ofLevel h.1
  | .return_ line value, L, h => by
    simp only [Node.isCanonicalAs, Bool.and_eq_true, bne_iff_ne] at h
    exact (Reforms.return_ line h.2).ofLevel h.1
  | .expression line value, L, h => by
    simp only [Node.isCanonicalAs, Bool.and_eq_true, bne_iff_ne] at h
    exact (Reforms.expression line h.2).ofLevel h.1

/-- The same for several trees, up to a token that stops them. -/
theorem sequence_of_allDeclared : (ns : List Node) → Node.allDeclared ns = true →
    ∀ {i r : List Token} {stop : Kind} {weight : Nat}, AreSpelled i → Shows (Node.flatAll ns) i r →
      nextKind r = stop → stop ≠ .eol → stop ≠ .keyword .else_ →
      ∃ ns', Sequence (Forms .declaration) stop weight (dropBlank i) r
          (Node.nestingWithin weight ns) ns' ∧
        Node.eraseAllLines ns' = Node.eraseAllLines ns
  | [], _, i, r, stop, weight, _, hshows, hstop, hne, _ => by
    obtain rfl := hshows.eq_of_nil
    rw [dropBlank_of_nextKind_ne (by rwa [hstop])]
    exact ⟨[], .done hstop, rfl⟩
  | n :: ns, h, i, r, stop, weight, hi, hshows, hstop, hne, helse => by
    simp only [Node.allDeclared, Bool.and_eq_true] at h
    rcases hshows.exists_of_append with ⟨j, hfirst, hrest⟩
    rcases sequence_of_allDeclared ns h.2 (hi.of_suffix hfirst.suffix) hrest hstop hne helse
      with ⟨ns', hsequence, hsame⟩
    rcases reforms_of_isCanonicalAs n .declaration h.1 i j hi hfirst
      (fun _ => hsequence.nextKind_ne rfl helse) with ⟨n', j', hforms, hsame', hj⟩
    -- No `else` starts what follows, so the declaration ends where the rest begins.
    rw [← hj] at hsequence
    rw [dropBlank_of_nextKind_ne (hforms.nextKind_ne rfl)]
    refine ⟨n' :: ns', .next hforms hsequence, ?_⟩
    simp only [Node.eraseAllLines, hsame, hsame']

end

end ScriptCheck
