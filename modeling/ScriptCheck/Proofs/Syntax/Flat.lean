import ScriptCheck.Grammar.Expression
import ScriptCheck.Proofs.Reading.Place
import ScriptCheck.Proofs.Syntax.Depth

/-!
# Trees written out

`Node.flat` lists what the tokens of a tree show, in order. A token shows its text if it is a
reserved word or an operator, the name if it is one, and the value if it is a literal; lines and
columns are no part of it, and neither are they of trees up to `Node.eraseLines`.

Simple statements end with an end of line, and so do the conditions of conditionals, since nothing
else keeps them apart from what follows.
-/

namespace ScriptCheck

/-- What a token shows, wherever it stands. -/
inductive Symbol where
  | lexeme (text : String)
  | name (text : String)
  | value (literal : Literal)
  /-- A token that shows nothing but its kind. -/
  | mark (kind : Kind)
  deriving DecidableEq, Repr

/-- The text that a reserved word or an operator is written as. -/
def Kind.lexeme? : Kind → Option String
  | keyword w => some w.word
  | operator op => some op.symbol
  | _ => none

namespace Token

/-- What a token shows. -/
def symbol (t : Token) : Symbol :=
  match t.kind with
  | .ident => .name t.text
  | .number =>
    match t.numberValue with
    | .ok v => .value v
    | .error _ => .mark .number
  | .string => .value (t.literal.getD (.text t.text))
  | .keyword .true_ => .value (.bool true)
  | .keyword .false_ => .value (.bool false)
  | .keyword .nil => .value .nil
  | .keyword _ | .operator _ => .lexeme t.text
  | k => .mark k

/-- Whether a token is written as its kind is, if it is a reserved word or an operator. -/
def IsSpelled (t : Token) : Prop :=
  ∀ text, t.kind.lexeme? = some text → t.text = text

end Token

namespace Node

/-- Names with commas between them. -/
def flatNames : List String → List Symbol
  | [] => []
  | [name] => [.name name]
  | name :: names => .name name :: .lexeme "," :: flatNames names

mutual

/-- What the tokens of a tree show. Nothing is written for nodes that no tokens stand for. -/
def flat : Node → List Symbol
  | program _ statements => flatAll statements
  | function _ name params body =>
    .lexeme "fn" :: .name name :: .lexeme "(" :: (flatNames params ++ .lexeme ")" :: body.flat)
  | binding .. => []
  | block _ statements => .lexeme "do" :: (flatAll statements ++ [.lexeme "end"])
  | conditional _ condition thenBranch none =>
    .lexeme "if" :: (condition.flat ++ .mark .eol :: thenBranch.flat)
  | conditional _ condition thenBranch (some elseBranch) =>
    .lexeme "if" :: (condition.flat ++ .mark .eol ::
      (thenBranch.flat ++ .lexeme "else" :: elseBranch.flat))
  | loop _ condition body =>
    .lexeme "while" :: .lexeme "(" :: (condition.flat ++ .lexeme ")" :: body.flat)
  | print _ value => .lexeme "print" :: (value.flat ++ [.mark .eol])
  | return_ _ value => .lexeme "return" :: (value.flat ++ [.mark .eol])
  | expression _ value => value.flat ++ [.mark .eol]
  | assign _ target value => .name target :: .lexeme "=" :: value.flat
  | logical _ operator left right => left.flat ++ .lexeme operator :: right.flat
  | binary _ operator left right => left.flat ++ .lexeme operator :: right.flat
  | unary _ operator operand => .lexeme operator :: operand.flat
  | call _ callee arguments => callee.flat ++ .lexeme "(" :: (flatItems arguments ++ [.lexeme ")"])
  | literal _ value => [.value value]
  | var _ name => [.name name]
  | grouping _ inner => .lexeme "(" :: (inner.flat ++ [.lexeme ")"])
  | bare _ => []

/-- Trees one after another. -/
def flatAll : List Node → List Symbol
  | [] => []
  | n :: ns => n.flat ++ flatAll ns

/-- Trees with commas between them. -/
def flatItems : List Node → List Symbol
  | [] => []
  | [n] => n.flat
  | n :: ns => n.flat ++ .lexeme "," :: flatItems ns

end

mutual

/-- A tree as if all of it were on one line. -/
def eraseLines : Node → Node
  | program _ statements => program 0 (eraseAllLines statements)
  | function _ name params body => function 0 name params body.eraseLines
  | binding _ name none => binding 0 name none
  | binding _ name (some initializer) => binding 0 name (some initializer.eraseLines)
  | block _ statements => block 0 (eraseAllLines statements)
  | conditional _ condition thenBranch none =>
    conditional 0 condition.eraseLines thenBranch.eraseLines none
  | conditional _ condition thenBranch (some elseBranch) =>
    conditional 0 condition.eraseLines thenBranch.eraseLines (some elseBranch.eraseLines)
  | loop _ condition body => loop 0 condition.eraseLines body.eraseLines
  | print _ value => print 0 value.eraseLines
  | return_ _ value => return_ 0 value.eraseLines
  | expression _ value => expression 0 value.eraseLines
  | assign _ target value => assign 0 target value.eraseLines
  | logical _ operator left right => logical 0 operator left.eraseLines right.eraseLines
  | binary _ operator left right => binary 0 operator left.eraseLines right.eraseLines
  | unary _ operator operand => unary 0 operator operand.eraseLines
  | call _ callee arguments => call 0 callee.eraseLines (eraseAllLines arguments)
  | literal _ value => literal 0 value
  | var _ name => var 0 name
  | grouping _ inner => grouping 0 inner.eraseLines
  | bare _ => bare 0

/-- The same for several trees. -/
def eraseAllLines : List Node → List Node
  | [] => []
  | n :: ns => n.eraseLines :: eraseAllLines ns

end

mutual

/-- Lines are not written. -/
theorem flat_eraseLines : (n : Node) → n.eraseLines.flat = n.flat
  | program _ statements => by simp only [eraseLines, flat, flatAll_eraseAllLines]
  | function _ _ _ body => by simp only [eraseLines, flat, body.flat_eraseLines]
  | binding _ _ none => rfl
  | binding _ _ (some _) => rfl
  | block _ statements => by simp only [eraseLines, flat, flatAll_eraseAllLines]
  | conditional _ condition thenBranch none => by
    simp only [eraseLines, flat, condition.flat_eraseLines, thenBranch.flat_eraseLines]
  | conditional _ condition thenBranch (some elseBranch) => by
    simp only [eraseLines, flat, condition.flat_eraseLines, thenBranch.flat_eraseLines,
      elseBranch.flat_eraseLines]
  | loop _ condition body => by
    simp only [eraseLines, flat, condition.flat_eraseLines, body.flat_eraseLines]
  | print _ value => by simp only [eraseLines, flat, value.flat_eraseLines]
  | return_ _ value => by simp only [eraseLines, flat, value.flat_eraseLines]
  | expression _ value => by simp only [eraseLines, flat, value.flat_eraseLines]
  | assign _ _ value => by simp only [eraseLines, flat, value.flat_eraseLines]
  | logical _ _ left right => by
    simp only [eraseLines, flat, left.flat_eraseLines, right.flat_eraseLines]
  | binary _ _ left right => by
    simp only [eraseLines, flat, left.flat_eraseLines, right.flat_eraseLines]
  | unary _ _ operand => by simp only [eraseLines, flat, operand.flat_eraseLines]
  | call _ callee arguments => by
    simp only [eraseLines, flat, callee.flat_eraseLines, flatItems_eraseAllLines]
  | literal .. => rfl
  | var .. => rfl
  | grouping _ inner => by simp only [eraseLines, flat, inner.flat_eraseLines]
  | bare _ => rfl

theorem flatAll_eraseAllLines : (ns : List Node) → flatAll (eraseAllLines ns) = flatAll ns
  | [] => rfl
  | n :: ns => by simp only [eraseAllLines, flatAll, n.flat_eraseLines, flatAll_eraseAllLines ns]

theorem flatItems_eraseAllLines : (ns : List Node) → flatItems (eraseAllLines ns) = flatItems ns
  | [] => rfl
  | [n] => by simp only [eraseAllLines, flatItems, n.flat_eraseLines]
  | n :: m :: ns => by
    have hrest := flatItems_eraseAllLines (m :: ns)
    simp only [eraseAllLines] at hrest
    simp only [eraseAllLines, flatItems, n.flat_eraseLines, hrest]

end

mutual

/-- Lines take nothing of the nesting budget. -/
theorem nesting_eraseLines : (n : Node) → n.eraseLines.nesting = n.nesting
  | program _ statements => by simp only [eraseLines, nesting, nestingWithin_eraseAllLines]
  | function _ _ _ body => by simp only [eraseLines, nesting, body.nesting_eraseLines]
  | binding _ _ none => rfl
  | binding _ _ (some initializer) => by
    simp only [eraseLines, nesting, initializer.nesting_eraseLines]
  | block _ statements => by simp only [eraseLines, nesting, nestingWithin_eraseAllLines]
  | conditional _ condition thenBranch none => by
    simp only [eraseLines, nesting, condition.nesting_eraseLines, thenBranch.nesting_eraseLines]
  | conditional _ condition thenBranch (some elseBranch) => by
    simp only [eraseLines, nesting, condition.nesting_eraseLines, thenBranch.nesting_eraseLines,
      elseBranch.nesting_eraseLines]
  | loop _ condition body => by
    simp only [eraseLines, nesting, condition.nesting_eraseLines, body.nesting_eraseLines]
  | print _ value => by simp only [eraseLines, nesting, value.nesting_eraseLines]
  | return_ _ value => by simp only [eraseLines, nesting, value.nesting_eraseLines]
  | expression _ value => by simp only [eraseLines, nesting, value.nesting_eraseLines]
  | assign _ _ value => by simp only [eraseLines, nesting, value.nesting_eraseLines]
  | logical _ _ left right => by
    simp only [eraseLines, nesting, left.nesting_eraseLines, right.nesting_eraseLines]
  | binary _ _ left right => by
    simp only [eraseLines, nesting, left.nesting_eraseLines, right.nesting_eraseLines]
  | unary _ _ operand => by simp only [eraseLines, nesting, operand.nesting_eraseLines]
  | call _ callee arguments => by
    simp only [eraseLines, nesting, callee.nesting_eraseLines, nestingWithin_eraseAllLines]
  | literal .. => rfl
  | var .. => rfl
  | grouping _ inner => by simp only [eraseLines, nesting, inner.nesting_eraseLines]
  | bare _ => rfl

theorem nestingWithin_eraseAllLines {weight : Nat} :
    (ns : List Node) → nestingWithin weight (eraseAllLines ns) = nestingWithin weight ns
  | [] => rfl
  | n :: ns => by
    simp only [eraseAllLines, nestingWithin, n.nesting_eraseLines, nestingWithin_eraseAllLines ns]

end

theorem nesting_eq_of_eraseLines {n m : Node} (h : n.eraseLines = m.eraseLines) :
    n.nesting = m.nesting := by
  rw [← nesting_eraseLines, h, nesting_eraseLines]

end Node

/-! ## What a token is by what it shows -/

namespace Token

variable {t : Token}

theorem kind_of_symbol_name {name : String} (h : t.symbol = .name name) :
    t.kind = .ident ∧ t.text = name := by
  unfold symbol at h
  split at h <;> first | (split at h <;> simp at h) | simp_all

theorem of_symbol_value {v : Literal} (h : t.symbol = .value v) :
    (t.kind = .number ∧ t.numberValue = .ok v) ∨ Grammar.literalValue? t = some v := by
  unfold symbol at h
  unfold Grammar.literalValue?
  split at h <;> first | (split at h <;> simp_all) | simp_all

theorem kind_of_symbol_mark {k : Kind} (h : t.symbol = .mark k) : t.kind = k := by
  unfold symbol at h
  split at h <;> first | (split at h <;> simp_all) | simp_all

/-- A reserved word or an operator that has no value shows its text. -/
theorem symbol_of_lexeme? {text : String} (hk : t.kind.lexeme? = some text)
    (hvalue : Grammar.literalValue? t = none) : t.symbol = .lexeme t.text := by
  unfold symbol
  unfold Grammar.literalValue? at hvalue
  cases hkind : t.kind with
  | keyword w => cases w <;> simp_all
  | operator op => rfl
  | _ => simp [hkind, Kind.lexeme?] at hk

theorem symbol_of_operator {op : Operator} (ht : t.IsSpelled) (hk : t.kind = .operator op) :
    t.symbol = .lexeme op.symbol := by
  have htext : t.text = op.symbol := ht _ (by rw [hk]; rfl)
  have hlexeme : t.kind.lexeme? = some op.symbol := by rw [hk]; rfl
  rw [symbol_of_lexeme? hlexeme (by simp [Grammar.literalValue?, hk]), htext]

theorem lexeme?_of_symbol_lexeme (ht : t.IsSpelled) {text : String}
    (h : t.symbol = .lexeme text) : t.kind.lexeme? = some text := by
  have htext : t.text = text ∧ ∃ text, t.kind.lexeme? = some text := by
    unfold symbol at h
    split at h <;> first | (split at h <;> simp_all) | simp_all [Kind.lexeme?]
  rcases htext with ⟨rfl, text, hlexeme⟩
  rw [hlexeme, ht text hlexeme]

end Token

/-- No two reserved words or operators are written in the same way. -/
theorem Kind.eq_of_lexeme? {k l : Kind} {text : String} (hk : k.lexeme? = some text)
    (hl : l.lexeme? = some text) : k = l := by
  have hall : ∀ k ∈ Kind.all, ∀ l ∈ Kind.all, k.lexeme? ≠ none → k.lexeme? = l.lexeme? → k = l := by
    decide
  have hmem : ∀ {k : Kind}, k.lexeme? = some text → k ∈ Kind.all := by
    intro k hk
    cases k with
    | keyword w => cases w <;> decide
    | operator op => cases op <;> decide
    | _ => simp [Kind.lexeme?] at hk
  exact hall k (hmem hk) l (hmem hl) (by simp [hk]) (by rw [hk, hl])

/-- A token that shows what a reserved word or an operator is written as is that. -/
theorem Token.kind_of_symbol_lexeme {t : Token} (ht : t.IsSpelled) {k : Kind} {text : String}
    (hk : k.lexeme? = some text) (h : t.symbol = .lexeme text) : t.kind = k :=
  Kind.eq_of_lexeme? (lexeme?_of_symbol_lexeme ht h) hk

end ScriptCheck
