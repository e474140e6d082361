import ScriptCheck.Proofs.Statement.Detaching

/-!
# What stands around a line

A line is a simple statement together with the end of line that ends it. `FormsAround p y` says what
`Forms` says, and besides where the line is that starts at `p` and ends in front of `y`: how many
blocks are open there, and which statements follow it in them, those of the innermost block first.
These are the statements that are left when the line cannot be read.

There is one place from which nothing is left as it is, since the `else` behind it would have no
`if`: the first branch of a conditional that has a second one. There `FormsAround` has no line.
-/

namespace ScriptCheck

/-- In front of `r`, the tokens of `i` form a simple statement and the end of line that ends it. -/
inductive FormsLine : (i r : List Token) → (need : Nat) → (n : Node) → Prop where
  | print {i r : List Token} {start ending : Token} {e : Node} :
      start.kind = .keyword .print → Spells .assignment false i (ending :: r) e →
      ending.kind = .eol → FormsLine (start :: i) r e.nesting (.print start.line e)
  | return_ {i r : List Token} {start ending : Token} {e : Node} :
      start.kind = .keyword .return_ → Spells .assignment false i (ending :: r) e →
      ending.kind = .eol → FormsLine (start :: i) r e.nesting (.return_ start.line e)
  | expression {i r : List Token} {ending : Token} {e : Node} :
      Spells .assignment false i (ending :: r) e → ending.kind = .eol →
      FormsLine i r e.nesting (.expression e.line e)

theorem FormsLine.forms {i r : List Token} {a : Nat} {n : Node} (h : FormsLine i r a n) :
    Forms .statement i r a n := by
  cases h with
  | print hstart he hend => exact .print hstart he (.line hend)
  | return_ hstart he hend => exact .return_ hstart he (.line hend)
  | expression he hend => exact .expression he (.line hend)

/-- In front of `r`, the tokens of `i` form `n` around the line at `p`, which ends in front of `y`.
That many blocks are open there, and the statements in `left` follow it in them, from the innermost
block to the outermost. -/
inductive FormsAround (p y : List Token) : (L : Level) → (i r : List Token) → (need : Nat) →
    (n : Node) → (blocks : Nat) → (left : List Node) → Prop where
  | line {a : Nat} {n : Node} : FormsLine p y a n → FormsAround p y .statement p y a n 0 []
  | thenBranch {i j k : List Token} {a blocks : Nat} {start : Token} {e n : Node}
      {left : List Node} :
      start.kind = .keyword .if_ → Spells .assignment false i j e →
      Tier.assignment.extendedBy false (nextKind j) = false →
      FormsAround p y .statement (dropBlank j) k a n blocks left →
      nextKind (dropBlank k) ≠ .keyword .else_ →
      FormsAround p y .statement (start :: i) (dropBlank k)
        (max e.nesting (Nesting.weight .body + a)) (.conditional start.line e n none) blocks left
  | elseBranch {i j k l r : List Token} {a b blocks : Nat} {start other : Token} {e n m : Node}
      {left : List Node} :
      start.kind = .keyword .if_ → Spells .assignment false i j e →
      Tier.assignment.extendedBy false (nextKind j) = false →
      Forms .statement (dropBlank j) k a n → dropBlank k = other :: l →
      other.kind = .keyword .else_ → FormsAround p y .statement (dropBlank l) r b m blocks left →
      FormsAround p y .statement (start :: i) r
        (max e.nesting (max (Nesting.weight .body + a) (Nesting.weight .body + b)))
        (.conditional start.line e n (some m)) blocks left
  | loopBody {i j r : List Token} {a blocks : Nat} {start opening closing : Token} {e n : Node}
      {left : List Node} :
      start.kind = .keyword .while_ → opening.kind = .operator .lparen →
      Spells .assignment false i (closing :: j) e → closing.kind = .operator .rparen →
      FormsAround p y .statement (dropBlank j) r a n blocks left →
      FormsAround p y .statement (start :: opening :: i) r
        (max e.nesting (Nesting.weight .body + a)) (.loop start.line e n) blocks left
  | forBody {i j k l r : List Token} {a blocks : Nat} {start opening and₁ and₂ closing : Token}
      {initializer condition increment : Option Node} {n : Node} {left : List Node} :
      start.kind = .keyword .for_ → opening.kind = .operator .lparen →
      Clause (.keyword .and_) i (and₁ :: j) initializer →
      Clause (.keyword .and_) j (and₂ :: k) condition →
      Clause (.operator .rparen) k (closing :: l) increment →
      FormsAround p y .statement (dropBlank l) r a n blocks left →
      FormsAround p y .statement (start :: opening :: i) r
        (max (Node.clauseNesting initializer) (max (Node.clauseNesting condition)
          (max (Node.clauseNesting increment) (Nesting.weight .body + a))))
        (Grammar.forLoop start.line (initializer.map Grammar.initializerOf) condition increment n)
        blocks left
  | blockStatement {i r : List Token} {a blocks : Nat} {n : Node} {left : List Node} :
      FormsAround p y .block i r a n blocks left → FormsAround p y .statement i r a n blocks left
  | block {i j k r : List Token} {a b c blocks : Nat} {opening closing : Token} {n : Node}
      {before after left : List Node} :
      opening.kind = .keyword .do_ →
      Sequence (Forms .declaration) (nextKind j) (Nesting.weight .block) (dropBlank i) j a
        before →
      FormsAround p y .declaration j k b n blocks left →
      Sequence (Forms .declaration) (.keyword .end_) (Nesting.weight .block) (dropBlank k)
        (closing :: r) c after →
      FormsAround p y .block (opening :: i) r (max a (max (Nesting.weight .block + b) c))
        (.block opening.line (before ++ n :: after)) (blocks + 1) (left ++ after)
  | functionBody {i j r : List Token} {a blocks : Nat} {start name opening closing : Token}
      {params : List String} {body : Node} {left : List Node} :
      start.kind = .keyword .fn → name.kind = .ident → opening.kind = .operator .lparen →
      Parameters i (closing :: j) params →
      FormsAround p y .block (dropBlank j) r a body blocks left →
      FormsAround p y .declaration (start :: name :: opening :: i) r a
        (.function start.line name.text params body) blocks left
  | declared {i r : List Token} {a blocks : Nat} {n : Node} {left : List Node} :
      FormsAround p y .statement i r a n blocks left →
      FormsAround p y .declaration i r a n blocks left

/-- In front of `r`, the tokens of `i` form a sequence around the line at `p`. The declaration
around the line is `n`; `before` and `after` are those in front of it and behind it. -/
inductive SequenceAround (p y : List Token) (stop : Kind) (weight : Nat) (i r : List Token) :
    (need : Nat) → (before : List Node) → (n : Node) → (blocks : Nat) →
    (left after : List Node) → Prop where
  | mk {j k : List Token} {a b c blocks : Nat} {n : Node} {before left after : List Node} :
      Sequence (Forms .declaration) (nextKind j) weight i j a before →
      FormsAround p y .declaration j k b n blocks left →
      Sequence (Forms .declaration) stop weight (dropBlank k) r c after →
      SequenceAround p y stop weight i r (max a (max (weight + b) c)) before n blocks left after

/-- One sequence is followed by another. -/
theorem Sequence.trans {item : List Token → List Token → Nat → Node → Prop} {stop stop' : Kind}
    {weight a b : Nat} {i j r : List Token} {ms ns : List Node}
    (h : Sequence item stop weight i j a ms) (h' : Sequence item stop' weight j r b ns) :
    Sequence item stop' weight i r (max a b) (ms ++ ns) := by
  induction h with
  | done _ =>
    rw [Nat.zero_max]
    exact h'
  | next hitem _ ih =>
    rw [Nat.max_assoc]
    exact .next hitem (ih h')

/-- What stands around a line is formed. -/
theorem FormsAround.forms {p y : List Token} {L : Level} {i r : List Token} {a blocks : Nat}
    {n : Node} {left : List Node} (h : FormsAround p y L i r a n blocks left) :
    Forms L i r a n := by
  induction h with
  | line hline => exact hline.forms
  | thenBranch hstart he hstop _ hno ih => exact .conditional hstart he hstop ih hno
  | elseBranch hstart he hstop hn hk hother _ ih =>
    exact .alternative hstart he hstop hn hk hother ih
  | loopBody hstart hopen he hclose _ ih => exact .loop hstart hopen he hclose ih
  | forBody hstart hopen hinitializer hcondition hincrement _ ih =>
    exact .forLoop hstart hopen hinitializer hcondition hincrement ih
  | blockStatement _ ih => exact .blockStatement ih
  | block hopen hbefore _ hafter ih => exact .block hopen (hbefore.trans (.next ih hafter))
  | functionBody hstart hname hopen hparams _ ih =>
    exact .function hstart hname hopen hparams ih
  | declared _ ih => exact .declared ih

/-- The line that something stands around is there. -/
theorem FormsAround.exists_line {p y : List Token} {L : Level} {i r : List Token} {a blocks : Nat}
    {n : Node} {left : List Node} (h : FormsAround p y L i r a n blocks left) :
    ∃ b m, FormsLine p y b m := by
  induction h with
  | line hline => exact ⟨_, _, hline⟩
  | thenBranch _ _ _ _ _ ih => exact ih
  | elseBranch _ _ _ _ _ _ _ ih => exact ih
  | loopBody _ _ _ _ _ ih => exact ih
  | forBody _ _ _ _ _ _ ih => exact ih
  | blockStatement _ ih => exact ih
  | block _ _ _ _ ih => exact ih
  | functionBody _ _ _ _ _ ih => exact ih
  | declared _ ih => exact ih

end ScriptCheck
