import ScriptCheck.Grammar.Statement
import ScriptCheck.Proofs.Expression.Spelling
import ScriptCheck.Proofs.Syntax.Depth

/-!
# How tokens form statements

`Forms L i r need n` says that the tokens of `i` in front of `r` form the statement or declaration
`n`, and that reading it takes `need` of the nesting budget. Like the rules of the grammar, and
unlike a grammar, it is greedy: ends of line are passed wherever they may be, and an `else` belongs
to the nearest conditional before it. So the tokens fix both the tree and the place where it ends.

What a `for` loop needs is not what its tree is deep, since its tree has blocks that were not
written. That is why the need is kept apart from the tree.
-/

namespace ScriptCheck

/-- What tokens may form: a declaration, a statement, or a block. -/
inductive Level where
  | declaration | statement | block
  deriving DecidableEq, Repr

/-- The end of a simple statement in front of `r`: an end of line, or nothing in front of a token
that closes what the statement stands in. -/
inductive Terminated : (i r : List Token) → Prop where
  | line {r : List Token} {t : Token} : t.kind = .eol → Terminated (t :: r) r
  | closed {r : List Token} : (nextKind r).closesStatement = true → Terminated r r

/-- A clause of a `for`, which may be left out in front of the token `stop` that ends it. -/
inductive Clause (stop : Kind) : (i r : List Token) → Option Node → Prop where
  | none {r : List Token} : nextKind r = stop → Clause stop r r none
  | some {i r : List Token} {e : Node} :
      nextKind r = stop → Spells .assignment true i r e → Clause stop i r (some e)

/-- What a clause takes of the nesting budget. -/
def Node.clauseNesting (clause : Option Node) : Nat :=
  (clause.map nesting).getD 0

/-- A parameter is a name. -/
def IsParameter (i r : List Token) (name : String) : Prop :=
  ∃ t, i = t :: r ∧ t.kind = .ident ∧ t.text = name

/-- The parameters of a function, up to the parenthesis that closes them. -/
inductive Parameters : (i r : List Token) → List String → Prop where
  | none {r : List Token} : nextKind r = .operator .rparen → Parameters r r []
  | some {i r : List Token} {names : List String} :
      nextKind r = .operator .rparen → Separated IsParameter i r names → Parameters i r names

/-- Items one after another with ends of line behind them, up to the token `stop`, each of them
inside something of the given weight. -/
inductive Sequence (item : (i r : List Token) → Nat → Node → Prop) (stop : Kind) (weight : Nat) :
    (i r : List Token) → Nat → List Node → Prop where
  | done {r : List Token} : nextKind r = stop → Sequence item stop weight r r 0 []
  | next {i j r : List Token} {a b : Nat} {n : Node} {ns : List Node} :
      item i j a n → Sequence item stop weight (dropBlank j) r b ns →
      Sequence item stop weight i r (max (weight + a) b) (n :: ns)

/-- In front of `r`, the tokens of `i` form `n`, which needs that much of the nesting budget. -/
inductive Forms : (L : Level) → (i r : List Token) → (need : Nat) → (n : Node) → Prop where
  | print {i j r : List Token} {start : Token} {e : Node} :
      start.kind = .keyword .print → Spells .assignment false i j e → Terminated j r →
      Forms .statement (start :: i) r e.nesting (.print start.line e)
  | return_ {i j r : List Token} {start : Token} {e : Node} :
      start.kind = .keyword .return_ → Spells .assignment false i j e → Terminated j r →
      Forms .statement (start :: i) r e.nesting (.return_ start.line e)
  | expression {i j r : List Token} {e : Node} :
      Spells .assignment false i j e → Terminated j r →
      Forms .statement i r e.nesting (.expression e.line e)
  | conditional {i j k : List Token} {a : Nat} {start : Token} {e n : Node} :
      start.kind = .keyword .if_ → Spells .assignment false i j e →
      Tier.assignment.extendedBy false (nextKind j) = false →
      Forms .statement (dropBlank j) k a n → nextKind (dropBlank k) ≠ .keyword .else_ →
      Forms .statement (start :: i) (dropBlank k) (max e.nesting (Nesting.weight .body + a))
        (.conditional start.line e n none)
  | alternative {i j k l r : List Token} {a b : Nat} {start other : Token} {e n m : Node} :
      start.kind = .keyword .if_ → Spells .assignment false i j e →
      Tier.assignment.extendedBy false (nextKind j) = false →
      Forms .statement (dropBlank j) k a n → dropBlank k = other :: l →
      other.kind = .keyword .else_ → Forms .statement (dropBlank l) r b m →
      Forms .statement (start :: i) r
        (max e.nesting (max (Nesting.weight .body + a) (Nesting.weight .body + b)))
        (.conditional start.line e n (some m))
  | loop {i j r : List Token} {a : Nat} {start opening closing : Token} {e n : Node} :
      start.kind = .keyword .while_ → opening.kind = .operator .lparen →
      Spells .assignment false i (closing :: j) e → closing.kind = .operator .rparen →
      Forms .statement (dropBlank j) r a n →
      Forms .statement (start :: opening :: i) r (max e.nesting (Nesting.weight .body + a))
        (.loop start.line e n)
  | forLoop {i j k l r : List Token} {a : Nat} {start opening and₁ and₂ closing : Token}
      {initializer condition increment : Option Node} {n : Node} :
      start.kind = .keyword .for_ → opening.kind = .operator .lparen →
      Clause (.keyword .and_) i (and₁ :: j) initializer →
      Clause (.keyword .and_) j (and₂ :: k) condition →
      Clause (.operator .rparen) k (closing :: l) increment →
      Forms .statement (dropBlank l) r a n →
      Forms .statement (start :: opening :: i) r
        (max (Node.clauseNesting initializer) (max (Node.clauseNesting condition)
          (max (Node.clauseNesting increment) (Nesting.weight .body + a))))
        (Grammar.forLoop start.line (initializer.map Grammar.initializerOf) condition increment n)
  | blockStatement {i r : List Token} {a : Nat} {n : Node} :
      Forms .block i r a n → Forms .statement i r a n
  | block {i r : List Token} {a : Nat} {opening closing : Token} {ns : List Node} :
      opening.kind = .keyword .do_ →
      Sequence (Forms .declaration) (.keyword .end_) (Nesting.weight .block)
        (dropBlank i) (closing :: r) a ns →
      Forms .block (opening :: i) r a (.block opening.line ns)
  | function {i j r : List Token} {a : Nat} {start name opening closing : Token}
      {params : List String} {body : Node} :
      start.kind = .keyword .fn → name.kind = .ident → opening.kind = .operator .lparen →
      Parameters i (closing :: j) params → Forms .block (dropBlank j) r a body →
      Forms .declaration (start :: name :: opening :: i) r a
        (.function start.line name.text params body)
  | declared {i r : List Token} {a : Nat} {n : Node} :
      Forms .statement i r a n → Forms .declaration i r a n

/-! ## Sequences -/

namespace Sequence

variable {item item' : List Token → List Token → Nat → Node → Prop} {stop : Kind} {weight : Nat}
  {i r : List Token} {a : Nat} {ns : List Node}

theorem mono (himp : ∀ i r a n, item i r a n → item' i r a n)
    (h : Sequence item stop weight i r a ns) : Sequence item' stop weight i r a ns := by
  induction h with
  | done hstop => exact .done hstop
  | next hitem _ ih => exact .next (himp _ _ _ _ hitem) ih

/-- A sequence ends in front of the token that stops it. -/
theorem nextKind_eq (h : Sequence item stop weight i r a ns) : nextKind r = stop := by
  induction h with
  | done hstop => exact hstop
  | next _ _ ih => exact ih

end Sequence

namespace Forms

section

variable {P : ∀ L i r a n, Forms L i r a n → Prop}
  (print : ∀ {i j r} {start : Token} {e} (hstart : start.kind = .keyword .print)
    (he : Spells .assignment false i j e) (hend : Terminated j r),
    P _ _ _ _ _ (.print hstart he hend))
  (return_ : ∀ {i j r} {start : Token} {e} (hstart : start.kind = .keyword .return_)
    (he : Spells .assignment false i j e) (hend : Terminated j r),
    P _ _ _ _ _ (.return_ hstart he hend))
  (expression : ∀ {i j r e} (he : Spells .assignment false i j e) (hend : Terminated j r),
    P _ _ _ _ _ (.expression he hend))
  (conditional : ∀ {i j k a} {start : Token} {e n} (hstart : start.kind = .keyword .if_)
    (he : Spells .assignment false i j e)
    (hstop : Tier.assignment.extendedBy false (nextKind j) = false)
    (hn : Forms .statement (dropBlank j) k a n)
    (hno : nextKind (dropBlank k) ≠ .keyword .else_), P _ _ _ _ _ hn →
    P _ _ _ _ _ (.conditional hstart he hstop hn hno))
  (alternative : ∀ {i j k l r a b} {start other : Token} {e n m}
    (hstart : start.kind = .keyword .if_) (he : Spells .assignment false i j e)
    (hstop : Tier.assignment.extendedBy false (nextKind j) = false)
    (hn : Forms .statement (dropBlank j) k a n) (hk : dropBlank k = other :: l)
    (hother : other.kind = .keyword .else_) (hm : Forms .statement (dropBlank l) r b m),
    P _ _ _ _ _ hn → P _ _ _ _ _ hm →
    P _ _ _ _ _ (.alternative hstart he hstop hn hk hother hm))
  (loop : ∀ {i j r a} {start opening closing : Token} {e n}
    (hstart : start.kind = .keyword .while_) (hopen : opening.kind = .operator .lparen)
    (he : Spells .assignment false i (closing :: j) e) (hclose : closing.kind = .operator .rparen)
    (hn : Forms .statement (dropBlank j) r a n), P _ _ _ _ _ hn →
    P _ _ _ _ _ (.loop hstart hopen he hclose hn))
  (forLoop : ∀ {i j k l r a} {start opening and₁ and₂ closing : Token}
    {initializer condition increment n} (hstart : start.kind = .keyword .for_)
    (hopen : opening.kind = .operator .lparen)
    (hinitializer : Clause (.keyword .and_) i (and₁ :: j) initializer)
    (hcondition : Clause (.keyword .and_) j (and₂ :: k) condition)
    (hincrement : Clause (.operator .rparen) k (closing :: l) increment)
    (hn : Forms .statement (dropBlank l) r a n), P _ _ _ _ _ hn →
    P _ _ _ _ _ (.forLoop hstart hopen hinitializer hcondition hincrement hn))
  (blockStatement : ∀ {i r a n} (h : Forms .block i r a n), P _ _ _ _ _ h →
    P _ _ _ _ _ (.blockStatement h))
  (block : ∀ {i r a} {opening closing : Token} {ns} (hopen : opening.kind = .keyword .do_)
    (hns : Sequence (fun i r a n => ∃ h : Forms .declaration i r a n, P _ _ _ _ _ h)
      (.keyword .end_) (Nesting.weight .block) (dropBlank i) (closing :: r) a ns),
    P _ _ _ _ _ (.block hopen (hns.mono fun _ _ _ _ hn => hn.1)))
  (function : ∀ {i j r a} {start name opening closing : Token} {params body}
    (hstart : start.kind = .keyword .fn) (hname : name.kind = .ident)
    (hopen : opening.kind = .operator .lparen) (hparams : Parameters i (closing :: j) params)
    (hbody : Forms .block (dropBlank j) r a body), P _ _ _ _ _ hbody →
    P _ _ _ _ _ (.function hstart hname hopen hparams hbody))
  (declared : ∀ {i r a n} (h : Forms .statement i r a n), P _ _ _ _ _ h →
    P _ _ _ _ _ (.declared h))

include print return_ expression conditional alternative loop forLoop blockStatement block function
  declared

/-- Induction on what is formed: what every way to form something hands on holds of all. -/
theorem induct {L : Level} {i r : List Token} {a : Nat} {n : Node} (h : Forms L i r a n) :
    P L i r a n h :=
  @Forms.rec P
    (fun i r a ns _ =>
      Sequence (fun i r a n => ∃ h : Forms .declaration i r a n, P _ _ _ _ _ h)
        (.keyword .end_) (Nesting.weight .block) i r a ns)
    print return_ expression conditional alternative loop forLoop blockStatement
    (fun hopen _ ihns => block hopen ihns) function declared
    (fun hstop => .done hstop) (fun hn _ ih ihns => .next ⟨hn, ih⟩ ihns)
    L i r a n h

end

end Forms

/-! ## Where statements start and end -/

/-- The kinds of token that a declaration starts with. -/
def Kind.startsDeclaration (k : Kind) : Bool :=
  k.startsStatement || k.startsPrimary || k.isUnary

theorem Spells.startsDeclaration {T : Tier} {s : Bool} {i r : List Token} {e : Node}
    (h : Spells T s i r e) : (nextKind i).startsDeclaration = true := by
  rcases h.start with hprimary | ⟨-, hunary⟩
  · simp [Kind.startsDeclaration, hprimary]
  · simp [Kind.startsDeclaration, hunary]

theorem Terminated.suffix {j r : List Token} (h : Terminated j r) : r <:+ j := by
  cases h with
  | line _ => exact List.suffix_cons _ _
  | closed _ => exact List.suffix_refl _

/-- What ends a simple statement does not go on with an expression in it. -/
theorem Terminated.not_extendedBy {j r : List Token} (h : Terminated j r) (T : Tier) (s : Bool) :
    T.extendedBy s (nextKind j) = false := by
  cases h with
  | line ht => rw [nextKind_cons, ht]; rfl
  | closed hcloses =>
    unfold Kind.closesStatement at hcloses
    split at hcloses
    · next hk => rw [hk]; rfl
    · next hk => rw [hk]; rfl
    · next hk => rw [hk]; rfl
    · simp at hcloses

theorem Spans.terminated {i j r : List Token} (h : Spans (·.kind ≠ .eof) i j)
    (hend : Terminated j r) : Spans (·.kind ≠ .eof) i r := by
  cases hend with
  | line ht => exact h.trans (.one_of_kind ht (by decide) _)
  | closed _ => exact h

/-- Ends of line are not the end of the input. -/
theorem Spans.through_blank {i r : List Token} (h : Spans (·.kind ≠ .eof) i r) :
    Spans (·.kind ≠ .eof) i (dropBlank r) :=
  h.passBlank fun t ht => by simp [ht]

theorem Clause.nextKind_eq {stop : Kind} {i r : List Token} {clause : Option Node}
    (h : Clause stop i r clause) : nextKind r = stop := by
  cases h with
  | none hstop => exact hstop
  | some hstop _ => exact hstop

theorem Parameters.nextKind_eq {i r : List Token} {names : List String}
    (h : Parameters i r names) : nextKind r = .operator .rparen := by
  cases h with
  | none hclose => exact hclose
  | some hclose _ => exact hclose

/-- A clause and the token that ends it are of kinds that expressions are made of. -/
theorem Clause.inExpression {stop : Kind} {i r : List Token} {t : Token} {clause : Option Node}
    (h : Clause stop i (t :: r) clause) (hstop : stop.isInExpression = true) :
    Spans (·.kind.isInExpression = true) i r := by
  have ht : t.kind = stop := h.nextKind_eq
  have hone : Spans (·.kind.isInExpression = true) (t :: r) r := .one (by rwa [ht]) r
  cases h with
  | none _ => exact hone
  | some _ he => exact he.inExpression.trans hone

/-- So are the parameters of a function and the parenthesis that closes them. -/
theorem Parameters.inExpression {i r : List Token} {t : Token} {names : List String}
    (h : Parameters i (t :: r) names) : Spans (·.kind.isInExpression = true) i r := by
  have ht : t.kind = .operator .rparen := h.nextKind_eq
  have hone : Spans (·.kind.isInExpression = true) (t :: r) r := .one (by rw [ht]; rfl) r
  cases h with
  | none _ => exact hone
  | some _ hnames =>
    have hall := hnames.spans (Q := (·.kind.isInExpression = true))
      (by
        rintro _ _ _ ⟨u, rfl, hu, -⟩
        exact .one (by rw [hu]; rfl) _)
      fun u hu => by rw [hu]; rfl
    exact hall.trans hone

/-- Behind the token that ends a clause, everything is no matter to it. -/
theorem Clause.detach {stop : Kind} {i r : List Token} {t : Token} {clause : Option Node}
    (h : Clause stop i (t :: r) clause) :
    ∃ v, i = v ++ t :: r ∧ ∀ r', Clause stop (v ++ t :: r') (t :: r') clause := by
  cases h with
  | none hstop => exact ⟨[], rfl, fun _ => .none hstop⟩
  | some hstop he =>
    rcases he.detach with ⟨v, hi, hv⟩
    exact ⟨v, hi, fun r' => .some hstop (hv (t :: r'))⟩

theorem IsParameter.detach {i r : List Token} {name : String} (h : IsParameter i r name) :
    ∃ v, i = v ++ r ∧ ∀ r', IsParameter (v ++ r') r' name := by
  rcases h with ⟨t, rfl, hkind, htext⟩
  exact ⟨[t], rfl, fun _ => ⟨t, rfl, hkind, htext⟩⟩

/-- So it is behind the parenthesis that closes a list of parameters. -/
theorem Parameters.detach {i r : List Token} {t : Token} {names : List String}
    (h : Parameters i (t :: r) names) :
    ∃ v, i = v ++ t :: r ∧ ∀ r', Parameters (v ++ t :: r') (t :: r') names := by
  cases h with
  | none hclose => exact ⟨[], rfl, fun _ => .none hclose⟩
  | some hclose hnames =>
    rcases hnames.detach fun _ _ _ => IsParameter.detach with ⟨v, hi, hv⟩
    exact ⟨v, hi, fun r' => .some hclose (hv (t :: r'))⟩

theorem Sequence.spans {item : List Token → List Token → Nat → Node → Prop} {stop : Kind}
    {weight a : Nat} {i r : List Token} {t : Token} {ns : List Node}
    (hitem : ∀ i r a n, item i r a n → Spans (·.kind ≠ .eof) i r)
    (h : Sequence item stop weight i (t :: r) a ns) (hstop : stop ≠ .eof) :
    Spans (·.kind ≠ .eof) i r := by
  generalize hk : t :: r = k at h
  induction h with
  | done ht =>
    subst hk
    exact .one_of_kind ht hstop _
  | next hn _ ih => exact (hitem _ _ _ _ hn).through_blank.trans (ih hk)

namespace Forms

variable {L : Level} {i r : List Token} {a : Nat} {n : Node}

/-- What is formed takes tokens, and none of them is the end of the input. -/
theorem spans (h : Forms L i r a n) : Spans (·.kind ≠ .eof) i r := by
  have hone : ∀ {t : Token} {k : Kind} (r : List Token), t.kind = k → k ≠ .eof →
      Spans (·.kind ≠ .eof) (t :: r) r := by
    intro t k r ht hk
    exact .one_of_kind ht hk r
  induction h using Forms.induct with
  | print hstart he hend =>
    exact .trans (hone _ hstart (by decide)) (he.takes.terminated hend)
  | return_ hstart he hend =>
    exact .trans (hone _ hstart (by decide)) (he.takes.terminated hend)
  | expression he hend => exact he.takes.terminated hend
  | conditional hstart he _ _ _ ih =>
    exact .trans (hone _ hstart (by decide)) (he.takes.through_blank.trans ih.through_blank)
  | alternative hstart he _ _ hk hother _ ih ihElse =>
    have hthen := ih.through_blank
    rw [hk] at hthen
    have helse := (hthen.trans (hone _ hother (by decide))).through_blank.trans ihElse
    exact .trans (hone _ hstart (by decide)) (he.takes.through_blank.trans helse)
  | loop hstart hopen he hclose _ ih =>
    have hcondition := he.takes.trans (hone _ hclose (by decide))
    exact .trans (hone _ hstart (by decide))
      (.trans (hone _ hopen (by decide)) (hcondition.through_blank.trans ih))
  | forLoop hstart hopen hinitializer hcondition hincrement _ ih =>
    have hclauses := (hinitializer.inExpression rfl).trans
      ((hcondition.inExpression rfl).trans (hincrement.inExpression rfl))
    exact .trans (hone _ hstart (by decide))
      (.trans (hone _ hopen (by decide)) (hclauses.takes.through_blank.trans ih))
  | blockStatement _ ih => exact ih
  | @block i r a opening closing ns hopen hns =>
    have hstatements := hns.spans (fun _ _ _ _ hn => hn.2) (by decide)
    exact (hone _ hopen (by decide)).through_blank.trans hstatements
  | function hstart hname hopen hparams _ ih =>
    exact .trans (hone _ hstart (by decide)) (.trans (hone _ hname (by decide))
      (.trans (hone _ hopen (by decide)) (hparams.inExpression.takes.through_blank.trans ih)))
  | declared _ ih => exact ih

theorem start (h : Forms L i r a n) : (nextKind i).startsDeclaration = true := by
  induction h using Forms.induct with
  | print hstart _ _ => simp [hstart, Kind.startsDeclaration, Kind.startsStatement]
  | return_ hstart _ _ => simp [hstart, Kind.startsDeclaration, Kind.startsStatement]
  | expression he _ => exact he.startsDeclaration
  | conditional hstart _ _ _ _ _ => simp [hstart, Kind.startsDeclaration, Kind.startsStatement]
  | alternative hstart _ _ _ _ _ _ _ _ =>
    simp [hstart, Kind.startsDeclaration, Kind.startsStatement]
  | loop hstart _ _ _ _ _ => simp [hstart, Kind.startsDeclaration, Kind.startsStatement]
  | forLoop hstart _ _ _ _ _ _ => simp [hstart, Kind.startsDeclaration, Kind.startsStatement]
  | blockStatement _ ih => exact ih
  | block hopen _ => simp [hopen, Kind.startsDeclaration, Kind.startsStatement]
  | function hstart _ _ _ _ _ => simp [hstart, Kind.startsDeclaration, Kind.startsStatement]
  | declared _ ih => exact ih

theorem block_start (h : Forms .block i r a n) : nextKind i = .keyword .do_ := by
  cases h with
  | block hopen _ => exact hopen

theorem statement_start (h : Forms .statement i r a n) : nextKind i ≠ .keyword .fn := by
  cases h with
  | print hstart _ _ => simp [hstart]
  | return_ hstart _ _ => simp [hstart]
  | expression he _ => exact he.nextKind_ne (by decide) (by decide)
  | conditional hstart _ _ _ _ => simp [hstart]
  | alternative hstart _ _ _ _ _ _ => simp [hstart]
  | loop hstart _ _ _ _ => simp [hstart]
  | forLoop hstart _ _ _ _ _ => simp [hstart]
  | blockStatement h => simp [h.block_start]

/-- A token that starts no declaration is not what one starts with. -/
theorem nextKind_ne (h : Forms L i r a n) {k : Kind} (hk : k.startsDeclaration = false) :
    nextKind i ≠ k := by
  intro heq
  have hstart := h.start
  rw [heq, hk] at hstart
  exact absurd hstart (by decide)

end Forms

/-- A sequence of declarations starts with one, or with the token that stops it. -/
theorem Sequence.nextKind_ne {stop : Kind} {weight a : Nat} {i r : List Token} {ns : List Node}
    (h : Sequence (Forms .declaration) stop weight i r a ns) {k : Kind}
    (hk : k.startsDeclaration = false) (hstop : stop ≠ k) : nextKind i ≠ k := by
  cases h with
  | done hr => rwa [hr]
  | next hn _ => exact hn.nextKind_ne hk

end ScriptCheck
