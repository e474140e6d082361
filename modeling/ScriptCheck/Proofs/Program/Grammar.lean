import ScriptCheck.Proofs.Expression.Words
import ScriptCheck.Proofs.Program.Reading

/-!
# The grammar of programs

`DerivesProgram` is the grammar in the usual form: ends of line are optional where they may stand,
and of two conditionals either one may take an `else`. It is ambiguous, where `Forms` is not, and
the theorem of this module is that a parse without an error is possible for exactly the inputs that
have a derivation (`Session.parse_accepts_iff`).

What is formed is derived as it stands. The converse has to undo choices: a derivation may give an
`else` to a conditional farther off than the nearest, and reading then ends at another place than
the derivation does. `ElseRead` is the invariant for that. It is on a set of places, and reading a
statement that a derivation ends at one of them ends at one of them as well.
-/

namespace ScriptCheck

/-! ## Derivations -/

/-- Between the two places there are only ends of line. -/
def Blanks (i r : List Token) : Prop :=
  ∃ es, i = es ++ r ∧ ∀ t ∈ es, t.kind = .eol

/-- Between the two places there is an expression. -/
def DerivesExpression (i r : List Token) : Prop :=
  ∃ ks, Segment Token.kind ks i r ∧ Tier.assignment.Derives ks

/-- Between the two places there is a clause of a `for`, or nothing: an expression with no `and`
outside its own parentheses. -/
inductive DerivesSlot : (i r : List Token) → Prop where
  | none {r : List Token} : DerivesSlot r r
  | some {i r : List Token} {ks : List Kind} :
      Segment Token.kind ks i r → Tier.assignment.Derives ks → bareAnd 0 ks = false →
      DerivesSlot i r

/-- Between the two places there are names with commas between them. -/
inductive DerivesNames : (i r : List Token) → Prop where
  | last {r : List Token} {t : Token} : t.kind = .ident → DerivesNames (t :: r) r
  | more {i r : List Token} {t comma : Token} :
      t.kind = .ident → comma.kind = .operator .comma → DerivesNames i r →
      DerivesNames (t :: comma :: i) r

/-- The phrases of the grammar that contain one another. -/
inductive Phrase where
  | declarations | declaration | block | statement
  deriving DecidableEq, Repr

/-- Between the two places there is a phrase. -/
inductive Phrase.Derives : Phrase → (i r : List Token) → Prop where
  /-- `declarations →` -/
  | none {r : List Token} : Derives .declarations r r
  /-- `declarations → declaration EOL* declarations` -/
  | next {i j k r : List Token} :
      Derives .declaration i j → Blanks j k → Derives .declarations k r → Derives .declarations i r
  /-- `declaration → "fn" IDENT "(" names? ")" EOL* block` -/
  | function {i j k r : List Token} {start name opening closing : Token} :
      start.kind = .keyword .fn → name.kind = .ident → opening.kind = .operator .lparen →
      (i = closing :: j ∨ DerivesNames i (closing :: j)) → closing.kind = .operator .rparen →
      Blanks j k → Derives .block k r → Derives .declaration (start :: name :: opening :: i) r
  /-- `declaration → statement` -/
  | declared {i r : List Token} : Derives .statement i r → Derives .declaration i r
  /-- `block → "do" EOL* declarations "end"` -/
  | block {i j r : List Token} {opening closing : Token} :
      opening.kind = .keyword .do_ → Blanks i j → Derives .declarations j (closing :: r) →
      closing.kind = .keyword .end_ → Derives .block (opening :: i) r
  /-- `statement → "if" expression EOL* statement`, where the token behind the condition does not go
  on with it -/
  | conditional {i j k r : List Token} {start : Token} :
      start.kind = .keyword .if_ → DerivesExpression i j → nextKind j ≠ .operator .lparen →
      nextKind j ≠ .operator .minus → Blanks j k → Derives .statement k r →
      Derives .statement (start :: i) r
  /-- `statement → "if" expression EOL* statement EOL* "else" EOL* statement` -/
  | alternative {i j k l m p r : List Token} {start other : Token} :
      start.kind = .keyword .if_ → DerivesExpression i j → nextKind j ≠ .operator .lparen →
      nextKind j ≠ .operator .minus → Blanks j k → Derives .statement k l →
      Blanks l (other :: m) → other.kind = .keyword .else_ → Blanks m p → Derives .statement p r →
      Derives .statement (start :: i) r
  /-- `statement → "for" "(" slot? "and" slot? "and" slot? ")" EOL* statement` -/
  | forLoop {i j k l m r : List Token} {start opening and₁ and₂ closing : Token} :
      start.kind = .keyword .for_ → opening.kind = .operator .lparen →
      DerivesSlot i (and₁ :: j) → and₁.kind = .keyword .and_ →
      DerivesSlot j (and₂ :: k) → and₂.kind = .keyword .and_ →
      DerivesSlot k (closing :: l) → closing.kind = .operator .rparen →
      Blanks l m → Derives .statement m r → Derives .statement (start :: opening :: i) r
  /-- `statement → "while" "(" expression ")" EOL* statement` -/
  | loop {i j k r : List Token} {start opening closing : Token} :
      start.kind = .keyword .while_ → opening.kind = .operator .lparen →
      DerivesExpression i (closing :: j) → closing.kind = .operator .rparen →
      Blanks j k → Derives .statement k r → Derives .statement (start :: opening :: i) r
  /-- `statement → "print" expression end` -/
  | print {i j r : List Token} {start : Token} :
      start.kind = .keyword .print → DerivesExpression i j → Terminated j r →
      Derives .statement (start :: i) r
  /-- `statement → "return" expression end` -/
  | return_ {i j r : List Token} {start : Token} :
      start.kind = .keyword .return_ → DerivesExpression i j → Terminated j r →
      Derives .statement (start :: i) r
  /-- `statement → block` -/
  | blockStatement {i r : List Token} : Derives .block i r → Derives .statement i r
  /-- `statement → expression end` -/
  | expression {i j r : List Token} :
      DerivesExpression i j → Terminated j r → Derives .statement i r

/-- The tokens are a program: `program → EOL* declarations`. -/
def DerivesProgram (i : List Token) : Prop :=
  ∃ j, Blanks i j ∧ Phrase.declarations.Derives j []

/-! ## Ends of line between places -/

namespace Blanks

variable {i j r : List Token}

theorem refl (r : List Token) : Blanks r r :=
  ⟨[], rfl, by simp⟩

theorem trans (h : Blanks i j) (h' : Blanks j r) : Blanks i r := by
  rcases h with ⟨es, rfl, hes⟩
  rcases h' with ⟨fs, rfl, hfs⟩
  refine ⟨es ++ fs, by simp, ?_⟩
  intro t ht
  rcases List.mem_append.mp ht with hmem | hmem
  · exact hes t hmem
  · exact hfs t hmem

theorem dropBlank (r : List Token) : Blanks r (dropBlank r) :=
  exists_blank_append r

theorem suffix (h : Blanks i r) : r <:+ i := by
  rcases h with ⟨es, rfl, -⟩
  exact List.suffix_append es r

theorem dropBlank_eq (h : Blanks i r) : ScriptCheck.dropBlank i = ScriptCheck.dropBlank r := by
  rcases h with ⟨es, rfl, hes⟩
  exact dropBlank_append_of_blank hes r

theorem eq_or_nextKind_eq (h : Blanks i r) : i = r ∨ nextKind i = .eol := by
  rcases h with ⟨es, rfl, hes⟩
  cases es with
  | nil => exact Or.inl rfl
  | cons t es => exact Or.inr (hes t (by simp))

end Blanks

/-! ## What is formed is derived -/

/-- The phrase that is formed on a level. -/
def Level.phrase : Level → Phrase
  | declaration => .declaration
  | statement => .statement
  | block => .block

theorem Spells.derivesExpression {i r : List Token} {e : Node}
    (h : Spells .assignment false i r e) : DerivesExpression i r := by
  rcases h.exists_word with ⟨ks, hsegment, hderives, -⟩
  exact ⟨ks, hsegment, hderives⟩

theorem Clause.derivesSlot {stop : Kind} {i r : List Token} {clause : Option Node}
    (h : Clause stop i r clause) : DerivesSlot i r := by
  cases h with
  | none _ => exact .none
  | some _ he =>
    rcases he.exists_word with ⟨ks, hsegment, hderives, hbare⟩
    exact .some hsegment hderives (hbare rfl)

theorem Separated.derivesNames {i r : List Token} {names : List String}
    (h : Separated IsParameter i r names) : DerivesNames i r := by
  induction h with
  | one hname =>
    rcases hname with ⟨t, rfl, ht, -⟩
    exact .last ht
  | more hname hcomma _ ih =>
    rcases hname with ⟨t, rfl, ht, -⟩
    exact .more ht hcomma ih

theorem Parameters.derivesNames {i r : List Token} {names : List String}
    (h : Parameters i r names) : i = r ∨ DerivesNames i r := by
  cases h with
  | none _ => exact Or.inl rfl
  | some _ hnames => exact Or.inr hnames.derivesNames

/-- What goes on with a condition is told apart from what may follow one. -/
theorem ne_of_not_extendedBy {k : Kind} (h : Tier.assignment.extendedBy false k = false) :
    k ≠ .operator .lparen ∧ k ≠ .operator .minus := by
  constructor <;> rintro rfl <;> simp [Tier.extendedBy, Tier.ofKind?, Tier.rank] at h

/-- A sequence of what is derived is derived, with the ends of line behind its items. -/
theorem Sequence.derives {stop : Kind} {weight a : Nat} {i r : List Token} {ns : List Node}
    {item : List Token → List Token → Nat → Node → Prop}
    (hitem : ∀ i r a n, item i r a n → ∃ k, Phrase.declaration.Derives i k ∧ Blanks k r)
    (h : Sequence item stop weight i r a ns) : Phrase.declarations.Derives i r := by
  induction h with
  | done _ => exact .none
  | next hn _ ih =>
    rcases hitem _ _ _ _ hn with ⟨k, hderives, hblanks⟩
    exact .next hderives (hblanks.trans (.dropBlank _)) ih

/-- What is formed is derived, up to ends of line behind it. -/
theorem Forms.derives {L : Level} {i r : List Token} {a : Nat} {n : Node} (h : Forms L i r a n) :
    ∃ k, L.phrase.Derives i k ∧ Blanks k r := by
  induction h using Forms.induct with
  | print hstart he hend => exact ⟨_, .print hstart he.derivesExpression hend, .refl _⟩
  | return_ hstart he hend => exact ⟨_, .return_ hstart he.derivesExpression hend, .refl _⟩
  | expression he hend => exact ⟨_, .expression he.derivesExpression hend, .refl _⟩
  | conditional hstart he hstop _ _ ih =>
    rcases ne_of_not_extendedBy hstop with ⟨hopen, hminus⟩
    rcases ih with ⟨k, hderives, hblanks⟩
    exact ⟨k, .conditional hstart he.derivesExpression hopen hminus (.dropBlank _) hderives,
      hblanks.trans (.dropBlank _)⟩
  | alternative hstart he hstop _ hk hother _ ih ihElse =>
    rcases ne_of_not_extendedBy hstop with ⟨hopen, hminus⟩
    rcases ih with ⟨k, hderives, hblanks⟩
    rcases ihElse with ⟨m, helse, hend⟩
    have hrest := hblanks.trans (.dropBlank _)
    rw [hk] at hrest
    exact ⟨m, .alternative hstart he.derivesExpression hopen hminus (.dropBlank _) hderives hrest
      hother (.dropBlank _) helse, hend⟩
  | loop hstart hopen he hclose _ ih =>
    rcases ih with ⟨k, hderives, hblanks⟩
    exact ⟨k, .loop hstart hopen he.derivesExpression hclose (.dropBlank _) hderives, hblanks⟩
  | forLoop hstart hopen hinitializer hcondition hincrement _ ih =>
    rcases ih with ⟨k, hderives, hblanks⟩
    exact ⟨k, .forLoop hstart hopen hinitializer.derivesSlot hinitializer.nextKind_eq
      hcondition.derivesSlot hcondition.nextKind_eq hincrement.derivesSlot hincrement.nextKind_eq
      (.dropBlank _) hderives, hblanks⟩
  | blockStatement _ ih =>
    rcases ih with ⟨k, hderives, hblanks⟩
    exact ⟨k, .blockStatement hderives, hblanks⟩
  | block hopen hns =>
    exact ⟨_, .block hopen (.dropBlank _) (hns.derives fun _ _ _ _ hn => hn.2) hns.nextKind_eq,
      .refl _⟩
  | function hstart hname hopen hparams _ ih =>
    rcases ih with ⟨k, hderives, hblanks⟩
    exact ⟨k, .function hstart hname hopen hparams.derivesNames hparams.nextKind_eq (.dropBlank _)
      hderives, hblanks⟩
  | declared _ ih =>
    rcases ih with ⟨k, hderives, hblanks⟩
    exact ⟨k, .declared hderives, hblanks⟩

/-! ## What is derived is formed -/

theorem DerivesExpression.suffix {i r : List Token} (h : DerivesExpression i r) : r <:+ i := by
  rcases h with ⟨ks, hsegment, -⟩
  exact hsegment.suffix

theorem DerivesExpression.exists_spells {i r : List Token} (h : DerivesExpression i r)
    (hi : NumbersCarryValues i) : ∃ e, Spells .assignment false i r e := by
  rcases h with ⟨ks, hsegment, hderives⟩
  exact hderives.exists_spells (by simp) hi hsegment

theorem DerivesSlot.suffix {i r : List Token} (h : DerivesSlot i r) : r <:+ i := by
  cases h with
  | none => exact List.suffix_refl _
  | some hsegment _ _ => exact hsegment.suffix

theorem DerivesSlot.exists_clause {stop : Kind} {i r : List Token} (h : DerivesSlot i r)
    (hstop : nextKind r = stop) (hi : NumbersCarryValues i) : ∃ clause, Clause stop i r clause := by
  cases h with
  | none => exact ⟨Option.none, .none hstop⟩
  | some hsegment hderives hbare =>
    rcases hderives.exists_spells (s := true) (fun _ => hbare) hi hsegment with ⟨e, he⟩
    exact ⟨Option.some e, .some hstop he⟩

theorem DerivesNames.suffix {i r : List Token} (h : DerivesNames i r) : r <:+ i := by
  induction h with
  | last _ => exact List.suffix_cons _ _
  | more _ _ _ ih => exact ih.trans ((List.suffix_cons _ _).trans (List.suffix_cons _ _))

theorem DerivesNames.exists_separated {i r : List Token} (h : DerivesNames i r) :
    ∃ names, Separated IsParameter i r names := by
  induction h with
  | @last r t ht => exact ⟨[t.text], .one ⟨t, rfl, ht, rfl⟩⟩
  | @more i r t comma ht hcomma _ ih =>
    rcases ih with ⟨names, hnames⟩
    exact ⟨t.text :: names, .more ⟨t, rfl, ht, rfl⟩ hcomma hnames⟩

/-- Behind the parameters and the parenthesis that closes them there are fewer tokens. -/
theorem suffix_of_names {i j : List Token} {closing : Token}
    (h : i = closing :: j ∨ DerivesNames i (closing :: j)) : j <:+ i := by
  rcases h with rfl | hnames
  · exact List.suffix_cons _ _
  · exact (List.suffix_cons _ _).trans hnames.suffix

theorem exists_parameters {i r : List Token} (h : i = r ∨ DerivesNames i r)
    (hclose : nextKind r = .operator .rparen) : ∃ names, Parameters i r names := by
  rcases h with rfl | hnames
  · exact ⟨[], .none hclose⟩
  · rcases hnames.exists_separated with ⟨names, hseparated⟩
    exact ⟨names, .some hclose hseparated⟩

namespace Phrase

theorem Derives.suffix {p : Phrase} {i r : List Token} (h : p.Derives i r) : r <:+ i := by
  induction h with
  | none => exact List.suffix_refl _
  | next _ hblanks _ ih ihRest => exact ihRest.trans (hblanks.suffix.trans ih)
  | @function i j k r start name opening closing _ _ _ hnames _ hblanks _ ih =>
    have hbody := ih.trans (hblanks.suffix.trans (suffix_of_names hnames))
    exact hbody.trans ((suffix_cons_cons name opening i).trans (List.suffix_cons start _))
  | declared _ ih => exact ih
  | block _ hblanks _ _ ih =>
    exact (List.suffix_cons _ _).trans (ih.trans (hblanks.suffix.trans (List.suffix_cons _ _)))
  | conditional _ he _ _ hblanks _ ih =>
    exact ih.trans (hblanks.suffix.trans (he.suffix.trans (List.suffix_cons _ _)))
  | @alternative i j k l m p r start other _ he _ _ hblanks _ hrest _ hother _ ih ihElse =>
    have hthen := ih.trans (hblanks.suffix.trans (he.suffix.trans (List.suffix_cons start i)))
    have helse := ihElse.trans (hother.suffix.trans (List.suffix_cons other m))
    exact helse.trans (hrest.suffix.trans hthen)
  | @forLoop i j k l m r start opening and₁ and₂ closing _ _ hi _ hj _ hk _ hblanks _ ih =>
    have hj' := (List.suffix_cons and₁ j).trans hi.suffix
    have hk' := ((List.suffix_cons and₂ k).trans hj.suffix).trans hj'
    have hl := ((List.suffix_cons closing l).trans hk.suffix).trans hk'
    exact ih.trans (hblanks.suffix.trans
      (hl.trans (suffix_cons_cons start opening i)))
  | @loop i j k r start opening closing _ _ he _ hblanks _ ih =>
    have hj := (List.suffix_cons closing j).trans he.suffix
    exact ih.trans (hblanks.suffix.trans
      (hj.trans (suffix_cons_cons start opening i)))
  | print _ he hend => exact hend.suffix.trans (he.suffix.trans (List.suffix_cons _ _))
  | return_ _ he hend => exact hend.suffix.trans (he.suffix.trans (List.suffix_cons _ _))
  | blockStatement _ ih => exact ih
  | expression he hend => exact hend.suffix.trans he.suffix

/-- At every one of the places an `else` may be read, and what it takes ends at one of them again.
The places are behind the ends of line. -/
def ElseRead (E : List Token → Prop) : Prop :=
  ∀ other j, E (other :: j) → other.kind = .keyword .else_ →
    ∃ r need n, Forms .statement (dropBlank j) r need n ∧ E (dropBlank r)

/-- Where a phrase is read that a derivation puts between two places. A statement may be read
beyond the place where the derivation ends, since an `else` behind it goes to the nearest
conditional. The others end where they have to. -/
def Reads : Phrase → (i r : List Token) → Prop
  | .declarations, i, r => ∀ stop weight, nextKind r = stop → stop ≠ .eol → stop ≠ .keyword .else_ →
      ∃ need ns, Sequence (Forms .declaration) stop weight (dropBlank i) r need ns
  | .declaration, i, r => nextKind (dropBlank r) ≠ .keyword .else_ →
      ∃ k need n, Forms .declaration i k need n ∧ dropBlank k = dropBlank r
  | .block, i, r => ∃ need n, Forms .block i r need n
  | .statement, i, r => ∀ E, ElseRead E → E (dropBlank r) →
      ∃ k need n, Forms .statement i k need n ∧ E (dropBlank k)

/-- In front of a token other than `else` there is only one place where a statement may end. -/
theorem Reads.ends {i r : List Token} (h : statement.Reads i r)
    (hr : nextKind (dropBlank r) ≠ .keyword .else_) :
    ∃ k need n, Forms .statement i k need n ∧ dropBlank k = dropBlank r := by
  refine h (· = dropBlank r) ?_ rfl
  intro other j heq helse
  rw [← heq, nextKind_cons] at hr
  exact absurd helse hr

theorem not_extendedBy_of_startsDeclaration {k : Kind} (h : k.startsDeclaration = true)
    (hopen : k ≠ .operator .lparen) (hminus : k ≠ .operator .minus) :
    Tier.assignment.extendedBy false k = false := by
  unfold Tier.extendedBy Tier.ofKind?
  split <;> simp_all [Kind.startsDeclaration, Kind.startsStatement, Kind.startsPrimary,
    Kind.isUnary]

/-- A condition ends where its derivation does, since neither an end of line nor the statement
behind it goes on with it. -/
theorem not_extendedBy_of_blanks {L : Level} {j k r : List Token} {a : Nat} {n : Node}
    (hblanks : Blanks j k) (hn : Forms L k r a n) (hopen : nextKind j ≠ .operator .lparen)
    (hminus : nextKind j ≠ .operator .minus) :
    Tier.assignment.extendedBy false (nextKind j) = false := by
  rcases hblanks.eq_or_nextKind_eq with rfl | heol
  · exact not_extendedBy_of_startsDeclaration hn.start hopen hminus
  · rw [heol]
    rfl

theorem dropBlank_eq_of_blanks {L : Level} {j k r : List Token} {a : Nat} {n : Node}
    (hblanks : Blanks j k) (hn : Forms L k r a n) : dropBlank j = k := by
  rw [hblanks.dropBlank_eq, dropBlank_of_nextKind_ne (hn.nextKind_ne rfl)]

/-- A conditional is read with the `else` behind its branch, wherever that comes from, or else ends
there. -/
theorem reads_conditional {i j k l : List Token} {start : Token} {E E' : List Token → Prop}
    (hi : NumbersCarryValues i) (hstart : start.kind = .keyword .if_) (he : DerivesExpression i j)
    (hopen : nextKind j ≠ .operator .lparen) (hminus : nextKind j ≠ .operator .minus)
    (hblanks : Blanks j k) {a : Nat} {n : Node} (hn : Forms .statement k l a n)
    (hl : E' (dropBlank l))
    (helse : ∀ other m, E' (other :: m) → other.kind = .keyword .else_ →
      ∃ r need n, Forms .statement (dropBlank m) r need n ∧ E (dropBlank r))
    (hend : ∀ r, E' r → nextKind r ≠ .keyword .else_ → E r) :
    ∃ r need n, Forms .statement (start :: i) r need n ∧ E (dropBlank r) := by
  rcases he.exists_spells hi with ⟨e, hspells⟩
  have hstop := not_extendedBy_of_blanks hblanks hn hopen hminus
  have hforms : Forms .statement (dropBlank j) l a n := by
    rw [dropBlank_eq_of_blanks hblanks hn]
    exact hn
  -- Reading is greedy: whether the derivation has an `else` here or not, it is taken if it comes.
  by_cases hno : nextKind (dropBlank l) = .keyword .else_
  · rcases exists_cons_of_nextKind hno (by decide) with ⟨other, m, hm, hother⟩
    rw [hm] at hl
    rcases helse other m hl hother with ⟨r, b, n', hforms', hr⟩
    exact ⟨r, _, _, .alternative hstart hspells hstop hforms hm hother hforms', hr⟩
  · refine ⟨_, _, _, .conditional hstart hspells hstop hforms hno, ?_⟩
    rw [dropBlank_dropBlank]
    exact hend _ hl hno

/-- What is derived is read. -/
theorem Derives.reads {p : Phrase} {i r : List Token} (h : p.Derives i r)
    (hi : NumbersCarryValues i) : p.Reads i r := by
  induction h with
  | none =>
    intro stop weight hstop hne _
    rw [dropBlank_of_nextKind_ne (by rwa [hstop])]
    exact ⟨0, [], .done hstop⟩
  | @next i j k r hd hblanks hds ih ihRest =>
    intro stop weight hstop hne helse
    have hk := hi.of_suffix (hblanks.suffix.trans hd.suffix)
    rcases ihRest hk stop weight hstop hne helse with ⟨b, ns, hsequence⟩
    -- What follows is a declaration or the token that stops them, and so no `else`.
    have hnext : nextKind (dropBlank j) ≠ .keyword .else_ := by
      rw [hblanks.dropBlank_eq]
      exact hsequence.nextKind_ne rfl helse
    rcases ih hi hnext with ⟨l, a, n, hn, hl⟩
    rw [dropBlank_of_nextKind_ne (hn.nextKind_ne rfl)]
    rw [← hblanks.dropBlank_eq, ← hl] at hsequence
    exact ⟨_, _, .next hn hsequence⟩
  | @function i j k r start name opening closing hstart hname hopen hnames hclose hblanks hbody
      ih =>
    intro _
    have hi' := hi.of_suffix ((suffix_cons_cons name opening i).trans (List.suffix_cons start _))
    rcases exists_parameters hnames hclose with ⟨names, hparameters⟩
    rcases ih (hi'.of_suffix (hblanks.suffix.trans (suffix_of_names hnames))) with ⟨a, n, hn⟩
    rw [← dropBlank_eq_of_blanks hblanks hn] at hn
    exact ⟨r, a, _, .function hstart hname hopen hparameters hn, rfl⟩
  | declared _ ih =>
    intro hr
    rcases (ih hi).ends hr with ⟨k, a, n, hn, hk⟩
    exact ⟨k, a, n, .declared hn, hk⟩
  | block hopen hblanks hds hclose ih =>
    have hj := (hi.of_suffix (List.suffix_cons _ _)).of_suffix hblanks.suffix
    rcases ih hj (.keyword .end_) (Nesting.weight .block) hclose (by decide) (by decide)
      with ⟨a, ns, hsequence⟩
    rw [← hblanks.dropBlank_eq] at hsequence
    exact ⟨a, _, .block hopen hsequence⟩
  | conditional hstart he hopen hminus hblanks hn ih =>
    -- The places behind the branch and behind the conditional are the same.
    intro E hE hr
    have hi' := hi.of_suffix (List.suffix_cons _ _)
    rcases ih (hi'.of_suffix (hblanks.suffix.trans he.suffix)) E hE hr with ⟨l, a, n, hforms, hl⟩
    exact reads_conditional hi' hstart he hopen hminus hblanks hforms hl hE fun _ hr _ => hr
  | @alternative i j k l m p r start other hstart he hopen hminus hblanks hn hrest hother hblanks'
      hm ih ihElse =>
    intro E hE hr
    have hi' := hi.of_suffix (List.suffix_cons start i)
    have hk := hi'.of_suffix (hblanks.suffix.trans he.suffix)
    have hm' := (hk.of_suffix (hrest.suffix.trans hn.suffix)).of_suffix (List.suffix_cons other m)
    rcases ihElse (hm'.of_suffix hblanks'.suffix) E hE hr with ⟨q, b, n', helse, hq⟩
    -- The branch may end in front of the `else` of the derivation, too.
    let E' : List Token → Prop := fun q => E q ∨ q = other :: m
    have hread : ∀ other' m', E' (other' :: m') → other'.kind = .keyword .else_ →
        ∃ r need n, Forms .statement (dropBlank m') r need n ∧ E (dropBlank r) := by
      rintro other' m' (hmem | heq) hkind
      · exact hE other' m' hmem hkind
      · cases heq
        rw [dropBlank_eq_of_blanks hblanks' helse]
        exact ⟨q, b, n', helse, hq⟩
    have hE' : ElseRead E' := by
      intro other' m' hmem hkind
      rcases hread other' m' hmem hkind with ⟨r, b, n, hforms, hr⟩
      exact ⟨r, b, n, hforms, Or.inl hr⟩
    have hl : E' (dropBlank l) := by
      right
      rw [hrest.dropBlank_eq, dropBlank_of_nextKind_ne (by simp [hother])]
    rcases ih hk E' hE' hl with ⟨l', a, n, hforms, hl'⟩
    refine reads_conditional hi' hstart he hopen hminus hblanks hforms hl' hread ?_
    rintro q' (hmem | rfl) hno
    · exact hmem
    · exact absurd hother hno
  | @forLoop i j k l m r start opening and₁ and₂ closing hstart hopen hslot hand₁ hslot' hand₂
      hslot'' hclose hblanks hn ih =>
    intro E hE hr
    have hi' := hi.of_suffix (suffix_cons_cons start opening i)
    have hj := hi'.of_suffix ((List.suffix_cons and₁ j).trans hslot.suffix)
    have hk := hj.of_suffix ((List.suffix_cons and₂ k).trans hslot'.suffix)
    have hl := hk.of_suffix ((List.suffix_cons closing l).trans hslot''.suffix)
    rcases hslot.exists_clause hand₁ hi' with ⟨initializer, hinitializer⟩
    rcases hslot'.exists_clause hand₂ hj with ⟨condition, hcondition⟩
    rcases hslot''.exists_clause hclose hk with ⟨increment, hincrement⟩
    rcases ih (hl.of_suffix hblanks.suffix) E hE hr with ⟨q, a, n, hforms, hq⟩
    rw [← dropBlank_eq_of_blanks hblanks hforms] at hforms
    exact ⟨q, _, _, .forLoop hstart hopen hinitializer hcondition hincrement hforms, hq⟩
  | @loop i j k r start opening closing hstart hopen he hclose hblanks hn ih =>
    intro E hE hr
    have hi' := hi.of_suffix (suffix_cons_cons start opening i)
    have hj := hi'.of_suffix ((List.suffix_cons closing j).trans he.suffix)
    rcases he.exists_spells hi' with ⟨e, hspells⟩
    rcases ih (hj.of_suffix hblanks.suffix) E hE hr with ⟨q, a, n, hforms, hq⟩
    rw [← dropBlank_eq_of_blanks hblanks hforms] at hforms
    exact ⟨q, _, _, .loop hstart hopen hspells hclose hforms, hq⟩
  | print hstart he hend =>
    intro E _ hr
    rcases he.exists_spells (hi.of_suffix (List.suffix_cons _ _)) with ⟨e, hspells⟩
    exact ⟨_, _, _, .print hstart hspells hend, hr⟩
  | return_ hstart he hend =>
    intro E _ hr
    rcases he.exists_spells (hi.of_suffix (List.suffix_cons _ _)) with ⟨e, hspells⟩
    exact ⟨_, _, _, .return_ hstart hspells hend, hr⟩
  | blockStatement _ ih =>
    intro E _ hr
    rcases ih hi with ⟨a, n, hn⟩
    exact ⟨_, a, n, .blockStatement hn, hr⟩
  | expression he hend =>
    intro E _ hr
    rcases he.exists_spells hi with ⟨e, hspells⟩
    exact ⟨_, _, _, .expression hspells hend, hr⟩

end Phrase

/-! ## Programs -/

theorem FormsProgram.derives {i : List Token} {need : Nat} {ns : List Node}
    (h : FormsProgram i need ns) : DerivesProgram i :=
  ⟨dropBlank i, .dropBlank i, Sequence.derives (fun _ _ _ _ hn => hn.derives) h⟩

theorem DerivesProgram.forms {i : List Token} (h : DerivesProgram i) (hi : NumbersCarryValues i) :
    ∃ need ns, FormsProgram i need ns := by
  rcases h with ⟨j, hblanks, hderives⟩
  have hreads := hderives.reads (hi.of_suffix hblanks.suffix)
  -- Nothing else may follow a program, so it is read up to the end.
  rcases hreads .eof 0 rfl (by decide) (by decide) with ⟨need, ns, hsequence⟩
  rw [← hblanks.dropBlank_eq] at hsequence
  exact ⟨need, ns, hsequence⟩

namespace Session

/-- A parse with recovery gives a program, and where the nesting is never too deep, it reports no
error if and only if the grammar has a derivation of the input. -/
theorem parse_accepts_iff [Stack] {tokens : List Token}
    (hnumbers : NumbersCarryValues (tokens.takeWhile Cursor.isBeforeEnd))
    (hnesting : ∀ e ∈ (ofTokens tokens false).parse.2.reporter.errors.toList,
      e.category ≠ .nestingTooDeep) :
    (∃ ns, (ofTokens tokens false).parse.1 = .ok (.program 1 ns)) ∧
      ((ofTokens tokens false).parse.2.reporter.errors = #[] ↔
        DerivesProgram (tokens.takeWhile Cursor.isBeforeEnd)) := by
  constructor
  · rcases parse_forms hnumbers with ⟨ns, hresult, -⟩
    exact ⟨ns, hresult⟩
  · constructor
    · intro herrors
      rcases parse_reads hnumbers herrors with ⟨need, ns, hforms⟩
      exact hforms.derives
    · intro hderives
      rcases hderives.forms hnumbers with ⟨need, ns, hforms⟩
      rcases parse_of_formsProgram hforms with ⟨-, -, herrors⟩ | ⟨-, e, he, hdeep⟩
      · exact herrors
      · exact absurd hdeep (hnesting e he)

/-- The tokens of two conditionals on one line and an `else` on the next one: `if a if b print a`
and then `else print b`. -/
def nestedConditionals : List Token :=
  [⟨.keyword .if_, "if", 1, 1, none⟩, ⟨.ident, "a", 1, 4, none⟩, ⟨.keyword .if_, "if", 1, 6, none⟩,
    ⟨.ident, "b", 1, 9, none⟩, ⟨.keyword .print, "print", 1, 11, none⟩, ⟨.ident, "a", 1, 17, none⟩,
    ⟨.eol, "", 1, 18, none⟩, ⟨.keyword .else_, "else", 2, 1, none⟩,
    ⟨.keyword .print, "print", 2, 6, none⟩, ⟨.ident, "b", 2, 12, none⟩, ⟨.eol, "", 2, 13, none⟩]

theorem derivesExpression_var (name : String) (line column : Int) (r : List Token) :
    DerivesExpression (⟨.ident, name, line, column, none⟩ :: r) r := by
  have hname : Spells .primary false (⟨.ident, name, line, column, none⟩ :: r) r (.var line name) :=
    .name rfl
  exact (hname.loosen (by decide)).derivesExpression

/-- The grammar has a derivation of it in which the outer conditional takes the `else`. -/
theorem parse_accepts_iff_nested :
    (ofTokens nestedConditionals false).parse.2.reporter.errors = #[] := by
  refine ((parse_accepts_iff ?_ (by decide +kernel)).2).mpr ?_
  · unfold NumbersCarryValues
    decide
  · have hinner : Phrase.Derives .statement (nestedConditionals.drop 2)
        (nestedConditionals.drop 7) :=
      .conditional rfl (derivesExpression_var "b" 1 9 _) (by decide) (by decide) (.refl _)
        (.print rfl (derivesExpression_var "a" 1 17 _) (.line rfl))
    have houter : Phrase.Derives .statement nestedConditionals [] :=
      .alternative rfl (derivesExpression_var "a" 1 4 _) (by decide) (by decide) (.refl _) hinner
        (.refl _) rfl (.refl _) (.print rfl (derivesExpression_var "b" 2 12 _) (.line rfl))
    exact ⟨_, .refl _, .next (.declared houter) (.refl _) .none⟩

end Session

end ScriptCheck
