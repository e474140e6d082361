import ScriptCheck.Proofs.Statement.Around
import ScriptCheck.Proofs.Statement.Reading

/-!
# Where lines start

Wherever a line starts in what the tokens form, and the tokens from there on form a simple statement
with an end of line behind it, that statement is one of those that are formed: there is something
around it, as `FormsAround` says. The only exception is a place in the first branch of a conditional
that has a second one (`Forms.locates`). So `FormsAround` leaves no other line out.

A line may start behind an end of line or a `do`. Neither is in an expression, in the clauses of a
`for` or in a list of parameters, so a line does not start in the midst of them.
-/

namespace ScriptCheck

/-- Whether a line may start behind the tokens of `u`: they are none, or the last of them is an end
of line or opens a block. -/
def StartsLine (u : List Token) : Prop :=
  ∀ t, u.getLast? = some t → t.kind = .eol ∨ t.kind = .keyword .do_

theorem StartsLine.of_suffix {u w : List Token} (h : StartsLine u) (hw : w <:+ u) :
    StartsLine w := by
  rcases hw with ⟨v, rfl⟩
  intro t ht
  exact h t (by rw [List.getLast?_append, ht, Option.some_or])

/-- A token behind which no line starts. -/
def Token.StaysInLine (t : Token) : Prop :=
  t.kind ≠ .eol ∧ t.kind ≠ .keyword .do_

theorem Token.StaysInLine.of_kind {t : Token} {k : Kind} (ht : t.kind = k)
    (hk : k ≠ .eol ∧ k ≠ .keyword .do_) : t.StaysInLine := by
  rwa [Token.StaysInLine, ht]

theorem Token.StaysInLine.of_isInExpression {t : Token} (h : t.kind.isInExpression = true) :
    t.StaysInLine := by
  constructor <;> intro hkind <;> rw [hkind] at h <;> exact absurd h (by decide)

/-- No line starts behind tokens of which the last does not allow it. -/
theorem StartsLine.eq_nil {u : List Token} (h : StartsLine u) (hu : ∀ t ∈ u, t.StaysInLine) :
    u = [] := by
  cases hlast : u.getLast? with
  | none => exact List.getLast?_eq_none_iff.mp hlast
  | some t =>
    have hstays := hu t (List.mem_of_getLast? hlast)
    rcases h t hlast with heol | hdo
    · exact absurd heol hstays.1
    · exact absurd hdo hstays.2

/-- No line starts right behind an expression. -/
theorem Spells.not_startsLine {T : Tier} {s : Bool} {v r : List Token} {e : Node}
    (h : Spells T s (v ++ r) r e) : ¬ StartsLine v := by
  rcases h.inExpression with ⟨w, hw, hne, hall⟩
  obtain rfl := List.append_cancel_right hw
  intro hline
  exact hne (hline.eq_nil fun t ht => .of_isInExpression (hall t ht))

/-! ## Places where a line starts -/

/-- Whether `p` is a place in `i` where a line may start. -/
def LineAt (p i : List Token) : Prop :=
  ∃ u, i = u ++ p ∧ StartsLine u

/-- The same, but not in front of all tokens of `i`. -/
def LineBehind (p i : List Token) : Prop :=
  ∃ u, i = u ++ p ∧ u ≠ [] ∧ StartsLine u

section

variable {p i j : List Token} {t : Token}

namespace LineAt

theorem suffix (h : LineAt p i) : p <:+ i := by
  rcases h with ⟨u, rfl, -⟩
  exact List.suffix_append u p

theorem eq_or_behind (h : LineAt p i) : p = i ∨ LineBehind p i := by
  rcases h with ⟨u, rfl, hline⟩
  by_cases hu : u = []
  · subst hu
    exact Or.inl rfl
  · exact Or.inr ⟨u, rfl, hu, hline⟩

/-- A place is one of those from any other in front of it. -/
theorem of_suffix (h : LineAt p i) (hj : j <:+ i) (hle : p.length ≤ j.length) : LineAt p j := by
  rcases List.suffix_of_suffix_length_le h.suffix hj hle with ⟨w, rfl⟩
  rcases h with ⟨u, rfl, hline⟩
  rcases hj with ⟨x, hx⟩
  rw [← List.append_assoc] at hx
  obtain rfl := List.append_cancel_right hx
  exact ⟨w, rfl, hline.of_suffix (List.suffix_append x w)⟩

/-- Ends of line in front of the place may be passed. -/
theorem behind_blank (h : LineAt p i) (hp : nextKind p ≠ .eol) : LineAt p (dropBlank i) := by
  refine h.of_suffix (dropBlank_suffix i) ?_
  rcases h with ⟨u, rfl, -⟩
  by_cases hu : dropBlank u = []
  · have hsame : dropBlank (u ++ p) = p := by
      rw [dropBlank_append, hu, List.nil_append, dropBlank_of_nextKind_ne hp]
    exact Nat.le_of_eq (congrArg List.length hsame.symm)
  · rw [dropBlank_append_of_ne hu]
    simp

end LineAt

namespace LineBehind

theorem lineAt (h : LineBehind p i) : LineAt p i := by
  rcases h with ⟨u, hu, -, hline⟩
  exact ⟨u, hu, hline⟩

/-- Behind the first token, the place is still one where a line may start. -/
theorem tail (h : LineBehind p (t :: i)) : LineAt p i := by
  rcases h with ⟨u, hu, hne, hline⟩
  rcases List.exists_cons_of_ne_nil hne with ⟨x, v, rfl⟩
  rw [List.cons_append] at hu
  exact ⟨v, (List.cons.inj hu).2, hline.of_suffix (List.suffix_cons x v)⟩

/-- No line starts in the midst of tokens that do not allow it, nor right behind them. -/
theorem through (h : LineBehind p i) (hspan : Spans Token.StaysInLine i j) : LineBehind p j := by
  rcases h with ⟨u, rfl, hne, hline⟩
  rcases hspan with ⟨w, hw, -, hall⟩
  rcases List.append_eq_append_iff.mp hw with ⟨x, rfl, -⟩ | ⟨x, rfl, rfl⟩
  · exact absurd (hline.eq_nil fun t ht => hall t (List.mem_append_left x ht)) hne
  · refine ⟨x, rfl, ?_, hline.of_suffix (List.suffix_append w x)⟩
    rintro rfl
    rw [List.append_nil] at hline hne
    exact hne (hline.eq_nil hall)

theorem behind_expression (h : LineBehind p i)
    (hspan : Spans (·.kind.isInExpression = true) i j) : LineBehind p j :=
  h.through (hspan.mono fun _ ht => .of_isInExpression ht)

theorem behind_token {k : Kind} (h : LineBehind p (t :: i)) (ht : t.kind = k)
    (hk : k ≠ .eol ∧ k ≠ .keyword .do_) : LineBehind p i :=
  h.through (.one (.of_kind ht hk) i)

end LineBehind

end

/-! ## Lines in what is formed -/

/-- The kinds of token that a simple statement starts with. -/
def Kind.startsSimple (k : Kind) : Bool :=
  k == .keyword .print || k == .keyword .return_ || k.startsPrimary || k.isUnary

namespace FormsLine

variable {p y i : List Token} {b : Nat} {m : Node} {k : Kind}

theorem start (h : FormsLine p y b m) : (nextKind p).startsSimple = true := by
  cases h with
  | print hstart _ _ => simp [hstart, Kind.startsSimple]
  | return_ hstart _ _ => simp [hstart, Kind.startsSimple]
  | expression he _ =>
    rcases he.start with hprimary | ⟨-, hunary⟩
    · simp [Kind.startsSimple, hprimary]
    · simp [Kind.startsSimple, hunary]

theorem nextKind_ne (h : FormsLine p y b m) (hk : k.startsSimple = false) : nextKind p ≠ k := by
  intro hkind
  have hstart := h.start
  rw [hkind, hk] at hstart
  exact absurd hstart (by decide)

/-- A line that does not start at the first token starts behind it. -/
theorem lineBehind (h : FormsLine p y b m) {t : Token} (hat : LineAt p (t :: i)) (ht : t.kind = k)
    (hk : k.startsSimple = false) : LineBehind p (t :: i) := by
  rcases hat.eq_or_behind with rfl | hbehind
  · exact absurd ht (h.nextKind_ne hk)
  · exact hbehind

theorem lineAt_dropBlank (h : FormsLine p y b m) (hat : LineAt p i) : LineAt p (dropBlank i) :=
  hat.behind_blank (h.nextKind_ne (by decide))

end FormsLine

/-- Whether `p` is a place in the first branch of a conditional in `i` that has a second one. -/
inductive InFirstBranch (p i : List Token) : Prop where
  | mk {j k l : List Token} {a : Nat} {start : Token} {e n : Node} :
      start :: j <:+ i → start.kind = .keyword .if_ → Spells .assignment false j k e →
      Tier.assignment.extendedBy false (nextKind k) = false →
      Forms .statement (dropBlank k) l a n → nextKind (dropBlank l) = .keyword .else_ →
      p <:+ dropBlank k → l.length < p.length → InFirstBranch p i

theorem InFirstBranch.of_suffix {p i j : List Token} (h : InFirstBranch p j) (hj : j <:+ i) :
    InFirstBranch p i := by
  cases h with
  | mk hstart hif he hstop hn helse hp hlt =>
    exact .mk (hstart.trans hj) hif he hstop hn helse hp hlt

/-! ## What stands around them -/

/-- Whether a line at `p` that starts in front of `r` has what is formed around it, or else is in
the first branch of a conditional. -/
def Locates (p y : List Token) (L : Level) (i r : List Token) (a : Nat) (n : Node) : Prop :=
  LineAt p i → r.length < p.length →
    (∃ blocks left, FormsAround p y L i r a n blocks left) ∨ InFirstBranch p i

section

variable {p y : List Token} {b : Nat} {m : Node} (hp : FormsLine p y b m)

include hp

/-- A statement that takes no line but its own has that line at its start. -/
theorem FormsLine.locates_simple {i r : List Token} {a : Nat} {n : Node}
    (heof : ∀ t ∈ p, t.kind ≠ .eof) (h : Forms .statement i r a n)
    (hend : LineBehind p i → LineAt p r) : Locates p y .statement i r a n := by
  intro hat hlt
  rcases hat.eq_or_behind with rfl | hbehind
  · -- Both are formed of the same tokens.
    rcases h.unique heof hp.forms with ⟨rfl, rfl, rfl⟩
    exact Or.inl ⟨0, [], .line hp⟩
  · exact absurd (hend hbehind).suffix.length_le (Nat.not_le.mpr hlt)

theorem FormsLine.locates_thenBranch {i j k : List Token} {a : Nat} {start : Token} {e n : Node}
    (hstart : start.kind = .keyword .if_) (he : Spells .assignment false i j e)
    (hstop : Tier.assignment.extendedBy false (nextKind j) = false)
    (hn : Forms .statement (dropBlank j) k a n) (hno : nextKind (dropBlank k) ≠ .keyword .else_)
    (ih : Locates p y .statement (dropBlank j) k a n) :
    Locates p y .statement (start :: i) (dropBlank k) (max e.nesting (Nesting.weight .body + a))
      (.conditional start.line e n none) := by
  intro hat hlt
  have hcondition := (hp.lineBehind hat hstart rfl).behind_token hstart (by decide)
  have hbody := hp.lineAt_dropBlank (hcondition.behind_expression he.inExpression).lineAt
  -- Behind the branch there are only ends of line, and the line starts with none.
  have hk : k.length < p.length := by
    refine Nat.lt_of_not_le fun hle => ?_
    have hbehind := hp.lineAt_dropBlank (hbody.of_suffix hn.spans.suffix hle)
    exact absurd hbehind.suffix.length_le (Nat.not_le.mpr hlt)
  rcases ih hbody hk with ⟨blocks, left, haround⟩ | hfirst
  · exact Or.inl ⟨blocks, left, .thenBranch hstart he hstop haround hno⟩
  · refine Or.inr (hfirst.of_suffix ?_)
    exact ((dropBlank_suffix j).trans he.spans.suffix).trans (List.suffix_cons start i)

theorem FormsLine.locates_elseBranch {i j k l r : List Token} {a b : Nat} {start other : Token}
    {e n m : Node} (hstart : start.kind = .keyword .if_) (he : Spells .assignment false i j e)
    (hstop : Tier.assignment.extendedBy false (nextKind j) = false)
    (hn : Forms .statement (dropBlank j) k a n) (hk : dropBlank k = other :: l)
    (hother : other.kind = .keyword .else_) (ih : Locates p y .statement (dropBlank l) r b m) :
    Locates p y .statement (start :: i) r
      (max e.nesting (max (Nesting.weight .body + a) (Nesting.weight .body + b)))
      (.conditional start.line e n (some m)) := by
  intro hat hlt
  have hcondition := (hp.lineBehind hat hstart rfl).behind_token hstart (by decide)
  have hbody := hp.lineAt_dropBlank (hcondition.behind_expression he.inExpression).lineAt
  by_cases hfirst : k.length < p.length
  · exact Or.inr (.mk (List.suffix_refl _) hstart he hstop hn (by rw [hk]; exact hother)
      hbody.suffix hfirst)
  · -- A line that is not in the first branch is behind the `else`.
    have hbehind := hp.lineAt_dropBlank
      (hbody.of_suffix hn.spans.suffix (Nat.not_lt.mp hfirst))
    rw [hk] at hbehind
    have hsecond := hp.lineAt_dropBlank (hp.lineBehind hbehind hother rfl).tail
    rcases ih hsecond hlt with ⟨blocks, left, haround⟩ | hinside
    · exact Or.inl ⟨blocks, left, .elseBranch hstart he hstop hn hk hother haround⟩
    · have hl : dropBlank l <:+ dropBlank k := by
        rw [hk]
        exact (dropBlank_suffix l).trans (List.suffix_cons other l)
      refine Or.inr (hinside.of_suffix ?_)
      exact (((hl.trans (dropBlank_suffix k)).trans hn.spans.suffix).trans
        (dropBlank_suffix j)).trans (he.spans.suffix.trans (List.suffix_cons start i))

theorem FormsLine.locates_loopBody {i j r : List Token} {a : Nat} {start opening closing : Token}
    {e n : Node} (hstart : start.kind = .keyword .while_)
    (hopen : opening.kind = .operator .lparen) (he : Spells .assignment false i (closing :: j) e)
    (hclose : closing.kind = .operator .rparen) (ih : Locates p y .statement (dropBlank j) r a n) :
    Locates p y .statement (start :: opening :: i) r (max e.nesting (Nesting.weight .body + a))
      (.loop start.line e n) := by
  intro hat hlt
  have hhead := (hp.lineBehind hat hstart rfl).behind_token hstart (by decide)
  have hcondition := hhead.behind_token hopen (by decide)
  have hbehind := (hcondition.behind_expression he.inExpression).behind_token hclose (by decide)
  rcases ih (hp.lineAt_dropBlank hbehind.lineAt) hlt with ⟨blocks, left, haround⟩ | hfirst
  · exact Or.inl ⟨blocks, left, .loopBody hstart hopen he hclose haround⟩
  · refine Or.inr (hfirst.of_suffix ?_)
    exact (((dropBlank_suffix j).trans (List.suffix_cons closing j)).trans he.spans.suffix).trans
      (suffix_cons_cons start opening i)

theorem FormsLine.locates_forBody {i j k l r : List Token} {a : Nat}
    {start opening and₁ and₂ closing : Token} {initializer condition increment : Option Node}
    {n : Node} (hstart : start.kind = .keyword .for_) (hopen : opening.kind = .operator .lparen)
    (hinitializer : Clause (.keyword .and_) i (and₁ :: j) initializer)
    (hcondition : Clause (.keyword .and_) j (and₂ :: k) condition)
    (hincrement : Clause (.operator .rparen) k (closing :: l) increment)
    (ih : Locates p y .statement (dropBlank l) r a n) :
    Locates p y .statement (start :: opening :: i) r
      (max (Node.clauseNesting initializer) (max (Node.clauseNesting condition)
        (max (Node.clauseNesting increment) (Nesting.weight .body + a))))
      (Grammar.forLoop start.line (initializer.map Grammar.initializerOf) condition increment
        n) := by
  have hclauses := ((hinitializer.inExpression rfl).trans (hcondition.inExpression rfl)).trans
    (hincrement.inExpression rfl)
  intro hat hlt
  have hhead := (hp.lineBehind hat hstart rfl).behind_token hstart (by decide)
  have hbehind := (hhead.behind_token hopen (by decide)).behind_expression hclauses
  rcases ih (hp.lineAt_dropBlank hbehind.lineAt) hlt with ⟨blocks, left, haround⟩ | hfirst
  · exact Or.inl
      ⟨blocks, left, .forBody hstart hopen hinitializer hcondition hincrement haround⟩
  · refine Or.inr (hfirst.of_suffix ?_)
    exact ((dropBlank_suffix l).trans hclauses.suffix).trans (suffix_cons_cons start opening i)

theorem FormsLine.locates_functionBody {i j r : List Token} {a : Nat}
    {start name opening closing : Token} {params : List String} {body : Node}
    (hstart : start.kind = .keyword .fn) (hname : name.kind = .ident)
    (hopen : opening.kind = .operator .lparen) (hparams : Parameters i (closing :: j) params)
    (ih : Locates p y .block (dropBlank j) r a body) :
    Locates p y .declaration (start :: name :: opening :: i) r a
      (.function start.line name.text params body) := by
  intro hat hlt
  have hhead := (hp.lineBehind hat hstart rfl).behind_token hstart (by decide)
  have hnames := (hhead.behind_token hname (by decide)).behind_token hopen (by decide)
  have hbehind := hnames.behind_expression hparams.inExpression
  rcases ih (hp.lineAt_dropBlank hbehind.lineAt) hlt with ⟨blocks, left, haround⟩ | hfirst
  · exact Or.inl ⟨blocks, left, .functionBody hstart hname hopen hparams haround⟩
  · refine Or.inr (hfirst.of_suffix ?_)
    exact ((dropBlank_suffix j).trans hparams.inExpression.suffix).trans
      ((suffix_cons_cons name opening i).trans (List.suffix_cons start _))

/-- The declarations in front of the line are passed one after another. -/
theorem FormsLine.exists_sequenceAround {stop : Kind} {weight a : Nat} {i r : List Token}
    {ns : List Node}
    (h : Sequence
      (fun i r a n => ∃ _ : Forms .declaration i r a n, Locates p y .declaration i r a n)
      stop weight i r a ns) (hat : LineAt p i) :
    (∃ before n blocks left after, ns = before ++ n :: after ∧
        SequenceAround p y stop weight i r a before n blocks left after) ∨
      InFirstBranch p i ∨ LineAt p r := by
  induction h with
  | done _ => exact Or.inr (Or.inr hat)
  | @next i j r c d n ns hn hns ih =>
    rcases hn with ⟨hforms, hlocates⟩
    -- Whether the line is in the first declaration or behind it.
    by_cases hj : j.length < p.length
    · rcases hlocates hat hj with ⟨blocks, left, haround⟩ | hfirst
      · have hwhole := SequenceAround.mk (.done rfl) haround (hns.mono fun _ _ _ _ hn => hn.1)
        rw [Nat.zero_max] at hwhole
        exact Or.inl ⟨[], n, blocks, left, ns, rfl, hwhole⟩
      · exact Or.inr (Or.inl hfirst)
    · have hrest := hp.lineAt_dropBlank (hat.of_suffix hforms.spans.suffix (Nat.not_lt.mp hj))
      rcases ih hrest with ⟨before, m, blocks, left, after, rfl, haround⟩ | hfirst | hend
      · cases haround with
        | mk hbefore haround hafter =>
          have hwhole := SequenceAround.mk (.next hforms hbefore) haround hafter
          rw [Nat.max_assoc] at hwhole
          exact Or.inl ⟨n :: before, m, blocks, left, after, rfl, hwhole⟩
      · have hsuffix := (dropBlank_suffix j).trans hforms.spans.suffix
        exact Or.inr (Or.inl (hfirst.of_suffix hsuffix))
      · exact Or.inr (Or.inr hend)

theorem FormsLine.locates_block {i r : List Token} {a : Nat} {opening closing : Token}
    {ns : List Node} (hopen : opening.kind = .keyword .do_)
    (hns : Sequence
      (fun i r a n => ∃ _ : Forms .declaration i r a n, Locates p y .declaration i r a n)
      (.keyword .end_) (Nesting.weight .block) (dropBlank i) (closing :: r) a ns) :
    Locates p y .block (opening :: i) r a (.block opening.line ns) := by
  intro hat hlt
  have hclose : closing.kind = .keyword .end_ := hns.nextKind_eq
  have hbody := hp.lineAt_dropBlank (hp.lineBehind hat hopen rfl).tail
  rcases hp.exists_sequenceAround hns hbody with ⟨_, _, _, _, _, rfl, haround⟩ | hfirst | hend
  · cases haround with
    | mk hbefore haround hafter => exact Or.inl ⟨_, _, .block hopen hbefore haround hafter⟩
  · exact Or.inr (hfirst.of_suffix ((dropBlank_suffix i).trans (List.suffix_cons opening i)))
  · -- The line does not start with the word that closes the block, and behind it the block is over.
    have hbehind := (hp.lineBehind hend hclose rfl).tail
    exact absurd hbehind.suffix.length_le (Nat.not_le.mpr hlt)

end

theorem Terminated.lineAt {p j r : List Token} (h : Terminated j r) (hp : LineBehind p j) :
    LineAt p r := by
  cases h with
  | line _ => exact hp.tail
  | closed _ => exact hp.lineAt

/-- Every line that starts in what the tokens form has something around it, unless it is in the
first branch of a conditional that has a second one. -/
theorem Forms.locates {p y : List Token} {b : Nat} {m : Node} (hp : FormsLine p y b m)
    (heof : ∀ t ∈ p, t.kind ≠ .eof) {L : Level} {i r : List Token} {a : Nat} {n : Node}
    (h : Forms L i r a n) : Locates p y L i r a n := by
  induction h using Forms.induct with
  | print hstart he hend =>
    refine hp.locates_simple heof (.print hstart he hend) fun hbehind => ?_
    have hexpression := hbehind.behind_token hstart (by decide)
    exact hend.lineAt (hexpression.behind_expression he.inExpression)
  | return_ hstart he hend =>
    refine hp.locates_simple heof (.return_ hstart he hend) fun hbehind => ?_
    have hexpression := hbehind.behind_token hstart (by decide)
    exact hend.lineAt (hexpression.behind_expression he.inExpression)
  | expression he hend =>
    refine hp.locates_simple heof (.expression he hend) fun hbehind => ?_
    exact hend.lineAt (hbehind.behind_expression he.inExpression)
  | conditional hstart he hstop hn hno ih =>
    exact hp.locates_thenBranch hstart he hstop hn hno ih
  | alternative hstart he hstop hn hk hother _ _ ih =>
    exact hp.locates_elseBranch hstart he hstop hn hk hother ih
  | loop hstart hopen he hclose _ ih => exact hp.locates_loopBody hstart hopen he hclose ih
  | forLoop hstart hopen hinitializer hcondition hincrement _ ih =>
    exact hp.locates_forBody hstart hopen hinitializer hcondition hincrement ih
  | blockStatement hblock ih =>
    intro hat hlt
    rcases ih hat hlt with ⟨blocks, left, haround⟩ | hfirst
    · exact Or.inl ⟨blocks, left, .blockStatement haround⟩
    · exact Or.inr hfirst
  | block hopen hns => exact hp.locates_block hopen hns
  | function hstart hname hopen hparams _ ih =>
    exact hp.locates_functionBody hstart hname hopen hparams ih
  | declared _ ih =>
    intro hat hlt
    rcases ih hat hlt with ⟨blocks, left, haround⟩ | hfirst
    · exact Or.inl ⟨blocks, left, .declared haround⟩
    · exact Or.inr hfirst

end ScriptCheck
