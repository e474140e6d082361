import ScriptCheck.Proofs.Statement.Locating

/-!
# A line that cannot be read

When the tokens of a line are replaced by others at which a statement fails, then everything that
stands around the line fails with the same error at the same place: what stands in front of the line
is read as before, and what stands behind it is never looked at. The blocks around the line are left
open, and there are no others (`FormsAround.breaks`).

`Breaks` says what is asked of the other tokens. Besides failing, they must not be taken for
something that ends what stands in front of the line or goes on with it.
-/

namespace ScriptCheck

open ScriptCheck.Rule

/-! ## Rules that fail with an error -/

/-- The outcome is the error `e` in front of `z`, with that many blocks left open, unless the
nesting is too deep. -/
def Outcome.FailsWith {α : Type} (o : Outcome α) (e : SyntaxError) (unclosed : Nat)
    (z : List Token) : Prop :=
  o.TooDeep ∨ ∃ d, o = .failed { cause := .invalid e, unclosed := unclosed } d ∧ d.ahead = z

/-- What comes to a place fails as it does from there. -/
theorem Outcome.Comes.failsWith {α : Type} {o : Outcome α} {fits : Prop} {p : Cursor → Prop}
    {next : Cursor → Outcome α} {e : SyntaxError} {k : Nat} {z : List Token}
    (h : o.Comes fits p next) (hnext : ∀ d, p d → (next d).FailsWith e k z) :
    o.FailsWith e k z := by
  rcases h with ⟨-, d, hp, rfl⟩ | ⟨-, hdeep⟩
  · exact hnext d hp
  · exact Or.inl hdeep

namespace Rule

variable {α β : Type} {e : SyntaxError} {k : Nat} {z : List Token} {c : Cursor}

theorem FailsWith.bind {r : Rule α} (h : (r.run c).FailsWith e k z) (next : α → Rule β) :
    ((r >>= next).run c).FailsWith e k z := by
  rw [run_bind]
  rcases h with ⟨failure, d, hrun, hcause⟩ | ⟨d, hrun, hd⟩
  · rw [hrun]
    exact Or.inl ⟨failure, d, rfl, hcause⟩
  · rw [hrun]
    exact Or.inr ⟨d, rfl, hd⟩

theorem expect_failsWith {kind : Kind} {message : String} {t : Token} {r : List Token}
    {next : Token → Rule α} (hc : c.ahead = t :: r) (hkind : t.kind = kind)
    (hnext : ∀ d, d.ahead = r → ((next t).run d).FailsWith e k z) :
    ((expect kind message >>= next).run c).FailsWith e k z := by
  rw [run_bind_of_done (run_expect hc hkind message)]
  exact hnext _ (Cursor.ahead_advance hc)

theorem skipNewlines_failsWith {next : Unit → Rule α}
    (hnext : ∀ d, d.ahead = dropBlank c.ahead → ((next ()).run d).FailsWith e k z) :
    ((Grammar.skipNewlines >>= next).run c).FailsWith e k z := by
  rcases Grammar.run_skipNewlines_bind next c with ⟨d, hrun, hd⟩
  rw [hrun]
  exact hnext d hd

theorem deeper_failsWith {way : Nesting} {budget : Nat}
    {inner : (rest : Nat) → rest < budget → Rule α}
    (h : ∀ hrest, ((inner (budget - way.weight) hrest).run c).FailsWith e k z) :
    ((deeper way budget inner).run c).FailsWith e k z := by
  rw [deeper]
  split
  · exact h _
  · exact Or.inl ⟨_, c, rfl, rfl⟩

/-- A failure inside a block leaves it open. -/
theorem insideBlock_failsWith {r : Rule α} (h : (r.run c).FailsWith e k z) :
    ((insideBlock r).run c).FailsWith e (k + 1) z := by
  simp only [insideBlock]
  rcases h with ⟨failure, d, hrun, hcause⟩ | ⟨d, hrun, hd⟩
  · rw [hrun]
    exact Or.inl ⟨_, d, rfl, hcause⟩
  · rw [hrun]
    exact Or.inr ⟨d, rfl, hd⟩

theorem untilNextFrom_failsWith {stop : Kind → Bool} {item : Rule α} (hne : c.ahead ≠ [])
    (hstop : stop (nextKind c.ahead) = false) (h : (item.run c).FailsWith e k z) (read : Array α) :
    (untilNextFrom stop item read c).FailsWith e k z := by
  rcases h with ⟨failure, d, hrun, hcause⟩ | ⟨d, hrun, hd⟩
  · rw [untilNextFrom_failed hne hstop hrun]
    exact Or.inl ⟨failure, d, rfl, hcause⟩
  · rw [untilNextFrom_failed hne hstop hrun]
    exact Or.inr ⟨d, rfl, hd⟩

end Rule

/-! ## Other tokens in the place of a line -/

variable [Stack]

/-- Whether the tokens of `q`, in the place of a line at `p`, break what stands around it: a
statement fails there with the error `e` in front of `z`, and `q` may stand where `p` does. -/
structure Breaks (p q : List Token) (e : SyntaxError) (z : List Token) : Prop where
  replaces : Replaces p q
  start_ne_do : nextKind p ≠ .keyword .do_
  ne_fn : nextKind q ≠ .keyword .fn
  ne_end : nextKind q ≠ .keyword .end_
  ne_nil : q ≠ []
  fails : ∀ budget ≤ Nesting.limit, ∀ c : Cursor, c.ahead = q →
    ((Grammar.statement false budget).run c).FailsWith e 0 z

/-- Whether what is formed from `i` is broken when the line at `p` is: the tokens in front of the
line stay, and with those of `q` behind them the rule of the level fails as a statement does at
`q`. -/
def BreaksAround (p q : List Token) (e : SyntaxError) (z : List Token) (L : Level)
    (i : List Token) (blocks : Nat) : Prop :=
  ∃ u, i = u ++ p ∧ (StartsLine u → ∀ budget ≤ Nesting.limit, ∀ c : Cursor, c.ahead = u ++ q →
    ((Grammar.ofLevel L budget).run c).FailsWith e blocks z)

namespace Breaks

variable {p q z u : List Token} {e : SyntaxError} {k : Kind}

omit [Stack] in
theorem nextKind_ne (hp : nextKind (u ++ p) ≠ k) (hq : nextKind q ≠ k) :
    nextKind (u ++ q) ≠ k := by
  cases u with
  | nil => exact hq
  | cons t u => exact hp

/-- What starts with a `do` does so in front of the line. -/
theorem nextKind_do (h : Breaks p q e z) (hdo : nextKind (u ++ p) = .keyword .do_) :
    nextKind (u ++ q) = .keyword .do_ := by
  cases u with
  | nil => exact absurd hdo h.start_ne_do
  | cons t u => exact hdo

/-- What stands behind ends of line does so with the other tokens as well. -/
theorem behind_blank (h : Breaks p q e z) {L : Level} {j : List Token} {blocks : Nat}
    (hj : BreaksAround p q e z L (dropBlank j) blocks) :
    ∃ es w, j = es ++ (w ++ p) ∧ dropBlank j = w ++ p ∧ dropBlank (es ++ (w ++ q)) = w ++ q ∧
      (StartsLine w → ∀ budget ≤ Nesting.limit, ∀ c : Cursor, c.ahead = w ++ q →
        ((Grammar.ofLevel L budget).run c).FailsWith e blocks z) := by
  rcases hj with ⟨w, hw, hfails⟩
  rcases exists_blank_append j with ⟨es, hes, hblank⟩
  have hne : nextKind (w ++ p) ≠ .eol := by
    rw [← hw]
    exact nextKind_dropBlank_ne j
  refine ⟨es, w, ?_, hw, (h.replaces.append w).dropBlank_append hne hblank, hfails⟩
  rw [← hw]
  exact hes

end Breaks

namespace Grammar

variable {p q z : List Token} {e : SyntaxError} {budget blocks : Nat}

/-- A body that fails makes what it is the body of fail. -/
theorem body_failsWith {w : List Token} (hle : budget ≤ Nesting.limit)
    (h : ∀ budget ≤ Nesting.limit, ∀ c : Cursor, c.ahead = w →
      ((ofLevel .statement budget).run c).FailsWith e blocks z) {c : Cursor} (hc : c.ahead = w) :
    ((deeper .body budget fun rest _ => statement false rest).run c).FailsWith e blocks z :=
  deeper_failsWith fun _ => h _ (by omega) c hc

variable (hq : Breaks p q e z)

include hq

theorem thenBranch_breaks {i j : List Token} {start : Token} {condition : Node}
    (hstart : start.kind = .keyword .if_) (he : Spells .assignment false i j condition)
    (hstop : Tier.assignment.extendedBy false (nextKind j) = false)
    (ih : BreaksAround p q e z .statement (dropBlank j) blocks) :
    BreaksAround p q e z .statement (start :: i) blocks := by
  rcases he.detach with ⟨v, rfl, hv⟩
  rcases hq.behind_blank ih with ⟨es, w, rfl, -, hblank, hbody⟩
  refine ⟨start :: (v ++ (es ++ w)), by simp, fun hline budget hle c hc => ?_⟩
  simp only [List.cons_append, List.append_assoc] at hc
  -- Something stands between the condition and the line, so the condition ends where it did.
  have hbetween : es ++ w ≠ [] := by
    intro hnil
    rw [hnil, List.append_nil] at hline
    exact he.not_startsLine (hline.of_suffix (List.suffix_cons _ _))
  have hnext : nextKind (es ++ (w ++ q)) = nextKind (es ++ (w ++ p)) := by
    rw [← List.append_assoc, ← List.append_assoc, nextKind_append hbetween,
      nextKind_append hbetween]
  have hw : StartsLine w := hline.of_suffix ⟨start :: (v ++ es), by simp⟩
  change ((statement false budget).run c).FailsWith _ _ _
  rw [statement, run_peek_bind, Cursor.peek_of_ahead hc, hstart]
  dsimp only
  rw [ifStatement, run_advance_bind hc]
  have hcondition := expression_comes budget (hv (es ++ (w ++ q))) (by rwa [hnext])
    (Cursor.ahead_advance hc)
  refine (Comes.bind hcondition _).failsWith fun d hd => skipNewlines_failsWith fun d₁ hd₁ => ?_
  rw [hd, hblank] at hd₁
  exact FailsWith.bind (body_failsWith hle (hbody hw) hd₁) _

theorem elseBranch_breaks {i j k l : List Token} {a : Nat} {start other : Token}
    {condition n : Node} (hstart : start.kind = .keyword .if_)
    (he : Spells .assignment false i j condition)
    (hstop : Tier.assignment.extendedBy false (nextKind j) = false)
    (hn : Forms .statement (dropBlank j) k a n) (hk : dropBlank k = other :: l)
    (hother : other.kind = .keyword .else_)
    (ih : BreaksAround p q e z .statement (dropBlank l) blocks) :
    BreaksAround p q e z .statement (start :: i) blocks := by
  rcases he.detach with ⟨v, rfl, hv⟩
  rcases Detaches.behind_blank hn.detach with ⟨u, rfl, hu, hthen⟩
  rcases hq.behind_blank ih with ⟨es, w, rfl, -, hblank, hbody⟩
  rcases exists_blank_append k with ⟨fs, hfs, hfsblank⟩
  rw [hk] at hfs
  refine ⟨start :: (v ++ (u ++ (fs ++ other :: (es ++ w)))), by simp [hfs],
    fun hline budget hle c hc => ?_⟩
  simp only [List.cons_append, List.append_assoc] at hc
  have hw : StartsLine w :=
    hline.of_suffix ⟨start :: (v ++ (u ++ (fs ++ other :: es))), by simp⟩
  -- The `else` stays where it is, so the first branch ends in front of the same tokens.
  have hsame : Replaces (other :: (es ++ (w ++ p))) (other :: (es ++ (w ++ q))) :=
    .of_nextKind_eq rfl
  have hbehind : Replaces k (fs ++ other :: (es ++ (w ++ q))) := by
    rw [hfs]
    exact hsame.append fs
  have hend : dropBlank (fs ++ other :: (es ++ (w ++ q))) = other :: (es ++ (w ++ q)) :=
    hsame.dropBlank_append (by simp [hother]) hfsblank
  change ((statement false budget).run c).FailsWith _ _ _
  rw [statement, run_peek_bind, Cursor.peek_of_ahead hc, hstart]
  dsimp only
  rw [ifStatement, run_advance_bind hc]
  have hcondition := expression_comes budget (hv (u ++ (fs ++ other :: (es ++ (w ++ q)))))
    (by rwa [nextKind_append hu] at hstop ⊢) (Cursor.ahead_advance hc)
  refine (Comes.bind hcondition _).failsWith fun d hd => skipNewlines_failsWith fun d₁ hd₁ => ?_
  rw [hd] at hd₁
  refine (Comes.bind (body_comes (hthen _ hbehind).readAs hd₁) _).failsWith fun d₂ hd₂ => ?_
  refine skipNewlines_failsWith fun d₃ hd₃ => ?_
  rw [hd₂, hend] at hd₃
  rw [run_bind_of_done (run_accept_of_true hd₃ (by simp [hother]))]
  refine skipNewlines_failsWith fun d₄ hd₄ => ?_
  rw [Cursor.ahead_advance hd₃, hblank] at hd₄
  exact FailsWith.bind (body_failsWith hle (hbody hw) hd₄) _

theorem loopBody_breaks {i j : List Token} {start opening closing : Token} {condition : Node}
    (hstart : start.kind = .keyword .while_) (hopen : opening.kind = .operator .lparen)
    (he : Spells .assignment false i (closing :: j) condition)
    (hclose : closing.kind = .operator .rparen)
    (ih : BreaksAround p q e z .statement (dropBlank j) blocks) :
    BreaksAround p q e z .statement (start :: opening :: i) blocks := by
  rcases he.detach with ⟨v, rfl, hv⟩
  rcases hq.behind_blank ih with ⟨es, w, rfl, -, hblank, hbody⟩
  refine ⟨start :: opening :: (v ++ closing :: (es ++ w)), by simp,
    fun hline budget hle c hc => ?_⟩
  simp only [List.cons_append, List.append_assoc] at hc
  have hw : StartsLine w := hline.of_suffix ⟨start :: opening :: (v ++ closing :: es), by simp⟩
  change ((statement false budget).run c).FailsWith _ _ _
  rw [statement, run_peek_bind, Cursor.peek_of_ahead hc, hstart]
  dsimp only
  rw [whileStatement, run_advance_bind hc]
  refine expect_failsWith (Cursor.ahead_advance hc) hopen fun d hd => ?_
  have hcondition := expression_comes budget (hv (closing :: (es ++ (w ++ q))))
    (by rw [nextKind_cons, hclose]; rfl) hd
  refine (Comes.bind hcondition _).failsWith fun d₁ hd₁ => ?_
  refine expect_failsWith hd₁ hclose fun d₂ hd₂ => skipNewlines_failsWith fun d₃ hd₃ => ?_
  rw [hd₂, hblank] at hd₃
  exact FailsWith.bind (body_failsWith hle (hbody hw) hd₃) _

theorem forBody_breaks {i j k l : List Token} {start opening and₁ and₂ closing : Token}
    {initializer condition increment : Option Node} (hstart : start.kind = .keyword .for_)
    (hopen : opening.kind = .operator .lparen)
    (hinitializer : Clause (.keyword .and_) i (and₁ :: j) initializer)
    (hcondition : Clause (.keyword .and_) j (and₂ :: k) condition)
    (hincrement : Clause (.operator .rparen) k (closing :: l) increment)
    (ih : BreaksAround p q e z .statement (dropBlank l) blocks) :
    BreaksAround p q e z .statement (start :: opening :: i) blocks := by
  have hand₁ : and₁.kind = .keyword .and_ := hinitializer.nextKind_eq
  have hand₂ : and₂.kind = .keyword .and_ := hcondition.nextKind_eq
  have hclose : closing.kind = .operator .rparen := hincrement.nextKind_eq
  rcases hinitializer.detach with ⟨v₁, rfl, hv₁⟩
  rcases hcondition.detach with ⟨v₂, rfl, hv₂⟩
  rcases hincrement.detach with ⟨v₃, rfl, hv₃⟩
  rcases hq.behind_blank ih with ⟨es, w, rfl, -, hblank, hbody⟩
  refine ⟨start :: opening :: (v₁ ++ and₁ :: (v₂ ++ and₂ :: (v₃ ++ closing :: (es ++ w)))),
    by simp, fun hline budget hle c hc => ?_⟩
  simp only [List.cons_append, List.append_assoc] at hc
  have hw : StartsLine w := hline.of_suffix
    ⟨start :: opening :: (v₁ ++ and₁ :: (v₂ ++ and₂ :: (v₃ ++ closing :: es))), by simp⟩
  change ((statement false budget).run c).FailsWith _ _ _
  rw [statement, run_peek_bind, Cursor.peek_of_ahead hc, hstart]
  dsimp only
  rw [forStatement, run_advance_bind hc]
  refine expect_failsWith (Cursor.ahead_advance hc) hopen fun d hd => ?_
  -- The three clauses stand in front of the same tokens as before.
  have hfirst := clause_comes budget (by decide) (by decide) (hv₁ _) initializerOf
    (show forInitializer true budget = _ from rfl) hd
  refine (Comes.bind hfirst _).failsWith fun d₁ hd₁ => expect_failsWith hd₁ hand₁ fun d₂ hd₂ => ?_
  have hsecond := clause_comes budget (by decide) (by decide) (hv₂ _) (fun e => e)
    (bind_return _) hd₂
  refine (Comes.bind hsecond _).failsWith fun d₃ hd₃ => expect_failsWith hd₃ hand₂ fun d₄ hd₄ => ?_
  have hthird := clause_comes budget (by decide) (by decide) (hv₃ _) (fun e => e)
    (bind_return _) hd₄
  refine (Comes.bind hthird _).failsWith fun d₅ hd₅ => expect_failsWith hd₅ hclose fun d₆ hd₆ => ?_
  refine skipNewlines_failsWith fun d₇ hd₇ => ?_
  rw [hd₆, hblank] at hd₇
  exact FailsWith.bind (body_failsWith hle (hbody hw) hd₇) _

theorem blockStatement_breaks {i : List Token} (hdo : nextKind i = .keyword .do_)
    (ih : BreaksAround p q e z .block i blocks) : BreaksAround p q e z .statement i blocks := by
  rcases ih with ⟨u, rfl, hblock⟩
  refine ⟨u, rfl, fun hline budget hle c hc => ?_⟩
  change ((statement false budget).run c).FailsWith _ _ _
  rw [statement, run_peek_bind, Cursor.kind_peek, hc, hq.nextKind_do hdo]
  exact hblock hline budget hle c hc

/-- The declarations in front of the broken one are read, and the block fails with it. -/
theorem block_breaks {i j : List Token} {a : Nat} {opening : Token} {before : List Node}
    (hopen : opening.kind = .keyword .do_)
    (hbefore : Sequence (Forms .declaration) (nextKind j) (Nesting.weight .block) (dropBlank i) j a
      before)
    (hend : nextKind j ≠ .keyword .end_)
    (ih : BreaksAround p q e z .declaration j blocks) :
    BreaksAround p q e z .block (opening :: i) (blocks + 1) := by
  rcases ih with ⟨w, rfl, hbroken⟩
  rcases hbefore.detach (nextKind (w ++ q)) with ⟨u, hu, hread⟩
  rcases exists_blank_append i with ⟨es, hes, hblank⟩
  have hne : nextKind (u ++ (w ++ p)) ≠ .eol := by
    rw [← hu]
    exact nextKind_dropBlank_ne i
  rw [hu] at hes
  refine ⟨opening :: (es ++ (u ++ w)), by simp [hes], fun hline budget hle c hc => ?_⟩
  simp only [List.cons_append, List.append_assoc] at hc
  have hw : StartsLine w := hline.of_suffix ⟨opening :: (es ++ u), by simp⟩
  have hbehind : Replaces (w ++ p) (w ++ q) := hq.replaces.append w
  have hitems := hread (w ++ q) _ _ _ hbehind (.done rfl)
  change ((block false budget).run c).FailsWith _ _ _
  rw [block_eq]
  refine expect_failsWith hc hopen fun d hd => ?_
  refine insideBlock_failsWith (skipNewlines_failsWith fun d₁ hd₁ => FailsWith.bind ?_ _)
  rw [hd, (hbehind.append u).dropBlank_append hne hblank] at hd₁
  have hgo := blockItems_go budget (hitems.mono fun _ _ _ _ hn => ⟨hn, hn.readAs⟩) #[] d₁ hd₁
  -- The declarations in front are read, and then the broken one is up.
  refine hgo.failsWith fun d₂ hd₂ => untilNextFrom_failsWith ?_ ?_ ?_ _
  · -- The block does not end there: neither the line nor what replaces it starts with an `end`.
    rw [hd₂]
    simp [hq.ne_nil]
  · have hstop := Breaks.nextKind_ne hend hq.ne_end
    simpa [hd₂] using hstop
  · have hitem : ((deeper .block budget fun rest _ => declaration false rest).run d₂).FailsWith e
        blocks z :=
      deeper_failsWith fun _ => hbroken hw _ (by omega) d₂ hd₂
    exact FailsWith.bind hitem _

theorem functionBody_breaks {i j : List Token} {start name opening closing : Token}
    {params : List String} (hstart : start.kind = .keyword .fn) (hname : name.kind = .ident)
    (hopen : opening.kind = .operator .lparen) (hparams : Parameters i (closing :: j) params)
    (hdo : nextKind (dropBlank j) = .keyword .do_)
    (ih : BreaksAround p q e z .block (dropBlank j) blocks) :
    BreaksAround p q e z .declaration (start :: name :: opening :: i) blocks := by
  have hclose : closing.kind = .operator .rparen := hparams.nextKind_eq
  rcases hparams.detach with ⟨v, rfl, hv⟩
  rcases hq.behind_blank ih with ⟨es, w, rfl, hj, hblank, hbody⟩
  rw [hj] at hdo
  refine ⟨start :: name :: opening :: (v ++ closing :: (es ++ w)), by simp,
    fun hline budget hle c hc => ?_⟩
  simp only [List.cons_append, List.append_assoc] at hc
  have hw : StartsLine w :=
    hline.of_suffix ⟨start :: name :: opening :: (v ++ closing :: es), by simp⟩
  change ((declaration false budget).run c).FailsWith _ _ _
  rw [declaration, run_peek_bind, Cursor.peek_of_ahead hc, if_pos hstart]
  rw [functionDeclaration, run_advance_bind hc]
  refine expect_failsWith (Cursor.ahead_advance hc) hname fun d hd => ?_
  refine expect_failsWith hd hopen fun d₁ hd₁ => ?_
  refine (Comes.bind (parameters_comes (hv _) hd₁) _).failsWith fun d₂ hd₂ => ?_
  refine expect_failsWith hd₂ hclose fun d₃ hd₃ => skipNewlines_failsWith fun d₄ hd₄ => ?_
  rw [hd₃, hblank] at hd₄
  rw [run_peek_bind, Cursor.kind_peek, hd₄, if_pos (hq.nextKind_do hdo)]
  exact FailsWith.bind (hbody hw budget hle d₄ hd₄) _

theorem declared_breaks {i : List Token} (hfn : nextKind i ≠ .keyword .fn)
    (ih : BreaksAround p q e z .statement i blocks) :
    BreaksAround p q e z .declaration i blocks := by
  rcases ih with ⟨u, rfl, hstatement⟩
  refine ⟨u, rfl, fun hline budget hle c hc => ?_⟩
  -- With the other tokens, too, it is not a function that is declared.
  have hne : nextKind (u ++ q) ≠ .keyword .fn := Breaks.nextKind_ne hfn hq.ne_fn
  change ((declaration false budget).run c).FailsWith _ _ _
  rw [declaration, run_peek_bind, Cursor.kind_peek, hc, if_neg hne]
  exact hstatement hline budget hle c hc

end Grammar

open ScriptCheck.Grammar

/-- Where a line is broken, everything around it fails with the same error, and leaves the blocks
open that the line stands in. -/
theorem FormsAround.breaks {p y q z : List Token} {e : SyntaxError} (hq : Breaks p q e z)
    {L : Level} {i r : List Token} {a blocks : Nat} {n : Node} {left : List Node}
    (h : FormsAround p y L i r a n blocks left) : BreaksAround p q e z L i blocks := by
  induction h with
  | line _ => exact ⟨[], rfl, fun _ => hq.fails⟩
  | thenBranch hstart he hstop _ _ ih => exact thenBranch_breaks hq hstart he hstop ih
  | elseBranch hstart he hstop hn hk hother _ ih =>
    exact elseBranch_breaks hq hstart he hstop hn hk hother ih
  | loopBody hstart hopen he hclose _ ih => exact loopBody_breaks hq hstart hopen he hclose ih
  | forBody hstart hopen hinitializer hcondition hincrement _ ih =>
    exact forBody_breaks hq hstart hopen hinitializer hcondition hincrement ih
  | blockStatement hbody ih => exact blockStatement_breaks hq hbody.forms.block_start ih
  | block hopen hbefore hbody _ ih =>
    exact block_breaks hq hopen hbefore (hbody.forms.nextKind_ne (by decide)) ih
  | functionBody hstart hname hopen hparams hbody ih =>
    exact functionBody_breaks hq hstart hname hopen hparams hbody.forms.block_start ih
  | declared hbody ih => exact declared_breaks hq hbody.forms.statement_start ih

end ScriptCheck
