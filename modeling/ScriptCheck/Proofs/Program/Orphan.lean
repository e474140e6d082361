import ScriptCheck.Proofs.Program.Remainder
import ScriptCheck.Proofs.Statement.FirstBranch

/-!
# An `else` without its `if`

When a line of a program is broken, the parse abandons what stands around the line. The `end`s that
are still to come are owed and passed over, but nothing is remembered of an `else` that is still to
come. So the error in the line is the only one that is reported exactly when the line is not in the
first branch of a conditional that has a second one (`Session.parse_replaced_reports`). If it is,
the parse goes on up to the `else` of the innermost such conditional, finds that no declaration
starts with it, and reports it as a second error.
-/

namespace ScriptCheck

open ScriptCheck.Rule

/-! ## Tokens that start no declaration -/

/-- The outcome that no expression starts at a place. -/
def Outcome.Misses {α : Type} (o : Outcome α) (c : Cursor) : Prop :=
  o = .failed { cause := .invalid (Grammar.missingExpression c.peek) } c

theorem Outcome.Misses.bind {α β : Type} {r : Rule α} {c : Cursor} (h : (r.run c).Misses c)
    (next : α → Rule β) : ((r >>= next).run c).Misses c := by
  unfold Misses at h ⊢
  rw [run_bind, h]

namespace Grammar

variable {c : Cursor} (hc : c.peek.kind.startsDeclaration = false)

include hc

theorem primary_misses (budget : Nat) : ((primary budget).run c).Misses c := by
  have hprimary : c.peek.kind.startsPrimary = false := by
    simp only [Kind.startsDeclaration, Bool.or_eq_false_iff] at hc
    exact hc.1.2
  rw [primary, run_peek_bind]
  split
  · next hk => rw [hk] at hprimary; cases hprimary
  · next hk => rw [hk] at hprimary; cases hprimary
  · next hk => rw [hk] at hprimary; cases hprimary
  · cases hvalue : literalValue? c.peek with
    | none => rfl
    | some value =>
      rw [Spells.startsPrimary_of_literalValue? hvalue] at hprimary
      cases hprimary

theorem ofTier_misses (budget : Nat) (T : Tier) (s : Bool) :
    ((ofTier T s budget).run c).Misses c := by
  induction T using Tier.induct with
  | primary => exact primary_misses hc budget
  | call ih =>
    change ((call budget).run c).Misses c
    rw [call_eq]
    exact ih.bind _
  | unary ih =>
    have hunary : (nextKind c.ahead).isUnary = false := by
      rw [← Cursor.kind_peek]
      simp only [Kind.startsDeclaration, Bool.or_eq_false_iff] at hc
      exact hc.2
    change ((unary s budget).run c).Misses c
    rw [unary, run_bind_of_done (run_accept_of_false hunary)]
    exact ih
  | operation hT ih =>
    rw [ofTier_eq_leftFold hT]
    exact ih.bind _
  | assignment ih =>
    change ((assignment s budget).run c).Misses c
    rw [assignment]
    exact ih.bind _

/-- A token that starts no declaration is taken for a missing expression. -/
theorem declaration_misses (budget : Nat) : ((declaration false budget).run c).Misses c := by
  have hstatement : c.peek.kind.startsStatement = false := by
    simp only [Kind.startsDeclaration, Bool.or_eq_false_iff] at hc
    exact hc.1.1
  have hne : ∀ k : Kind, k.startsStatement = true → c.peek.kind ≠ k := by
    intro k hk heq
    rw [heq, hk] at hstatement
    cases hstatement
  rw [declaration, run_peek_bind, if_neg (hne _ rfl), statement, run_peek_bind]
  split
  · next hk => exact absurd hk (hne _ rfl)
  · next hk => exact absurd hk (hne _ rfl)
  · next hk => exact absurd hk (hne _ rfl)
  · next hk => exact absurd hk (hne _ rfl)
  · next hk => exact absurd hk (hne _ rfl)
  · next hk => exact absurd hk (hne _ rfl)
  · rw [expressionStatement, expression]
    exact (ofTier_misses hc budget .assignment false).bind _

end Grammar

namespace Session

/-- An `else` where a declaration is to start is reported. -/
theorem parseAfter_orphan [Stack] {s : Session} {other : Token} {l : List Token} (hs : s.Between)
    (hahead : s.cursor.ahead = other :: l) (hother : other.kind = .keyword .else_)
    (read : Array Node) :
    s.reporter.errors.toList ++ [Grammar.missingExpression other] <+:
      (s.parseAfter read).2.reporter.errors.toList := by
  have hpeek : s.cursor.peek = other := Cursor.peek_of_ahead hahead
  have hrun := Grammar.declaration_misses (c := s.cursor) (by rw [hpeek, hother]; rfl) Nesting.limit
  have hno : ¬ s.OwesNext := by
    rintro ⟨-, hend⟩
    rw [hahead, nextKind_cons, hother] at hend
    cases hend
  rw [← hpeek, ← errors_step_failed hs.andSeparates_eq hno hrun rfl]
  exact errors_step_prefix_parseAfter (by simp [hahead]) read

section

variable {tokens tokens' u v w y : List Token} {ending : Token} {e : SyntaxError}
  (htokens : tokens.takeWhile Cursor.isBeforeEnd = u ++ (v ++ ending :: y))
  (htokens' : tokens'.takeWhile Cursor.isBeforeEnd = u ++ (w ++ ending :: y))
  (hline : StartsLine u) (hending : ending.kind = .eol) (hw : StandsInLine w)

include htokens htokens' hline hending hw

/-- When a line is broken that is in the first branch of a conditional with a second one, then its
error is reported and, as the next one, the `else` of the conditional. -/
theorem parse_of_branchAround [Stack] {c l : List Token} {need a blocks : Nat} {ns left : List Node}
    (hprogram : FormsProgram (tokens.takeWhile Cursor.isBeforeEnd) need ns)
    (hneed : need ≤ Nesting.limit) (hc : c <:+ tokens.takeWhile Cursor.isBeforeEnd)
    (hbranch : BranchAround (v ++ ending :: y) y c l a blocks left)
    (hcause : ((Grammar.statement false Nesting.limit).run (.ofTokens (w ++ [ending]))).cause? =
      some (.invalid e))
    (hplace : ((Grammar.statement false Nesting.limit).run
      (.ofTokens (w ++ [ending]))).place.atEnd = false)
    (hfits : ∀ e ∈ (ofTokens tokens' false).parse.2.reporter.errors.toList,
      e.category ≠ .nestingTooDeep) :
    ∃ other ∈ y, other.kind = .keyword .else_ ∧
      [e, Grammar.missingExpression other] <+:
        (ofTokens tokens' false).parse.2.reporter.errors.toList := by
  have hif := hbranch.start_eq
  rcases hbranch.exists_line with ⟨_, _, hplain⟩
  rcases hw.breaks hending hcause hplace hplain with ⟨w', hsuffix, hbreaks⟩
  -- The declaration around the conditional breaks off, with more blocks open outside of it.
  have hlength : ([] : List Token).length < c.length :=
    List.length_pos_iff.mpr fun hnil => by simp [hnil] at hif
  rcases hprogram.exists_item_at (fun _ _ _ _ hn => hn.spans.suffix) hif
    (suffix_through_blank hif hc) hlength
    with ⟨j, k, b, d, n, before, hbefore, hforms, hat, hlt, hle⟩
  rcases hforms.breaksWith hif hat hlt with ⟨⟨_, _, _, hconditional, hwithin⟩, outer, hbroken⟩
  rcases parse_breaksOff htokens htokens' hline hending hw hsuffix hbefore (by omega) hbreaks
    (hbroken _ _ _ _ _ hbreaks (hbranch.breaks hbreaks)) hfits
    with ⟨s, hparse, hs, hahead, hpending, herrors⟩
  have hceof : ∀ t ∈ c, t.kind ≠ .eof := fun t ht => Cursor.ne_eof_of_mem_takeWhile (hc.mem ht)
  have ha := hbranch.need_le hceof hconditional
  cases hbranch with
  | mk _ _ _ haround helse =>
    -- The rest of the branch is read, and the blocks inside the conditional are settled.
    rcases parseAfter_of_around haround (by omega) before.toArray hs.andSeparates_eq hahead outer
      (by omega) with ⟨d', hrest, hd'⟩
    rcases exists_cons_of_nextKind helse (by decide) with ⟨other, l', hl, hother⟩
    have hmem : other ∈ dropBlank l := by simp [hl]
    refine ⟨other, ((dropBlank_suffix l).trans haround.suffix).mem hmem, hother, ?_⟩
    have horphan := parseAfter_orphan (s := { s with cursor := d', pendingEnds := outer })
      ⟨hs.failFast_eq, hs.andSeparates_eq, hs.openBlocks_eq⟩ (hd'.trans hl) hother
      (before.toArray ++ left.toArray)
    rw [hparse, hrest]
    simpa [herrors] using horphan

/-- An error inside a body yields one diagnostic, unless an `else` loses its `if`. In a program that
is parsed without an error, take any simple statement with an end of line behind it that starts a
line, and let its tokens be replaced by others at which a statement fails with the error `e` before
the line is over. Then this error is the only one that the parse reports exactly when the line is
not in the first branch of a conditional that has a second one. Otherwise the `else` of such a
conditional is reported next. -/
theorem parse_replaced_reports [Stack] {tree m : Node} {a : Nat}
    (hparse : (ofTokens tokens false).parse.1 = .ok tree)
    (herrors : (ofTokens tokens false).parse.2.reporter.errors = #[])
    (hstatement : FormsLine (v ++ ending :: y) y a m)
    (hcause : ((Grammar.statement false Nesting.limit).run (.ofTokens (w ++ [ending]))).cause? =
      some (.invalid e))
    (hplace : ((Grammar.statement false Nesting.limit).run
      (.ofTokens (w ++ [ending]))).place.atEnd = false)
    (hfits : ∀ e ∈ (ofTokens tokens' false).parse.2.reporter.errors.toList,
      e.category ≠ .nestingTooDeep) :
    ((ofTokens tokens' false).parse.2.reporter.errors = #[e] ↔
        ¬ InFirstBranch (v ++ ending :: y) (tokens.takeWhile Cursor.isBeforeEnd)) ∧
      (InFirstBranch (v ++ ending :: y) (tokens.takeWhile Cursor.isBeforeEnd) →
        ∃ other ∈ y, other.kind = .keyword .else_ ∧
          [e, Grammar.missingExpression other] <+:
            (ofTokens tokens' false).parse.2.reporter.errors.toList) := by
  have hi : ∀ t ∈ tokens.takeWhile Cursor.isBeforeEnd, t.kind ≠ .eof :=
    fun t ht => Cursor.ne_eof_of_mem_takeWhile ht
  have hat : LineAt (v ++ ending :: y) (tokens.takeWhile Cursor.isBeforeEnd) :=
    ⟨u, htokens, hline⟩
  rcases parse_reads_of_ok hparse herrors with ⟨need, ns, hprogram⟩
  rcases parse_of_formsProgram hprogram with ⟨hneed, -, -⟩ | ⟨-, _, hmem, -⟩
  · have horphan : InFirstBranch (v ++ ending :: y) (tokens.takeWhile Cursor.isBeforeEnd) →
        ∃ other ∈ y, other.kind = .keyword .else_ ∧
          [e, Grammar.missingExpression other] <+:
            (ofTokens tokens' false).parse.2.reporter.errors.toList := by
      intro hfirst
      rcases hfirst.exists_innermost hstatement (fun t ht => hi t (hat.suffix.mem ht)) hat
        with ⟨c, l, b, blocks, left, hc, hbranch⟩
      exact parse_of_branchAround htokens htokens' hline hending hw hprogram hneed hc hbranch hcause
        hplace hfits
    refine ⟨⟨fun hone hfirst => ?_, fun hbranch => ?_⟩, horphan⟩
    · rcases horphan hfirst with ⟨other, -, -, hmore⟩
      rw [hone] at hmore
      exact absurd hmore.length_le (by simp)
    · rcases hprogram.exists_around hi hstatement hat hbranch
        with ⟨before, n, blocks, left, after, -, haround⟩
      exact (parse_of_programAround htokens htokens' hline hending hw haround hneed hcause hplace
        hfits).2.1
  · rw [herrors] at hmem
    simp at hmem

end

/-- The tokens in front of a line in the first branch of a conditional, on the line above:
`if x`. -/
def branchStart : List Token :=
  [⟨.keyword .if_, "if", 2, 1, none⟩, ⟨.ident, "x", 2, 4, none⟩, ⟨.eol, "\n", 2, 5, none⟩]

/-- The tokens behind it: `else`, and on the next line `print z`. -/
def branchEnd : List Token :=
  [⟨.keyword .else_, "else", 4, 1, none⟩, ⟨.eol, "\n", 4, 5, none⟩,
    ⟨.keyword .print, "print", 5, 1, none⟩, ⟨.ident, "z", 5, 7, none⟩, ⟨.eol, "\n", 5, 8, none⟩]

/-- An error in a body may yield two diagnostics. In a program without errors, the line `print y` is
replaced by `print )`, at which a statement fails before the line is over. The second diagnostic is
about the `else` behind the line. -/
theorem parse_lostElse :
    (ofTokens (branchStart ++ (printName ++ lineEnd :: branchEnd)) false).parse.2.reporter.errors =
        #[] ∧
      StartsLine branchStart ∧
      FormsLine (printName ++ lineEnd :: branchEnd) branchEnd 0 (.print 3 (.var 3 "y")) ∧
      StandsInLine printNothing ∧
      ((Grammar.statement false Nesting.limit).run (.ofTokens (printNothing ++ [lineEnd]))).cause? =
        some (.invalid (Grammar.missingExpression ⟨.operator .rparen, ")", 3, 7, none⟩)) ∧
      ((Grammar.statement false Nesting.limit).run
        (.ofTokens (printNothing ++ [lineEnd]))).place.atEnd = false ∧
      (ofTokens (branchStart ++ (printNothing ++ lineEnd :: branchEnd))
        false).parse.2.reporter.errors =
        #[Grammar.missingExpression ⟨.operator .rparen, ")", 3, 7, none⟩,
          Grammar.missingExpression ⟨.keyword .else_, "else", 4, 1, none⟩] := by
  refine ⟨by decide +kernel, ?_, .print rfl (spells_name rfl) rfl, by constructor <;> decide,
    by decide +kernel, by decide +kernel, by decide +kernel⟩
  intro t ht
  obtain rfl := Option.some.inj ht
  exact Or.inl rfl

/-- The tokens in front of a line in a block that is the first branch of a conditional in a
function: `fn f() do`, and on the next line `if x do`. -/
def blockStart : List Token :=
  [⟨.keyword .fn, "fn", 1, 1, none⟩, ⟨.ident, "f", 1, 4, none⟩,
    ⟨.operator .lparen, "(", 1, 5, none⟩, ⟨.operator .rparen, ")", 1, 6, none⟩,
    ⟨.keyword .do_, "do", 1, 8, none⟩, ⟨.eol, "\n", 1, 10, none⟩,
    ⟨.keyword .if_, "if", 2, 1, none⟩, ⟨.ident, "x", 2, 4, none⟩,
    ⟨.keyword .do_, "do", 2, 6, none⟩, ⟨.eol, "\n", 2, 8, none⟩]

/-- The tokens behind it: `end`, on the next line `else return z`, and an `end`. -/
def blockEnd : List Token :=
  [⟨.keyword .end_, "end", 4, 1, none⟩, ⟨.eol, "\n", 4, 4, none⟩,
    ⟨.keyword .else_, "else", 5, 1, none⟩, ⟨.keyword .return_, "return", 5, 6, none⟩,
    ⟨.ident, "z", 5, 13, none⟩, ⟨.eol, "\n", 5, 14, none⟩, ⟨.keyword .end_, "end", 6, 1, none⟩,
    ⟨.eol, "\n", 6, 4, none⟩]

/-- The line is in the first branch, so the `else` is reported behind the error in the line. The
block inside the conditional is settled first. -/
theorem parse_replaced_reports_orphan :
    InFirstBranch (printName ++ lineEnd :: blockEnd)
        ((blockStart ++ (printName ++ lineEnd :: blockEnd)).takeWhile Cursor.isBeforeEnd) ∧
      ∃ other ∈ blockEnd, other.kind = .keyword .else_ ∧
        [Grammar.missingExpression ⟨.operator .rparen, ")", 3, 7, none⟩,
            Grammar.missingExpression other] <+:
          (ofTokens (blockStart ++ (printNothing ++ lineEnd :: blockEnd))
            false).parse.2.reporter.errors.toList := by
  have hgood : (blockStart ++ (printName ++ lineEnd :: blockEnd)).takeWhile Cursor.isBeforeEnd =
      blockStart ++ (printName ++ lineEnd :: blockEnd) := by
    decide
  have hbad : (blockStart ++ (printNothing ++ lineEnd :: blockEnd)).takeWhile Cursor.isBeforeEnd =
      blockStart ++ (printNothing ++ lineEnd :: blockEnd) := by
    decide
  have hline : StartsLine blockStart := by
    intro t ht
    obtain rfl := Option.some.inj ht
    exact Or.inl rfl
  have hok : (ofTokens (blockStart ++ (printName ++ lineEnd :: blockEnd))
      false).parse.1.toOption.isSome = true := by
    decide +kernel
  have hfits : ∀ e ∈ (ofTokens (blockStart ++ (printNothing ++ lineEnd :: blockEnd))
      false).parse.2.reporter.errors.toList, e.category ≠ .nestingTooDeep := by
    decide +kernel
  have htwo : (ofTokens (blockStart ++ (printNothing ++ lineEnd :: blockEnd))
      false).parse.2.reporter.errors ≠
        #[Grammar.missingExpression ⟨.operator .rparen, ")", 3, 7, none⟩] := by
    decide +kernel
  cases hparse : (ofTokens (blockStart ++ (printName ++ lineEnd :: blockEnd)) false).parse.1 with
  | error cause =>
    rw [hparse] at hok
    cases hok
  | ok tree =>
    have hreports := parse_replaced_reports hgood hbad hline rfl
      (e := Grammar.missingExpression ⟨.operator .rparen, ")", 3, 7, none⟩)
      (by constructor <;> decide) hparse (by decide +kernel) (.print rfl (spells_name rfl) rfl)
      (by decide +kernel) (by decide +kernel) hfits
    have hfirst := Classical.not_not.mp fun hno => htwo (hreports.1.mpr hno)
    exact ⟨hfirst, hreports.2 hfirst⟩

end Session

end ScriptCheck
