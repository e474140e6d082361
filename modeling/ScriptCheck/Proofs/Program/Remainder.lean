import ScriptCheck.Proofs.Grammar.Budget
import ScriptCheck.Proofs.Grammar.Locality
import ScriptCheck.Proofs.Program.Reading
import ScriptCheck.Proofs.Statement.Breaking
import ScriptCheck.Proofs.Statement.Unfinished

/-!
# What is left of a program when a line of it is broken

A program of which one line has been replaced by tokens that form no statement loses the declaration
around that line, and of this only what the error makes unreadable: the statements that follow the
line in the blocks around it are still read, and so is everything in front of the declaration and
behind it (`Session.parse_replaced`).

The statements that are left used to be read by the rule of blocks and are now read by the parse
itself, block by block from the innermost one, each up to an `end`, which is passed over because it
is owed (`Session.parseAfter_of_around`). That as many `end`s are owed as blocks are open around the
line, and not one more, is what makes the parse come out even.
-/

namespace ScriptCheck

open ScriptCheck.Rule

/-- What is formed in sequence takes no more of the budget where it is not inside anything. -/
theorem Sequence.unweighted {item : List Token → List Token → Nat → Node → Prop} {stop : Kind}
    {weight a : Nat} {i r : List Token} {ns : List Node} (h : Sequence item stop weight i r a ns) :
    ∃ b ≤ a, Sequence item stop 0 i r b ns := by
  induction h with
  | done hstop => exact ⟨0, Nat.le_refl _, .done hstop⟩
  | next hitem _ ih =>
    rcases ih with ⟨b, hb, hrest⟩
    exact ⟨_, by omega, .next hitem hrest⟩

/-- The tokens of `i` form a program around the line at `p`, which ends in front of `y`. The
declaration around the line is `n`; `before` and `after` are the declarations in front of it and
behind it. -/
def FormsProgramAround (p y i : List Token) (need : Nat) (before : List Node) (n : Node)
    (blocks : Nat) (left after : List Node) : Prop :=
  SequenceAround p y .eof 0 (dropBlank i) [] need before n blocks left after

theorem FormsProgramAround.formsProgram {p y i : List Token} {need blocks : Nat} {n : Node}
    {before left after : List Node} (h : FormsProgramAround p y i need before n blocks left after) :
    FormsProgram i need (before ++ n :: after) := by
  cases h with
  | mk hbefore haround hafter => exact hbefore.trans (.next haround.forms hafter)

/-- A program is formed around each of its lines, except for those in the first branch of a
conditional that has a second one. -/
theorem FormsProgram.exists_around {p y i : List Token} {need a : Nat} {ns : List Node} {m : Node}
    (h : FormsProgram i need ns) (hi : ∀ t ∈ i, t.kind ≠ .eof) (hp : FormsLine p y a m)
    (hat : LineAt p i) (hbranch : ¬ InFirstBranch p i) :
    ∃ before n blocks left after, ns = before ++ n :: after ∧
      FormsProgramAround p y i need before n blocks left after := by
  have heof : ∀ t ∈ p, t.kind ≠ .eof := fun t ht => hi t (hat.suffix.mem ht)
  have hlocates : Sequence
      (fun i r a n => ∃ _ : Forms .declaration i r a n, Locates p y .declaration i r a n)
      .eof 0 (dropBlank i) [] need ns :=
    Sequence.mono (fun _ _ _ _ hforms => ⟨hforms, hforms.locates hp heof⟩) h
  rcases hp.exists_sequenceAround hlocates (hp.lineAt_dropBlank hat) with haround | hfirst | hend
  · exact haround
  · exact absurd (hfirst.of_suffix (dropBlank_suffix i)) hbranch
  · exact absurd (List.suffix_nil.mp hend.suffix) hp.forms.spans.ne_nil

/-! ## Tokens in the place of a line -/

/-- Tokens that may stand in a line: there are some, none of them ends a line, opens or closes a
block, or is an `else` or the end of the input, and no statement starts in their midst. The first of
them may be the word of a simple statement. -/
structure StandsInLine (w : List Token) : Prop where
  ne_nil : w ≠ []
  ne_eol : ∀ t ∈ w, t.kind ≠ .eol
  ne_eof : ∀ t ∈ w, t.kind ≠ .eof
  ne_end : ∀ t ∈ w, t.kind ≠ .keyword .end_
  ne_else : ∀ t ∈ w, t.kind ≠ .keyword .else_
  head_starts : ∀ t ∈ w.head?, t.kind.startsStatement = true →
    t.kind = .keyword .print ∨ t.kind = .keyword .return_
  tail_starts : ∀ t ∈ w.tail, t.kind.startsStatement = false

namespace StandsInLine

variable {w : List Token}

/-- Every token starts no statement, or is the word of a simple one. -/
theorem startsStatement (h : StandsInLine w) {t : Token} (ht : t ∈ w) :
    t.kind.startsStatement = false ∨ t.kind = .keyword .print ∨ t.kind = .keyword .return_ := by
  rcases List.exists_cons_of_ne_nil h.ne_nil with ⟨u, v, rfl⟩
  rcases List.mem_cons.mp ht with rfl | hv
  · cases hstarts : t.kind.startsStatement with
    | false => exact Or.inl rfl
    | true => exact Or.inr (h.head_starts t (by simp) hstarts)
  · exact Or.inl (h.tail_starts t hv)

/-- No block is opened or closed in a line. -/
theorem isQuiet (h : StandsInLine w) {t : Token} (ht : t ∈ w) : t.IsQuiet := by
  refine ⟨fun hdo => ?_, h.ne_end t ht⟩
  rcases h.startsStatement ht with hno | hkind | hkind
  · rw [hdo] at hno
    exact absurd hno (by decide)
  · rw [hdo] at hkind
    cases hkind
  · rw [hdo] at hkind
    cases hkind

end StandsInLine

/-- When the tokens from a line on are replaced, those in front of it stay as they are behind the
ends of line at the front. -/
theorem dropBlank_replaced {i u p q f x : List Token} (hq : Replaces p q) (hi : i = u ++ p)
    (hf : dropBlank i = f ++ (x ++ p)) : dropBlank (u ++ q) = f ++ (x ++ q) ∧ x <:+ u := by
  rcases exists_blank_append i with ⟨es, hes, hblank⟩
  have hne : nextKind (f ++ (x ++ p)) ≠ .eol := by
    rw [← hf]
    exact nextKind_dropBlank_ne i
  have hu : u = es ++ (f ++ x) := by
    have hsame : u ++ p = es ++ (f ++ (x ++ p)) := by
      rw [← hf, ← hes, hi]
    rw [← List.append_assoc f, ← List.append_assoc es] at hsame
    exact List.append_cancel_right hsame
  refine ⟨?_, es ++ f, by rw [hu, List.append_assoc]⟩
  rw [hu, List.append_assoc, List.append_assoc]
  exact ((hq.append x).append f).dropBlank_append hne hblank

theorem Kind.startsDeclaration_of_closesStatement {k : Kind} (h : k.closesStatement = true) :
    k.startsDeclaration = false := by
  unfold Kind.closesStatement at h
  split at h <;> first | rfl | simp at h

/-- Where a statement starts, other tokens may stand that do not go on with what is in front. -/
theorem Forms.replaces {L : Level} {i r i' : List Token} {a : Nat} {n : Node}
    (h : Forms L i r a n) (heol : nextKind i' ≠ .eol) (helse : nextKind i' ≠ .keyword .else_) :
    Replaces i i' := by
  refine ⟨fun hcloses => ?_, fun h => absurd h helse, fun h => absurd h heol⟩
  exact absurd rfl (h.nextKind_ne (Kind.startsDeclaration_of_closesStatement hcloses))

section

variable [Stack] {w y : List Token} {ending : Token} {e : SyntaxError} (hw : StandsInLine w)
  (hending : ending.kind = .eol)
  (hcause : ((Grammar.statement false Nesting.limit).run (.ofTokens (w ++ [ending]))).cause? =
    some (.invalid e))
  (hplace : ((Grammar.statement false Nesting.limit).run (.ofTokens (w ++ [ending]))).place.atEnd =
    false)

include hw hending hcause hplace

/-- A statement that fails on the tokens of a line fails in the same way wherever they stand in
front of the same end of line, and leaves no block open. -/
theorem StandsInLine.fails :
    ∃ v, v <:+ w ∧ ∀ budget ≤ Nesting.limit, ∀ c : Cursor, c.ahead = w ++ ending :: y →
      ((Grammar.statement false budget).run c).FailsWith e 0 (v ++ ending :: y) := by
  have hstart : (Cursor.ofTokens (w ++ [ending])).ahead = w ++ [ending] := by
    rw [Cursor.ahead_ofTokens, Cursor.takeWhile_isBeforeEnd]
    intro t ht
    rcases List.mem_append.mp ht with hmem | hmem
    · exact hw.ne_eof t hmem
    · rw [List.mem_singleton.mp hmem, hending]
      decide
  cases hrun : (Grammar.statement false Nesting.limit).run (.ofTokens (w ++ [ending])) with
  | done n d =>
    rw [hrun] at hcause
    cases hcause
  | failed failure d =>
  rw [hrun] at hcause hplace
  rcases failure with ⟨cause, unclosed⟩
  obtain rfl : cause = .invalid e := Option.some.inj hcause
  have hne : d.ahead ≠ [] := by
    intro hnil
    simp [Outcome.place, Cursor.atEnd, hnil] at hplace
  -- What has been taken is the beginning of the line, in which no block is opened.
  have hopens := (Grammar.ofLevel_failed Nesting.limit .statement _ _ _ hrun (by simp)
    (by simp)).opens
  rw [hstart] at hopens
  rcases hopens with ⟨u, hu, hdepth⟩
  have hsuffix : d.ahead <:+ w ++ [ending] := ⟨u, hu.symm⟩
  rcases List.suffix_concat_iff.mp hsuffix with hnil | ⟨v, hv, hvw⟩
  · exact absurd hnil hne
  have hwhole : w = u ++ v := by
    rw [hv, ← List.append_assoc] at hu
    exact List.append_cancel_right hu
  have hunclosed : unclosed = 0 := by
    have hquiet : blockDepth 0 u = 0 := by
      refine blockDepth_of_isQuiet (fun t ht => hw.isQuiet ?_) 0
      rw [hwhole]
      exact List.mem_append_left v ht
    have hopened : blockDepth 0 u = 0 + unclosed := hdepth 0
    omega
  refine ⟨v, hvw, fun budget hle c hc => ?_⟩
  -- What stands behind the end of line is not seen, and a smaller budget changes nothing.
  have hextends : (Cursor.ofTokens (w ++ [ending])).Extends (some y) c := by
    refine ⟨?_, fun hnone => by cases hnone⟩
    rw [hc, hstart]
    simp
  rcases Local.failed_extends (fun r r' => (closed_local r r').ofLevel Nesting.limit .statement)
    hextends (Or.inl hne) hrun with ⟨d', hd', hrun'⟩
  rcases Grammar.ofLevel_below budget .statement Nesting.limit hle c with hdeep | hsame
  · exact Or.inl hdeep
  · right
    refine ⟨d', ?_, ?_⟩
    · change (Grammar.ofLevel .statement budget).run c = _
      rw [hsame, hrun', hunclosed]
    · rw [hd'.1, hv]
      simp

/-- So such tokens break what stands around the line that they replace. -/
theorem StandsInLine.breaks {p : List Token} {a : Nat} {n : Node} (hp : FormsLine p y a n) :
    ∃ v, v <:+ w ∧ Breaks p (w ++ ending :: y) e (v ++ ending :: y) := by
  rcases hw.fails hending hcause hplace (y := y) with ⟨v, hv, hfails⟩
  rcases List.exists_cons_of_ne_nil hw.ne_nil with ⟨t, u, rfl⟩
  have ht : t ∈ t :: u := by simp
  have hstarts := hw.startsStatement ht
  refine ⟨v, hv, ?_⟩
  constructor
  · exact hp.forms.replaces (hw.ne_eol t ht) (hw.ne_else t ht)
  · exact hp.nextKind_ne (by decide)
  · intro hfn
    rw [List.cons_append, nextKind_cons] at hfn
    rw [hfn] at hstarts
    simp [Kind.startsStatement] at hstarts
  · exact hw.ne_end t ht
  · simp
  · exact hfails

end

/-! ## Resuming behind a line -/

/-- After an error in a line, what is left of the line is skipped, and nothing else. -/
theorem Cursor.resumeDistance_line {v y : List Token} {ending : Token}
    (hv : ∀ t ∈ v, t.kind ≠ .eol) (hstarts : ∀ t ∈ v.tail, t.kind.startsStatement = false)
    (hending : ending.kind = .eol) : resumeDistance (v ++ ending :: y) = v.length + 1 := by
  induction v with
  | nil => cases y <;> simp [resumeDistance, hending]
  | cons t v ih =>
    have ht : t.kind ≠ .eol := hv t (by simp)
    have hrest := ih (fun u hu => hv u (by simp [hu]))
      fun u hu => hstarts u (List.mem_of_mem_tail hu)
    cases v with
    | nil =>
      have hno : ending.kind.startsStatement = false := by rw [hending]; rfl
      rw [List.nil_append] at hrest
      simp [resumeDistance, ht, hno, hrest]
    | cons u v =>
      have hno : u.kind.startsStatement = false := hstarts u (by simp)
      rw [List.cons_append] at hrest
      simp [resumeDistance, ht, hno, hrest]

namespace Session

section

variable {v w y : List Token} {ending : Token} (hw : StandsInLine w) (hv : v <:+ w)
  (hending : ending.kind = .eol)

include hw hv hending

theorem resumeDistance_of_suffix :
    Cursor.resumeDistance (v ++ ending :: y) = v.length + 1 := by
  refine Cursor.resumeDistance_line (fun t ht => hw.ne_eol t (hv.mem ht)) (fun t ht => ?_) hending
  rcases hv with ⟨u, rfl⟩
  cases u with
  | nil => exact hw.tail_starts t ht
  | cons r u => exact hw.tail_starts t (List.mem_append_right u (List.mem_of_mem_tail ht))

theorem resumed_of_suffix : resumed (v ++ ending :: y) = dropBlank y := by
  rw [resumed, resumeDistance_of_suffix hw hv hending]
  simp

/-- No block is opened or closed in what is skipped. -/
theorem owedAfter_of_suffix (pending unclosed : Nat) :
    owedAfter pending unclosed (v ++ ending :: y) = pending + unclosed := by
  have hskipped : (v ++ ending :: y).take (v.length + 1) = v ++ [ending] := by
    rw [List.append_cons]
    exact List.take_left' (by simp)
  have hquiet : ∀ t ∈ v ++ [ending], t.IsQuiet := by
    intro t ht
    rcases List.mem_append.mp ht with hmem | hmem
    · exact hw.isQuiet (hv.mem hmem)
    · rw [List.mem_singleton.mp hmem]
      exact .of_kind hending (by decide) (by decide)
  have hopened : countKind (.keyword .do_) (v ++ [ending]) = 0 := by
    rw [countKind, List.countP_eq_zero]
    intro t ht
    simpa using (hquiet t ht).1
  have hclosed : countKind (.keyword .end_) (v ++ [ending]) = 0 := by
    rw [countKind, List.countP_eq_zero]
    intro t ht
    simpa using (hquiet t ht).2
  rw [owedAfter, resumeDistance_of_suffix hw hv hending, hskipped, hopened, hclosed]
  rfl

/-- A declaration that fails in a line breaks off, and the parse resumes behind that line. -/
theorem parseAfter_of_failsWith [Stack] {s : Session} {e : SyntaxError} {blocks : Nat}
    (hs : s.Between) (hpending : s.pendingEnds = 0) (hne : s.cursor.ahead ≠ [])
    (hfails : ((Grammar.declaration false Nesting.limit).run s.cursor).FailsWith e blocks
      (v ++ ending :: y)) (read : Array Node) :
    (∃ e ∈ (s.parseAfter read).2.reporter.errors.toList, e.category = .nestingTooDeep) ∨
      ∃ d log, s.parseAfter read = parseAfter read
          { s with
            cursor := d
            pendingEnds := blocks
            reporter := s.reporter.report e
            log := log } ∧
        d.ahead = dropBlank y := by
  have hno : ¬ s.OwesNext := fun howes => howes.1 hpending
  rcases hfails with hdeep | ⟨d₀, hrun, hd₀⟩
  · exact Or.inl (exists_tooDeep hs.andSeparates_eq hno hne hdeep read)
  · right
    rcases step_recovered hs hno hrun rfl with ⟨d, log, hstep, hd, -⟩
    dsimp only at hstep
    rw [hd₀, owedAfter_of_suffix hw hv hending, hpending, Nat.zero_add] at hstep
    rw [hd₀, resumed_of_suffix hw hv hending] at hd
    exact ⟨d, log, parseAfter_of_step hne hstep read, hd⟩

end

/-! ## The statements that are left -/

/-- Behind a broken line, where the blocks around it are owed their `end`s, the statements that
follow it in them are read, and their `end`s are passed over. -/
theorem parseAfter_of_around [Stack] {p y : List Token} {L : Level} {i r : List Token}
    {a blocks : Nat} {n : Node} {left : List Node} (h : FormsAround p y L i r a n blocks left)
    (hneed : a ≤ Nesting.limit) (read : Array Node) {s : Session} (hs : s.andSeparates = false)
    (hahead : s.cursor.ahead = dropBlank y) (owed : Nat) (howed : s.pendingEnds = owed + blocks) :
    ∃ d, s.parseAfter read =
        parseAfter (read ++ left.toArray) { s with cursor := d, pendingEnds := owed } ∧
      d.ahead = dropBlank r := by
  induction h generalizing owed with
  | line _ =>
    rw [Nat.add_zero] at howed
    exact ⟨s.cursor, by rw [← howed]; simp, hahead⟩
  | thenBranch _ _ _ _ _ ih =>
    rcases ih (by omega) owed howed with ⟨d, hparse, hd⟩
    exact ⟨d, hparse, by rw [hd, dropBlank_dropBlank]⟩
  | elseBranch _ _ _ _ _ _ _ ih => exact ih (by omega) owed howed
  | loopBody _ _ _ _ _ ih => exact ih (by omega) owed howed
  | forBody _ _ _ _ _ _ ih => exact ih (by omega) owed howed
  | blockStatement _ ih => exact ih hneed owed howed
  | @block i j k r a b c blocks opening closing n before after left hopen _ _ hafter ih =>
    -- The blocks inside are settled first, and the statements of this one come next.
    rcases ih (by omega) (owed + 1) (by omega) with ⟨d₁, hparse₁, hd₁⟩
    rcases hafter.unweighted with ⟨c', hc', hstatements⟩
    rcases parseAfter_of_accepted hstatements (by omega) (read ++ left.toArray)
      { s with cursor := d₁, pendingEnds := owed + 1 } hs hd₁ with ⟨d₂, hparse₂, hd₂, -⟩
    have hclose : closing.kind = .keyword .end_ := hafter.nextKind_eq
    have howes : OwesNext { s with cursor := d₂, pendingEnds := owed + 1 } := by
      refine ⟨Nat.succ_ne_zero owed, ?_⟩
      change nextKind d₂.ahead = _
      rw [hd₂, nextKind_cons, hclose]
    rcases step_settled howes with ⟨d₃, hstep, hd₃, -⟩
    change d₃.ahead = dropBlank (d₂.ahead.drop 1) at hd₃
    rw [hd₂] at hd₃
    refine ⟨d₃, ?_, hd₃⟩
    have hne : d₂.ahead ≠ [] := by simp [hd₂]
    rw [hparse₁, hparse₂, parseAfter_of_step hne hstep]
    simp
  | functionBody _ _ _ _ _ ih => exact ih hneed owed howed
  | declared _ ih => exact ih hneed owed howed

/-- A parse behind a broken line, where the `end`s of the blocks around it are owed, reads what is
left of the declaration around the line and the declarations behind. -/
theorem parseAfter_of_left [Stack] {p y j k : List Token} {b c blocks : Nat} {n : Node}
    {left after : List Node} {s : Session}
    (haround : FormsAround p y .declaration j k b n blocks left) (hb : b ≤ Nesting.limit)
    (hafter : Sequence (Forms .declaration) .eof 0 (dropBlank k) [] c after)
    (hc : c ≤ Nesting.limit) (hs : s.Between) (hahead : s.cursor.ahead = dropBlank y)
    (hpending : s.pendingEnds = blocks) (read : Array Node) :
    (s.parseAfter read).1 = .ok (.program 1 (read.toList ++ left ++ after)) ∧
      (s.parseAfter read).2.reporter = s.reporter ∧ (s.parseAfter read).2.pendingEnds = 0 := by
  rcases parseAfter_of_around haround hb read hs.andSeparates_eq hahead 0
    (by rw [hpending, Nat.zero_add]) with ⟨d, hparse, hd⟩
  rcases parseAfter_of_accepted hafter hc (read ++ left.toArray)
    { s with cursor := d, pendingEnds := 0 } hs.andSeparates_eq hd with ⟨d', hparse', hd', -⟩
  rw [hparse, hparse', parseAfter_of_end hd']
  exact ⟨by simp, rfl, rfl⟩

section

variable [Stack] {tokens tokens' u v w w' y j : List Token} {ending : Token} {e : SyntaxError}
  {a blocks : Nat} {before : List Node}
  (htokens : tokens.takeWhile Cursor.isBeforeEnd = u ++ (v ++ ending :: y))
  (htokens' : tokens'.takeWhile Cursor.isBeforeEnd = u ++ (w ++ ending :: y))
  (hline : StartsLine u) (hending : ending.kind = .eol) (hw : StandsInLine w)

include htokens htokens' hline hending hw

/-- When a line of a program is replaced by tokens that break it, the declarations in front of the
one around the line are read as before. This one breaks off, and the parse resumes behind the line,
where it owes an `end` for every block around it. -/
theorem parse_breaksOff (hw' : w' <:+ w)
    (hbefore : Sequence (Forms .declaration) (nextKind j) 0
      (dropBlank (tokens.takeWhile Cursor.isBeforeEnd)) j a before) (ha : a ≤ Nesting.limit)
    (hbreaks : Breaks (v ++ ending :: y) (w ++ ending :: y) e (w' ++ ending :: y))
    (haround : BreaksAround (v ++ ending :: y) (w ++ ending :: y) e (w' ++ ending :: y)
      .declaration j blocks)
    (hfits : ∀ e ∈ (ofTokens tokens' false).parse.2.reporter.errors.toList,
      e.category ≠ .nestingTooDeep) :
    ∃ s : Session, (ofTokens tokens' false).parse = s.parseAfter before.toArray ∧ s.Between ∧
      s.cursor.ahead = dropBlank y ∧ s.pendingEnds = blocks ∧ s.reporter.errors = #[e] := by
  rcases haround with ⟨x, rfl, hfails⟩
  rcases hbefore.detach (nextKind (x ++ (w ++ ending :: y))) with ⟨f, hf, hread⟩
  rcases dropBlank_replaced hbreaks.replaces htokens hf with ⟨hahead, hx⟩
  rcases parse_eq tokens' with ⟨s₀, hparse, hs₀⟩
  have hahead₀ := hs₀.ahead_eq
  rw [htokens', hahead] at hahead₀
  have hfront := hread _ _ _ _ (hbreaks.replaces.append x) (.done rfl)
  rcases parseAfter_of_accepted hfront (by omega) #[] s₀ hs₀.between.andSeparates_eq hahead₀
    with ⟨d₁, hparse₁, hd₁, -⟩
  have hbroken := hfails (hline.of_suffix hx) Nesting.limit (Nat.le_refl _) d₁ hd₁
  have hbetween : Between { s₀ with cursor := d₁ } :=
    ⟨hs₀.between.failFast_eq, hs₀.between.andSeparates_eq, hs₀.between.openBlocks_eq⟩
  rw [hparse, hparse₁, List.append_nil, Array.empty_append] at hfits ⊢
  rcases parseAfter_of_failsWith hw hw' hending hbetween hs₀.pendingEnds_eq (by simp [hd₁]) hbroken
    before.toArray with ⟨e', he', hdeep⟩ | ⟨d₂, log, hparse₂, hd₂⟩
  · exact absurd hdeep (hfits e' he')
  · refine ⟨_, hparse₂, ⟨hbetween.1, hbetween.2, hbetween.3⟩, hd₂, rfl, ?_⟩
    change (s₀.reporter.report e).errors = #[e]
    rw [hs₀.reporter_eq]
    rfl

/-- When a line of a program is replaced by tokens that break it, what is left of the program is
read, and the error is the only one. -/
theorem parse_of_programAround {need : Nat} {n : Node} {left after : List Node}
    (hprogram : FormsProgramAround (v ++ ending :: y) y (tokens.takeWhile Cursor.isBeforeEnd) need
      before n blocks left after)
    (hneed : need ≤ Nesting.limit)
    (hcause : ((Grammar.statement false Nesting.limit).run (.ofTokens (w ++ [ending]))).cause? =
      some (.invalid e))
    (hplace : ((Grammar.statement false Nesting.limit).run
      (.ofTokens (w ++ [ending]))).place.atEnd = false)
    (hfits : ∀ e ∈ (ofTokens tokens' false).parse.2.reporter.errors.toList,
      e.category ≠ .nestingTooDeep) :
    (ofTokens tokens' false).parse.1 = .ok (.program 1 (before ++ left ++ after)) ∧
      (ofTokens tokens' false).parse.2.reporter.errors = #[e] ∧
      (ofTokens tokens' false).parse.2.pendingEnds = 0 := by
  cases hprogram with
  | mk hbefore haround hafter =>
    rcases haround.exists_line with ⟨_, _, hplain⟩
    rcases hw.breaks hending hcause hplace hplain with ⟨w', hsuffix, hbreaks⟩
    rcases parse_breaksOff htokens htokens' hline hending hw hsuffix hbefore (by omega) hbreaks
      (haround.breaks hbreaks) hfits with ⟨s, hparse, hs, hahead, hpending, herrors⟩
    rcases parseAfter_of_left haround (by omega) hafter (by omega) hs hahead hpending
      before.toArray with ⟨hresult, hreporter, hends⟩
    rw [hparse]
    exact ⟨by simpa using hresult, by rw [hreporter, herrors], hends⟩

end

/-- Recovery inside nested bodies loses only what the error makes unreadable. In a program that is
parsed without an error, take any simple statement with an end of line behind it that starts a line
and is not in the first branch of a conditional that has a second one. Let its tokens be replaced by
others at which a statement fails with the error `e` before the line is over. Then the parse reports
this error and no other, owes no `end`, and gives back the declarations in front of the one that the
line stands in, the statements that follow the line in the blocks around it, from the innermost to
the outermost, and the declarations behind. -/
theorem parse_replaced [Stack] {tokens tokens' u v w y : List Token} {ending : Token} {a : Nat}
    {tree m : Node} {e : SyntaxError} (hparse : (ofTokens tokens false).parse.1 = .ok tree)
    (herrors : (ofTokens tokens false).parse.2.reporter.errors = #[])
    (htokens : tokens.takeWhile Cursor.isBeforeEnd = u ++ (v ++ ending :: y))
    (hline : StartsLine u) (hending : ending.kind = .eol)
    (hstatement : FormsLine (v ++ ending :: y) y a m)
    (hbranch : ¬ InFirstBranch (v ++ ending :: y) (tokens.takeWhile Cursor.isBeforeEnd))
    (hw : StandsInLine w)
    (hcause : ((Grammar.statement false Nesting.limit).run (.ofTokens (w ++ [ending]))).cause? =
      some (.invalid e))
    (hplace : ((Grammar.statement false Nesting.limit).run
      (.ofTokens (w ++ [ending]))).place.atEnd = false)
    (htokens' : tokens'.takeWhile Cursor.isBeforeEnd = u ++ (w ++ ending :: y))
    (hfits : ∀ e ∈ (ofTokens tokens' false).parse.2.reporter.errors.toList,
      e.category ≠ .nestingTooDeep) :
    ∃ need before n blocks left after,
      FormsProgramAround (v ++ ending :: y) y (tokens.takeWhile Cursor.isBeforeEnd) need before n
        blocks left after ∧
      tree = .program 1 (before ++ n :: after) ∧
      (ofTokens tokens' false).parse.1 = .ok (.program 1 (before ++ left ++ after)) ∧
      (ofTokens tokens' false).parse.2.reporter.errors = #[e] ∧
      (ofTokens tokens' false).parse.2.pendingEnds = 0 := by
  rcases parse_reads_of_ok hparse herrors with ⟨need, ns, hprogram⟩
  rcases parse_of_formsProgram hprogram with ⟨hneed, hresult, -⟩ | ⟨-, _, hmem, -⟩
  · rcases hprogram.exists_around (fun t ht => Cursor.ne_eof_of_mem_takeWhile ht) hstatement
      ⟨u, htokens, hline⟩ hbranch with ⟨before, n, blocks, left, after, rfl, haround⟩
    rw [hparse] at hresult
    obtain rfl := Except.ok.inj hresult
    exact ⟨need, before, n, blocks, left, after, haround, rfl,
      parse_of_programAround htokens htokens' hline hending hw haround hneed hcause hplace hfits⟩
  · rw [herrors] at hmem
    simp at hmem

/-- The tokens in front of a line in two blocks: `fn f() do`, and on the next line
`while (x) do`. -/
def twoBlocks : List Token :=
  [⟨.keyword .fn, "fn", 1, 1, none⟩, ⟨.ident, "f", 1, 4, none⟩,
    ⟨.operator .lparen, "(", 1, 5, none⟩, ⟨.operator .rparen, ")", 1, 6, none⟩,
    ⟨.keyword .do_, "do", 1, 8, none⟩, ⟨.eol, "", 1, 10, none⟩,
    ⟨.keyword .while_, "while", 2, 1, none⟩, ⟨.operator .lparen, "(", 2, 7, none⟩,
    ⟨.ident, "x", 2, 8, none⟩, ⟨.operator .rparen, ")", 2, 9, none⟩,
    ⟨.keyword .do_, "do", 2, 11, none⟩, ⟨.eol, "", 2, 13, none⟩]

/-- The tokens behind it: `print z`, an `end`, `return w`, an `end`, and `print v`. -/
def twoEnds : List Token :=
  [⟨.keyword .print, "print", 4, 1, none⟩, ⟨.ident, "z", 4, 7, none⟩, ⟨.eol, "", 4, 8, none⟩,
    ⟨.keyword .end_, "end", 5, 1, none⟩, ⟨.eol, "", 5, 4, none⟩,
    ⟨.keyword .return_, "return", 6, 1, none⟩, ⟨.ident, "w", 6, 8, none⟩, ⟨.eol, "", 6, 9, none⟩,
    ⟨.keyword .end_, "end", 7, 1, none⟩, ⟨.eol, "", 7, 4, none⟩,
    ⟨.keyword .print, "print", 8, 1, none⟩, ⟨.ident, "v", 8, 7, none⟩, ⟨.eol, "", 8, 8, none⟩]

/-- The line `print y` without its end. -/
def printName : List Token :=
  [⟨.keyword .print, "print", 3, 1, none⟩, ⟨.ident, "y", 3, 7, none⟩]

/-- The tokens `print )`, at which a statement fails. -/
def printNothing : List Token :=
  [⟨.keyword .print, "print", 3, 1, none⟩, ⟨.operator .rparen, ")", 3, 7, none⟩]

/-- The end of either line. -/
def lineEnd : Token := ⟨.eol, "", 3, 8, none⟩

/-- A program with a line in two blocks. -/
def inTwoBlocks (line : List Token) : List Token :=
  twoBlocks ++ (line ++ lineEnd :: twoEnds)

theorem spells_name {t : Token} {r : List Token} (ht : t.kind = .ident) :
    Spells .assignment false (t :: r) r (.var t.line t.text) :=
  (Spells.name (s := false) ht).loosen (by decide)

theorem printName_line :
    FormsLine (printName ++ lineEnd :: twoEnds) twoEnds 0 (.print 3 (.var 3 "y")) :=
  .print rfl (spells_name rfl) rfl

/-- In each of the two blocks, a statement follows the line. -/
theorem twoBlocks_around :
    ∃ need n, FormsProgramAround (printName ++ lineEnd :: twoEnds) twoEnds (inTwoBlocks printName)
      need [] n 2 [.print 4 (.var 4 "z"), .return_ 6 (.var 6 "w")] [.print 8 (.var 8 "v")] := by
  have hprint : ∀ (start t e : Token) (r : List Token), start.kind = .keyword .print →
      t.kind = .ident → e.kind = .eol →
      Forms .declaration (start :: t :: e :: r) r 0 (.print start.line (.var t.line t.text)) :=
    fun _ _ _ _ hstart ht he => .declared (.print hstart (spells_name ht) (.line he))
  have hinner : FormsAround (printName ++ lineEnd :: twoEnds) twoEnds .block
      (twoBlocks.drop 10 ++ (printName ++ lineEnd :: twoEnds)) (twoEnds.drop 4) _ _ (0 + 1)
      ([] ++ [.print 4 (.var 4 "z")]) :=
    .block rfl (.done rfl) (.declared (.line printName_line))
      (.next (hprint _ _ _ _ rfl rfl rfl) (.done rfl))
  have houter : FormsAround (printName ++ lineEnd :: twoEnds) twoEnds .block
      (twoBlocks.drop 4 ++ (printName ++ lineEnd :: twoEnds)) (twoEnds.drop 9) _ _ (0 + 1 + 1)
      ([] ++ [.print 4 (.var 4 "z")] ++ [.return_ 6 (.var 6 "w")]) :=
    .block rfl (.done rfl) (.declared (.loopBody rfl rfl (spells_name rfl) rfl
      (.blockStatement hinner)))
      (.next (.declared (.return_ rfl (spells_name rfl) (.line rfl))) (.done rfl))
  exact ⟨_, _, .mk (.done rfl) (.functionBody rfl rfl rfl (.none rfl) houter)
    (.next (hprint _ _ _ _ rfl rfl rfl) (.done rfl))⟩

/-- The function and the loop around the line are lost. What follows the line in the loop, what
follows the loop in the function, and what follows the function are read. -/
theorem parse_replaced_twoBlocks :
    (ofTokens (inTwoBlocks printName) false).parse.2.reporter.errors = #[] ∧
      ∃ need before n blocks left after,
        FormsProgramAround (printName ++ lineEnd :: twoEnds) twoEnds (inTwoBlocks printName) need
          before n blocks left after ∧
        before ++ left ++ after =
          [.print 4 (.var 4 "z"), .return_ 6 (.var 6 "w"), .print 8 (.var 8 "v")] ∧
        (ofTokens (inTwoBlocks printNothing) false).parse.1 =
          .ok (.program 1 (before ++ left ++ after)) ∧
        (ofTokens (inTwoBlocks printNothing) false).parse.2.reporter.errors =
          #[Grammar.missingExpression ⟨.operator .rparen, ")", 3, 7, none⟩] ∧
        (ofTokens (inTwoBlocks printNothing) false).parse.2.pendingEnds = 0 := by
  have hgood : (inTwoBlocks printName).takeWhile Cursor.isBeforeEnd = inTwoBlocks printName := by
    decide
  have hbad : (inTwoBlocks printNothing).takeWhile Cursor.isBeforeEnd =
      inTwoBlocks printNothing := by
    decide
  have hline : StartsLine twoBlocks := by
    intro t ht
    obtain rfl := Option.some.inj ht
    exact Or.inl rfl
  have hstands : StandsInLine printNothing := by
    constructor <;> decide
  -- There is no conditional at all.
  have hbranch : ¬ InFirstBranch (printName ++ lineEnd :: twoEnds)
      ((inTwoBlocks printName).takeWhile Cursor.isBeforeEnd) := by
    rintro ⟨hstart, hif, -⟩
    have hno : ∀ t ∈ inTwoBlocks printName, t.kind ≠ .keyword .if_ := by decide
    rw [hgood] at hstart
    exact hno _ (hstart.mem (by simp)) hif
  have herrors : (ofTokens (inTwoBlocks printName) false).parse.2.reporter.errors = #[] := by
    decide +kernel
  have hfits : ∀ e ∈ (ofTokens (inTwoBlocks printNothing) false).parse.2.reporter.errors.toList,
      e.category ≠ .nestingTooDeep := by
    decide +kernel
  rcases twoBlocks_around with ⟨need, n, hprogram⟩
  rw [← hgood] at hprogram
  rcases parse_of_formsProgram hprogram.formsProgram with ⟨hneed, hparse, -⟩ | ⟨-, _, hmem, -⟩
  · have hleft := parse_of_programAround hgood hbad hline rfl hstands hprogram hneed
      (e := Grammar.missingExpression ⟨.operator .rparen, ")", 3, 7, none⟩) (by decide +kernel)
      (by decide +kernel) hfits
    rcases parse_replaced hparse herrors hgood hline rfl printName_line hbranch hstands
      (e := Grammar.missingExpression ⟨.operator .rparen, ")", 3, 7, none⟩) (by decide +kernel)
      (by decide +kernel) hbad hfits
      with ⟨need', before, n', blocks, left, after, haround, -, hresult, herror, hpending⟩
    rw [hgood] at haround
    have hsame := hresult.symm.trans hleft.1
    simp only [Except.ok.injEq, Node.program.injEq, true_and] at hsame
    exact ⟨herrors, need', before, n', blocks, left, after, haround, hsame, hresult, herror,
      hpending⟩
  · rw [herrors] at hmem
    simp at hmem

end Session

end ScriptCheck
