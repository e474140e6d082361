import ScriptCheck.Proofs.Grammar.Locality
import ScriptCheck.Proofs.Program.Reading
import ScriptCheck.Proofs.Statement.Lines

/-!
# Parsing line by line

A parse of some lines and of more behind them is a parse of each, one after the other
(`Session.parse_append`), with errors in any of them or none. The reason is that no turn of the
parse reaches beyond the end of a line: a declaration is formed by the same tokens, a failure arises
at the same token, and what is skipped after it ends with the line at the latest.

So two sessions take the same turns as long as the one has tokens ahead and the other has the same
ones with more behind them (`Session.Follows`). The second session then goes on behind the lines,
and goes on as a session does that starts there, which is the same lemma once more, with nothing
behind and the same end.
-/

namespace ScriptCheck

open ScriptCheck.Rule

/-! ## Resuming within a line -/

theorem resumeDistance_le (ahead : List Token) : Cursor.resumeDistance ahead ≤ ahead.length := by
  fun_induction Cursor.resumeDistance ahead with
  | case1 => exact Nat.le_refl _
  | case2 => exact Nat.le_refl _
  | case3 t u rest _ => simp
  | case4 t u rest _ ih => simpa using ih

/-- What is skipped after an error ends with the line. -/
theorem resumeDistance_append {ahead : List Token} (hne : ahead ≠ []) (hline : EndsLine ahead)
    (more : List Token) :
    Cursor.resumeDistance (ahead ++ more) = Cursor.resumeDistance ahead := by
  fun_induction Cursor.resumeDistance ahead with
  | case1 => exact absurd rfl hne
  | case2 t =>
    have ht : t.kind = .eol := hline t rfl
    cases more with
    | nil => rfl
    | cons u more => simp [Cursor.resumeDistance, ht]
  | case3 t u rest hstop =>
    simp only [List.cons_append, Cursor.resumeDistance]
    rw [if_pos hstop]
  | case4 t u rest hgo ih =>
    have hrest := ih (by simp) (hline.of_suffix (List.suffix_cons t _))
    simp only [List.cons_append] at hrest ⊢
    rw [Cursor.resumeDistance, if_neg hgo, hrest]

namespace Session

theorem owedAfter_append (pending unclosed : Nat) {ahead : List Token} (hne : ahead ≠ [])
    (hline : EndsLine ahead) (more : List Token) :
    owedAfter pending unclosed (ahead ++ more) = owedAfter pending unclosed ahead := by
  unfold owedAfter
  rw [resumeDistance_append hne hline, List.take_append_of_le_length (resumeDistance_le ahead)]

theorem resumed_append {ahead : List Token} (hne : ahead ≠ []) (hline : EndsLine ahead)
    (more : List Token) : resumed (ahead ++ more) = dropBlank (resumed ahead ++ more) := by
  unfold resumed
  rw [resumeDistance_append hne hline, List.drop_append_of_le_length (resumeDistance_le ahead),
    dropBlank_append]

/-! ## Declarations with more behind them -/

/-- Whether `more` behind what is ahead is no matter to what is read there: the lines are ended and
no `else` comes behind them, or nothing comes. -/
def Apart (more : Option (List Token)) (ahead : List Token) : Prop :=
  more = none ∨ (EndsLine ahead ∧ nextKind (dropBlank (more.getD [])) ≠ .keyword .else_)

variable {more : Option (List Token)}

theorem Apart.of_suffix {i r : List Token} (h : Apart more i) (hr : r <:+ i) : Apart more r := by
  rcases h with hnone | ⟨hline, helse⟩
  · exact Or.inl hnone
  · exact Or.inr ⟨hline.of_suffix hr, helse⟩

theorem declaration_done_append [Stack] {c c' d : Cursor} {n : Node}
    (hc : c'.ahead = c.ahead ++ more.getD []) (hapart : Apart more c.ahead)
    (hrun : (Grammar.declaration false Nesting.limit).run c = .done n d) :
    ∃ d', (Grammar.declaration false Nesting.limit).run c' = .done n d' ∧
      dropBlank d'.ahead = dropBlank (d.ahead ++ more.getD []) := by
  rcases Grammar.ofLevel_done Nesting.limit .declaration _ _ _ hrun with ⟨need, hfits, hforms⟩
  have hbefore : FormsBefore (more.getD []) .declaration c.ahead d.ahead need n := by
    rcases hapart with rfl | ⟨hline, helse⟩
    · exact ⟨d.ahead, by simpa using hforms, by simp⟩
    · exact hforms.append hline helse
  rcases hbefore with ⟨r', hforms', hr'⟩
  rcases hforms'.readAs Nesting.limit c' hc with ⟨-, d', hd', hrun'⟩ | ⟨hno, -⟩
  · refine ⟨d', hrun', ?_⟩
    rw [hd', hr']
  · exact absurd hfits hno

theorem declaration_failed_append [Stack] {c c' d : Cursor} {failure : Failure}
    (hc : c.Extends more c') (hwithin : d.Within more)
    (hrun : (Grammar.declaration false Nesting.limit).run c = .failed failure d) :
    ∃ d', (Grammar.declaration false Nesting.limit).run c' = .failed failure d' ∧
      d.Extends more d' := by
  have hlocal := fun r r' => (closed_local r r').declaration Nesting.limit
  rcases Local.failed_extends hlocal hc hwithin hrun with ⟨d', hd', hrun'⟩
  exact ⟨d', hrun', hd'⟩

theorem syntaxError?_congr {cause : Cause} {c d : Cursor} (h : d.peek = c.peek) :
    cause.syntaxError? d = cause.syntaxError? c := by
  cases cause with
  | tooDeep => simp only [Cause.syntaxError?, h]
  | _ => rfl

/-! ## Sessions side by side -/

/-- Whether a session is at the same point as another, with `more` behind what is ahead. -/
structure Follows (more : Option (List Token)) (s s' : Session) : Prop where
  between : s'.Between
  pendingEnds_eq : s'.pendingEnds = s.pendingEnds
  ahead_eq : s'.cursor.ahead = dropBlank (s.cursor.ahead ++ more.getD [])
  finish_eq : more = none → s'.cursor.finish = s.cursor.finish

/-- What a parse makes of `s`, with the statements `ns` and the errors `es`, is made of `s'` on the
way to `s''`, from where the parse goes on. -/
structure Passes [Stack] (more : Option (List Token)) (read : Array Node) (s : Session)
    (o : Except Cause Node × Session) (read' : Array Node) (s' : Session) (ns : List Node)
    (es : List SyntaxError) (s'' : Session) : Prop where
  result_eq : o.1 = .ok (.program 1 (read.toList ++ ns))
  errors_eq : o.2.reporter.errors.toList = s.reporter.errors.toList ++ es
  parse_eq : s'.parseAfter read' = s''.parseAfter (read' ++ ns.toArray)
  errors_eq' : s''.reporter.errors.toList = s'.reporter.errors.toList ++ es
  pendingEnds_eq : s''.pendingEnds = o.2.pendingEnds
  ahead_eq : s''.cursor.ahead = dropBlank (more.getD [])
  finish_eq : s''.cursor.finish = s'.cursor.finish
  between : s''.Between

/-- Whether no error blames the end of the input. -/
def NoneAtEnd (errors : List SyntaxError) : Prop :=
  ∀ e ∈ errors, ∀ t ∈ e.token, t.kind ≠ .eof

/-- A turn that both sessions take comes in front of what they make of the rest. -/
theorem Passes.of_turn [Stack] {read read₁ read' read₁' : Array Node} {s s₁ s' s₁' s'' : Session}
    {o : Except Cause Node × Session} {ns : List Node} {es : List SyntaxError}
    (h : Passes more read₁ s₁ o read₁' s₁' ns es s'') (ms : List Node) (fs : List SyntaxError)
    (hread : read₁.toList = read.toList ++ ms) (hread' : read₁' = read' ++ ms.toArray)
    (herrors : s₁.reporter.errors.toList = s.reporter.errors.toList ++ fs)
    (herrors' : s₁'.reporter.errors.toList = s'.reporter.errors.toList ++ fs)
    (hparse : s'.parseAfter read' = s₁'.parseAfter read₁')
    (hfinish : s₁'.cursor.finish = s'.cursor.finish) :
    Passes more read s o read' s' (ms ++ ns) (fs ++ es) s'' where
  result_eq := by rw [h.result_eq, hread, List.append_assoc]
  errors_eq := by rw [h.errors_eq, herrors, List.append_assoc]
  parse_eq := by
    rw [hparse, h.parse_eq, hread']
    simp
  errors_eq' := by rw [h.errors_eq', herrors', List.append_assoc]
  pendingEnds_eq := h.pendingEnds_eq
  ahead_eq := h.ahead_eq
  finish_eq := h.finish_eq.trans hfinish
  between := h.between

namespace Follows

variable {s s' : Session} {d d' d₀ : Cursor}

/-- The end is the same wherever the two sessions go. -/
theorem finish_of_reaches (h : Follows more s s') (hd : s.cursor.Reaches d)
    (hd' : s'.cursor.Reaches d') : more = none → d'.finish = d.finish := by
  intro hnone
  rw [hd.finish_eq, hd'.finish_eq, h.finish_eq hnone]

section

variable (h : Follows more s s') (hstart : nextKind s.cursor.ahead ≠ .eol)
  (hne : s.cursor.ahead ≠ [])

include h hstart hne

theorem ahead_append : s'.cursor.ahead = s.cursor.ahead ++ more.getD [] := by
  rw [h.ahead_eq]
  apply dropBlank_of_nextKind_ne
  rwa [nextKind_append hne]

theorem cursor_extends : s.cursor.Extends more s'.cursor := by
  constructor
  · exact h.ahead_append hstart hne
  · exact h.finish_eq

theorem owesNext_iff : s'.OwesNext ↔ s.OwesNext := by
  unfold OwesNext
  rw [h.pendingEnds_eq, h.ahead_append hstart hne, nextKind_append hne]

theorem ahead_ne_nil : s'.cursor.ahead ≠ [] := by
  rw [h.ahead_append hstart hne]
  simp [hne]

/-! ## One turn of two sessions -/

variable [Stack]

/-- Where the one session passes over an `end`, so does the other. -/
theorem settled (howes : s.OwesNext) (hd : d.ahead = dropBlank (s.cursor.ahead.drop 1))
    (hreaches : s.cursor.Reaches d) :
    ∃ t, s'.step = (.settled, t) ∧
      Follows more { s with cursor := d, pendingEnds := s.pendingEnds - 1 } t ∧
      t.cursor.finish = s'.cursor.finish ∧
      t.reporter.errors.toList = s'.reporter.errors.toList ++ [] := by
  rcases step_settled ((h.owesNext_iff hstart hne).mpr howes) with ⟨d', hstep, hd', hreaches'⟩
  refine ⟨_, hstep, ⟨⟨h.between.1, h.between.2, h.between.3⟩, ?_, ?_,
    h.finish_of_reaches hreaches hreaches'⟩, hreaches'.finish_eq, by simp⟩
  · dsimp only
    rw [h.pendingEnds_eq]
  · dsimp only
    rw [hd', hd, h.ahead_append hstart hne, ← dropBlank_append,
      List.drop_append_of_le_length (List.length_pos_iff.mpr hne)]

/-- Where the one reads a declaration, the other reads the same one. -/
theorem accepted {n : Node} (hapart : Apart more s.cursor.ahead) (howes : ¬ s.OwesNext)
    (hrun : (Grammar.declaration false Nesting.limit).run s.cursor = .done n d₀)
    (hd : d.ahead = dropBlank d₀.ahead) (hreaches : s.cursor.Reaches d) :
    ∃ t, s'.step = (.accepted n, t) ∧ Follows more { s with cursor := d } t ∧
      t.cursor.finish = s'.cursor.finish ∧
      t.reporter.errors.toList = s'.reporter.errors.toList ++ [] := by
  have howes' : ¬ s'.OwesNext := fun hboth => howes ((h.owesNext_iff hstart hne).mp hboth)
  rcases declaration_done_append (h.ahead_append hstart hne) hapart hrun with ⟨d₀', hrun', hd₀⟩
  rcases step_accepted h.between.andSeparates_eq howes' hrun' with ⟨d', hstep, hd', hreaches'⟩
  refine ⟨_, hstep, ⟨⟨h.between.1, h.between.2, h.between.3⟩, h.pendingEnds_eq, ?_,
    h.finish_of_reaches hreaches hreaches'⟩, hreaches'.finish_eq, by simp⟩
  dsimp only
  rw [hd', hd, hd₀, ← dropBlank_append]

/-- Where the one reports an error that is within what both have ahead, the other reports it as well
and resumes at the same token. -/
theorem recovered {failure : Failure} {e : SyntaxError} (log : Array Event)
    (hapart : Apart more s.cursor.ahead) (howes : ¬ s.OwesNext) (hwithin : d₀.Within more)
    (hrun : (Grammar.declaration false Nesting.limit).run s.cursor = .failed failure d₀)
    (he : failure.cause.syntaxError? d₀ = some e) (hd : d.ahead = resumed d₀.ahead)
    (hreaches : s.cursor.Reaches d) :
    ∃ t, s'.step = (.recovered, t) ∧
      Follows more
        { s with
          cursor := d
          pendingEnds := owedAfter s.pendingEnds failure.unclosed d₀.ahead
          reporter := s.reporter.report e
          log := log } t ∧
      t.cursor.finish = s'.cursor.finish ∧
      t.reporter.errors.toList = s'.reporter.errors.toList ++ [e] := by
  have howes' : ¬ s'.OwesNext := fun hboth => howes ((h.owesNext_iff hstart hne).mp hboth)
  rcases declaration_failed_append (h.cursor_extends hstart hne) hwithin hrun
    with ⟨d₀', hrun', hextends⟩
  have he' : failure.cause.syntaxError? d₀' = some e := by
    rw [syntaxError?_congr (hextends.peek_eq hwithin), he]
  rcases step_recovered h.between howes' hrun' he' with ⟨d', log', hstep, hd', hreaches'⟩
  have hforward := (Grammar.declaration false Nesting.limit).forward s.cursor
  rw [hrun] at hforward
  -- What is skipped lies in the lines, or nothing comes behind them.
  have hresumed : resumed d₀'.ahead = dropBlank (resumed d₀.ahead ++ more.getD []) ∧
      owedAfter s.pendingEnds failure.unclosed d₀'.ahead =
        owedAfter s.pendingEnds failure.unclosed d₀.ahead := by
    rw [hextends.1]
    rcases hapart.of_suffix hforward.suffix with rfl | ⟨hline, -⟩
    · simp [resumed]
    · rcases hwithin with hne' | rfl
      · exact ⟨resumed_append hne' hline _, owedAfter_append _ _ hne' hline _⟩
      · simp [resumed]
  refine ⟨_, hstep, ⟨⟨h.between.1, h.between.2, h.between.3⟩, ?_, ?_,
    h.finish_of_reaches hreaches hreaches'⟩, hreaches'.finish_eq, Reporter.errors_report _ _⟩
  · dsimp only
    rw [h.pendingEnds_eq, hresumed.2]
  · dsimp only
    rw [hd', hd, hresumed.1]

end

end Follows

/-! ## All turns of two sessions -/

/-- Where a session follows another, it takes all turns that the other one takes, and then goes on
with what is behind. -/
theorem parseAfter_follows [Stack] (read : Array Node) {s : Session} (hs : s.Between)
    (hnumbers : NumbersCarryValues s.cursor.ahead) (hstart : nextKind s.cursor.ahead ≠ .eol)
    (hapart : Apart more s.cursor.ahead)
    (hnone : more = none ∨ NoneAtEnd (s.parseAfter read).2.reporter.errors.toList)
    (read' : Array Node) {s' : Session} (hfollows : Follows more s s') :
    ∃ ns es s'', Passes more read s (s.parseAfter read) read' s' ns es s'' := by
  have hboth := parseAfter_induct
    (P := fun read s o => s.reporter.errors.toList <+: o.2.reporter.errors.toList ∧
      (nextKind s.cursor.ahead ≠ .eol → Apart more s.cursor.ahead →
        (more = none ∨ NoneAtEnd o.2.reporter.errors.toList) → ∀ read' s', Follows more s s' →
          ∃ ns es s'', Passes more read s o read' s' ns es s''))
    ?_ ?_ ?_ ?_ read s hs hnumbers
  · exact hboth.2 hstart hapart hnone read' s' hfollows
  · intro read s log hend
    refine ⟨List.prefix_refl _, ?_⟩
    intro _ _ _ read' s' hfollows
    -- Nothing is left of the lines, and the other session stands where they end.
    refine ⟨[], [], s', by simp, by simp, by simp, by simp, hfollows.pendingEnds_eq, ?_, rfl,
      hfollows.between⟩
    rw [hfollows.ahead_eq, hend, List.nil_append]
  · intro read s d o _ hne howes hd hreaches ih
    refine ⟨ih.1, ?_⟩
    intro hstart hapart hnone read' s' hfollows
    rcases hfollows.settled hstart hne howes hd hreaches with ⟨t, hstep, hnext, hfinish, herrors⟩
    have hd' : nextKind d.ahead ≠ .eol := by
      rw [hd]
      exact nextKind_dropBlank_ne _
    rcases ih.2 hd' (hapart.of_suffix hreaches.suffix) hnone read' t hnext
      with ⟨ns, es, s'', hpasses⟩
    exact ⟨ns, es, s'', hpasses.of_turn [] [] (by simp) (by simp) (by simp) herrors
      (parseAfter_of_step (hfollows.ahead_ne_nil hstart hne) hstep read') hfinish⟩
  · intro read s n d₀ d o _ hne howes hrun hd hreaches ih
    refine ⟨ih.1, ?_⟩
    intro hstart hapart hnone read' s' hfollows
    rcases hfollows.accepted hstart hne hapart howes hrun hd hreaches
      with ⟨t, hstep, hnext, hfinish, herrors⟩
    have hd' : nextKind d.ahead ≠ .eol := by
      rw [hd]
      exact nextKind_dropBlank_ne _
    rcases ih.2 hd' (hapart.of_suffix hreaches.suffix) hnone (read'.push n) t hnext
      with ⟨ns, es, s'', hpasses⟩
    exact ⟨n :: ns, es, s'', hpasses.of_turn [n] [] (by simp) (by simp) (by simp) herrors
      (parseAfter_of_step (hfollows.ahead_ne_nil hstart hne) hstep read') hfinish⟩
  · intro read s failure d₀ e d log o _ hne howes hrun he htoken hd hreaches ih
    have hreported := ih.1
    rw [Reporter.errors_report] at hreported
    refine ⟨(List.prefix_append _ _).trans hreported, ?_⟩
    intro hstart hapart hnone read' s' hfollows
    -- The error is at a token of the lines, or else nothing comes behind them.
    have hwithin : d₀.Within more := by
      rcases hnone with hnone | hnone
      · exact Or.inr hnone
      · left
        have hkind := hnone e (hreported.mem (by simp)) _ htoken
        exact Cursor.ahead_ne_nil_of_kind_peek hkind
    rcases hfollows.recovered hstart hne log hapart howes hwithin hrun he hd hreaches
      with ⟨t, hstep, hnext, hfinish, herrors⟩
    have hd' : nextKind d.ahead ≠ .eol := by
      rw [hd]
      exact nextKind_dropBlank_ne _
    rcases ih.2 hd' (hapart.of_suffix hreaches.suffix) hnone read' t hnext
      with ⟨ns, es, s'', hpasses⟩
    exact ⟨ns, e :: es, s'', hpasses.of_turn [] [e] (by simp) (by simp)
      (Reporter.errors_report _ _) herrors
      (parseAfter_of_step (hfollows.ahead_ne_nil hstart hne) hstep read') hfinish⟩

/-! ## Whole parses -/

theorem closing_append (A : List Token) {B : List Token} (hB : B ≠ []) :
    Cursor.closing (A ++ B) = Cursor.closing B := by
  unfold Cursor.closing
  rw [List.getLast?_append, List.getLast?_eq_some_getLast hB]
  rfl

theorem finish_ofTokens (tokens : List Token) :
    (Cursor.ofTokens tokens).finish =
      ((tokens ++ Cursor.closing tokens).dropWhile Cursor.isBeforeEnd).headD
        (Cursor.endMarker 1) := by
  unfold Cursor.ofTokens
  split <;> next h => simp [h]

/-- The end of the input is that of what comes last, if that has a token. -/
theorem finish_append {A B : List Token} (hA : ∀ t ∈ A, t.kind ≠ .eof) (hB : B ≠ []) :
    (Cursor.ofTokens (A ++ B)).finish = (Cursor.ofTokens B).finish := by
  have hbefore : ∀ t ∈ A, Cursor.isBeforeEnd t = true := by
    intro t ht
    simpa [Cursor.isBeforeEnd] using hA t ht
  rw [finish_ofTokens, finish_ofTokens, closing_append A hB, List.append_assoc,
    List.dropWhile_append_of_pos hbefore]

/-- What is not at the front of some tokens is not there up to the end of the input. -/
theorem nextKind_takeWhile_ne {B : List Token} {k : Kind} (hk : k ≠ .eof)
    (h : nextKind (dropBlank B) ≠ k) :
    nextKind (dropBlank (B.takeWhile Cursor.isBeforeEnd)) ≠ k := by
  induction B with
  | nil => simpa using hk.symm
  | cons t B ih =>
    by_cases hend : t.kind = .eof
    · simpa [Cursor.isBeforeEnd, hend] using hk.symm
    · rw [List.takeWhile_cons_of_pos (by simpa [Cursor.isBeforeEnd] using hend)]
      by_cases heol : t.kind = .eol
      · rw [dropBlank_cons_eol heol] at h ⊢
        exact ih h
      · rw [dropBlank_of_nextKind_ne (by simpa using heol)] at h ⊢
        exact h

/-- A parse of some tokens and of more behind them starts where a parse of the tokens does. -/
theorem StartsOn.follows {A B : List Token} {s s' : Session} (hA : ∀ t ∈ A, t.kind ≠ .eof)
    (h : StartsOn A s) (h' : StartsOn (A ++ B) s') :
    Follows (some (B.takeWhile Cursor.isBeforeEnd)) s s' := by
  constructor
  · exact h'.between
  · rw [h'.pendingEnds_eq, h.pendingEnds_eq]
  · rw [h'.ahead_eq, h.ahead_eq, Cursor.takeWhile_isBeforeEnd_append hA,
      Cursor.takeWhile_isBeforeEnd hA, ← dropBlank_append]
    rfl
  · simp

section

variable [Stack]

/-- And it goes on behind the tokens where a parse of what is behind them starts, if none of the
`end`s that the tokens owe is left. -/
theorem Passes.follows_rest {A B : List Token} {read read' : Array Node} {s s' s'' u : Session}
    {ns : List Node} {es : List SyntaxError} (hA : ∀ t ∈ A, t.kind ≠ .eof) (hB : B ≠ [])
    (h : Passes (some (B.takeWhile Cursor.isBeforeEnd)) read s (s.parseAfter read) read' s' ns es
      s'')
    (hpending : (s.parseAfter read).2.pendingEnds = 0) (h' : StartsOn (A ++ B) s')
    (hu : StartsOn B u) : Follows none u s'' := by
  constructor
  · exact h.between
  · rw [h.pendingEnds_eq, hpending, hu.pendingEnds_eq]
  · rw [h.ahead_eq, hu.ahead_eq]
    simp
  · intro _
    rw [h.finish_eq, h'.finish_eq, hu.finish_eq, finish_append hA hB]

/-- A parse of nothing gives nothing. -/
theorem parse_nil : (ofTokens [] false).parse.1 = .ok (.program 1 []) ∧
    (ofTokens [] false).parse.2.reporter.errors.toList = [] ∧
    (ofTokens [] false).parse.2.pendingEnds = 0 := by
  rcases parse_eq [] with ⟨s, hparse, hs⟩
  rw [hparse, parseAfter_of_end hs.ahead_eq]
  refine ⟨rfl, ?_, hs.pendingEnds_eq⟩
  dsimp only
  rw [hs.reporter_eq]

/-- Lines are parsed one after the other. Where a parse of the tokens `A`, which end a line, leaves
no `end` owed and blames nothing on the end of the input, a parse of `A` with `B` behind it gives
the statements and the errors of the one and then those of the other, and ends as the other does. -/
theorem parse_append {A B : List Token} (hA : ∀ t ∈ A, t.kind ≠ .eof) (hline : EndsLine A)
    (hnumbers : NumbersCarryValues (A ++ B))
    (hnone : NoneAtEnd (ofTokens A false).parse.2.reporter.errors.toList)
    (hpending : (ofTokens A false).parse.2.pendingEnds = 0)
    (helse : nextKind (dropBlank B) ≠ .keyword .else_) :
    ∃ ns ms, (ofTokens A false).parse.1 = .ok (.program 1 ns) ∧
      (ofTokens B false).parse.1 = .ok (.program 1 ms) ∧
      (ofTokens (A ++ B) false).parse.1 = .ok (.program 1 (ns ++ ms)) ∧
      (ofTokens (A ++ B) false).parse.2.reporter.errors.toList =
        (ofTokens A false).parse.2.reporter.errors.toList ++
          (ofTokens B false).parse.2.reporter.errors.toList ∧
      (ofTokens (A ++ B) false).parse.2.pendingEnds = (ofTokens B false).parse.2.pendingEnds := by
  have hwhole := Cursor.takeWhile_isBeforeEnd hA
  by_cases hB : B = []
  · -- Nothing comes behind the lines, which end as they did.
    subst hB
    have hnumbersA : NumbersCarryValues (A.takeWhile Cursor.isBeforeEnd) := by
      rw [hwhole]
      simpa using hnumbers
    rcases parse_forms hnumbersA with ⟨ns, hresult, -⟩
    rcases parse_nil with ⟨hnil, herrors, hends⟩
    refine ⟨ns, [], hresult, hnil, ?_, ?_, ?_⟩
    · simpa using hresult
    · simp [herrors]
    · rw [List.append_nil, hpending, hends]
  · rcases parse_eq A with ⟨s, hparse, hs⟩
    rcases parse_eq (A ++ B) with ⟨s', hparse', hs'⟩
    rcases parse_eq B with ⟨u, hparseB, hu⟩
    have hsuffix := hs.suffix
    rw [hwhole] at hsuffix
    have hnumbersA : NumbersCarryValues s.cursor.ahead := by
      intro t ht
      exact hnumbers t (List.mem_append_left B (hsuffix.mem ht))
    have hnumbersB : NumbersCarryValues u.cursor.ahead := by
      intro t ht
      have hmem := (List.takeWhile_prefix _).mem (hu.suffix.mem ht)
      exact hnumbers t (List.mem_append_right A hmem)
    have hapart : Apart (some (B.takeWhile Cursor.isBeforeEnd)) s.cursor.ahead := by
      right
      exact ⟨hline.of_suffix hsuffix, nextKind_takeWhile_ne (by decide) helse⟩
    rw [hparse] at hnone hpending ⊢
    -- The lines are parsed as they are on their own, and so is the rest, from where they end.
    rcases parseAfter_follows #[] hs.between hnumbersA hs.nextKind_ne hapart (Or.inr hnone) #[]
      (hs.follows hA hs') with ⟨ns, es, s'', hlines⟩
    rcases parseAfter_follows #[] hu.between hnumbersB hu.nextKind_ne (Or.inl rfl) (Or.inl rfl)
      (#[] ++ ns.toArray) (hlines.follows_rest hA hB hpending hs' hu) with ⟨ms, fs, v, hbehind⟩
    have hend : v.cursor.ahead = [] := hbehind.ahead_eq
    rw [hparse', hparseB, hlines.parse_eq, hbehind.parse_eq, parseAfter_of_end hend]
    refine ⟨ns, ms, ?_, ?_, ?_, ?_, hbehind.pendingEnds_eq⟩
    · simpa using hlines.result_eq
    · simpa using hbehind.result_eq
    · simp
    · dsimp only
      rw [hbehind.errors_eq', hlines.errors_eq', hlines.errors_eq, hbehind.errors_eq,
        hs.reporter_eq, hs'.reporter_eq, hu.reporter_eq]
      simp

end

/-- The tokens of a line that is no statement and of one that is: `print )` and then `print x`. -/
def mixedLines : List Token :=
  [⟨.keyword .print, "print", 1, 1, none⟩, ⟨.operator .rparen, ")", 1, 7, none⟩,
    ⟨.eol, "", 1, 8, none⟩, ⟨.keyword .print, "print", 2, 1, none⟩, ⟨.ident, "x", 2, 7, none⟩,
    ⟨.eol, "", 2, 8, none⟩]

/-- The tokens of a block that is abandoned on its first line: `do print )`. -/
def abandonedBlock : List Token :=
  [⟨.keyword .do_, "do", 3, 1, none⟩, ⟨.keyword .print, "print", 3, 4, none⟩,
    ⟨.operator .rparen, ")", 3, 10, none⟩, ⟨.eol, "", 3, 11, none⟩]

/-- The `end` that is owed to the block is owed behind the lines, too. -/
theorem parse_append_mixedLines :
    (ofTokens (mixedLines ++ abandonedBlock) false).parse.2.reporter.errors.toList =
        (ofTokens mixedLines false).parse.2.reporter.errors.toList ++
          (ofTokens abandonedBlock false).parse.2.reporter.errors.toList ∧
      (ofTokens (mixedLines ++ abandonedBlock) false).parse.2.pendingEnds = 1 := by
  have hline : EndsLine mixedLines := by
    unfold EndsLine
    decide
  have hnumbers : NumbersCarryValues (mixedLines ++ abandonedBlock) := by
    unfold NumbersCarryValues
    decide
  have hnone : NoneAtEnd (ofTokens mixedLines false).parse.2.reporter.errors.toList := by
    unfold NoneAtEnd
    decide +kernel
  rcases parse_append (A := mixedLines) (B := abandonedBlock) (by decide) hline hnumbers hnone
    (by decide +kernel) (by decide) with ⟨ns, ms, -, -, -, herrors, hends⟩
  refine ⟨herrors, ?_⟩
  rw [hends]
  decide +kernel

end Session

end ScriptCheck
