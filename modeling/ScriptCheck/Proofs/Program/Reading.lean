import ScriptCheck.Proofs.Program.Turns

/-!
# What a parse reads

A program is a sequence of declarations up to the end of the input. A parse that reports no error
has read one (`parse_reads`), and a parse of one gives its trees without an error, or reports that
the nesting is too deep (`parse_of_formsProgram`). Whether or not there are errors, every statement
that comes out was formed by tokens of the input (`parse_forms`).
-/

namespace ScriptCheck

open ScriptCheck.Rule

/-- The tokens of `i` form the declarations of a program, which need that much of the nesting
budget. -/
def FormsProgram (i : List Token) (need : Nat) (ns : List Node) : Prop :=
  Sequence (Forms .declaration) .eof 0 (dropBlank i) [] need ns

namespace Session

variable {s : Session} {read : Array Node}

/-- The errors that have been reported before a parse goes on stay reported. -/
theorem errors_prefix_parseAfter [Stack] (read : Array Node) (s : Session) :
    s.reporter.errors.toList <+: (s.parseAfter read).2.reporter.errors.toList := by
  generalize hn : s.cursor.remaining = n
  induction n using Nat.strongRecOn generalizing read s with
  | ind n ih =>
    by_cases hend : s.cursor.ahead = []
    · have hsame := parseAfter_of_end hend read
      exact errors_prefix_of_reporter_eq (by rw [hsame])
    · have hturn := errors_prefix_step s
      have hprogress := step_progress (s := s) (by simp [Cursor.atEnd, hend])
      cases hstep : s.step with
      | mk turn s' =>
        rw [hstep] at hturn hprogress
        rw [parseAfter_of_step hend hstep]
        cases turn with
        | stopped cause => exact hturn
        | accepted n =>
          exact hturn.trans (ih _ (by rw [← hn]; exact hprogress (by simp)) _ s' rfl)
        | settled =>
          exact hturn.trans (ih _ (by rw [← hn]; exact hprogress (by simp)) _ s' rfl)
        | recovered =>
          exact hturn.trans (ih _ (by rw [← hn]; exact hprogress (by simp)) _ s' rfl)

/-- So do those of the first turn. -/
theorem errors_step_prefix_parseAfter [Stack] (h : s.cursor.ahead ≠ []) (read : Array Node) :
    s.step.2.reporter.errors.toList <+: (s.parseAfter read).2.reporter.errors.toList := by
  cases hstep : s.step with
  | mk turn s' =>
    rw [parseAfter_of_step h hstep]
    cases turn with
    | stopped cause => exact List.prefix_refl _
    | accepted n => exact errors_prefix_parseAfter _ s'
    | settled => exact errors_prefix_parseAfter _ s'
    | recovered => exact errors_prefix_parseAfter _ s'

/-- No owed `end` comes where a declaration starts. -/
theorem not_owesNext_of_forms {L : Level} {i r : List Token} {need : Nat} {n : Node}
    (h : Forms L i r need n) (hi : s.cursor.ahead = i) : ¬ s.OwesNext := by
  rintro ⟨-, hend⟩
  rw [hi] at hend
  exact h.nextKind_ne (by decide) hend

section

variable [Stack]

/-- Declarations in front of a place are read one after another, in any session. -/
theorem parseAfter_of_accepted {stop : Kind} {i r : List Token} {need : Nat} {ns : List Node}
    (h : Sequence (Forms .declaration) stop 0 i r need ns) (hneed : need ≤ Nesting.limit) :
    ∀ (read : Array Node) (s : Session), s.andSeparates = false → s.cursor.ahead = i →
      ∃ d, s.parseAfter read = parseAfter (read ++ ns.toArray) { s with cursor := d } ∧
        d.ahead = r ∧ s.cursor.Reaches d := by
  induction h with
  | done _ =>
    intro read s _ hi
    exact ⟨s.cursor, by simp, hi, .refl _⟩
  | @next i j r a b n ns hforms _ ih =>
    intro read s hs hi
    have hne : s.cursor.ahead ≠ [] := by
      rw [hi]
      exact hforms.spans.ne_nil
    rcases hforms.readAs Nesting.limit s.cursor hi with ⟨-, d₀, hd₀, hrun⟩ | ⟨hdeep, -⟩
    · rcases step_accepted hs (not_owesNext_of_forms hforms hi) hrun with ⟨d, hstep, hd, hreaches⟩
      rw [hd₀] at hd
      rcases ih (by omega) (read.push n) { s with cursor := d } hs hd
        with ⟨d', hparse, hd', hreaches'⟩
      refine ⟨d', ?_, hd', hreaches.trans hreaches'⟩
      rw [parseAfter_of_step hne hstep]
      change parseAfter (read.push n) { s with cursor := d } = _
      rw [hparse]
      simp
    · exact absurd (by omega) hdeep

/-- Declarations up to the end are all that is read. -/
theorem parseAfter_of_sequence {need : Nat} {ns : List Node}
    (h : Sequence (Forms .declaration) .eof 0 s.cursor.ahead [] need ns)
    (hneed : need ≤ Nesting.limit) (hs : s.andSeparates = false) (read : Array Node) :
    (s.parseAfter read).1 = .ok (.program 1 (read.toList ++ ns)) ∧
      (s.parseAfter read).2.reporter = s.reporter := by
  rcases parseAfter_of_accepted h hneed read s hs rfl with ⟨d, hparse, hd, -⟩
  rw [hparse, parseAfter_of_end hd]
  exact ⟨by simp, rfl⟩

/-- Where a declaration is nested too deeply, that is reported in this turn, and stays reported. -/
theorem exists_tooDeep (hs : s.andSeparates = false) (hno : ¬ s.OwesNext)
    (hne : s.cursor.ahead ≠ [])
    (hdeep : ((Grammar.declaration false Nesting.limit).run s.cursor).TooDeep)
    (read : Array Node) :
    ∃ e ∈ (s.parseAfter read).2.reporter.errors.toList, e.category = .nestingTooDeep := by
  rcases hdeep with ⟨failure, d₀, hrun, hcause⟩
  have he : failure.cause.syntaxError? d₀ = some (.nestingTooDeep d₀.peek) := by
    rw [hcause]
    rfl
  have hreported := errors_step_failed hs hno hrun he
  refine ⟨.nestingTooDeep d₀.peek, ?_, rfl⟩
  refine (errors_step_prefix_parseAfter hne read).mem ?_
  rw [hreported]
  simp

/-- The same of one of several declarations. -/
theorem parseAfter_tooDeep {stop : Kind} {i r : List Token} {need : Nat} {ns : List Node}
    (h : Sequence (Forms .declaration) stop 0 i r need ns) (hneed : ¬ need ≤ Nesting.limit) :
    ∀ (read : Array Node) (s : Session), s.andSeparates = false → s.cursor.ahead = i →
      ∃ e ∈ (s.parseAfter read).2.reporter.errors.toList, e.category = .nestingTooDeep := by
  induction h with
  | done _ => exact absurd (Nat.zero_le _) hneed
  | @next i j r a b n ns hforms _ ih =>
    intro read s hs hi
    have hno := not_owesNext_of_forms hforms hi
    have hne : s.cursor.ahead ≠ [] := by
      rw [hi]
      exact hforms.spans.ne_nil
    rcases hforms.readAs Nesting.limit s.cursor hi
      with ⟨ha, d₀, hd₀, hrun⟩ | ⟨-, failure, d₀, hrun, hcause⟩
    · rcases step_accepted hs hno hrun with ⟨d, hstep, hd, -⟩
      rw [hd₀] at hd
      rw [parseAfter_of_step hne hstep]
      exact ih (by omega) (read.push n) { s with cursor := d } hs hd
    · exact exists_tooDeep hs hno hne ⟨failure, d₀, hrun, hcause⟩ read

/-- A parse that comes to the end and reports no error reads a sequence of declarations. -/
theorem parseAfter_reads (hs : s.Between) (hpending : s.pendingEnds = 0) {tree : Node}
    (read : Array Node) (hresult : (s.parseAfter read).1 = .ok tree)
    (herrors : (s.parseAfter read).2.reporter.errors.toList.length ≤
      s.reporter.errors.toList.length) :
    ∃ need ns, Sequence (Forms .declaration) .eof 0 s.cursor.ahead [] need ns := by
  generalize hn : s.cursor.remaining = n
  induction n using Nat.strongRecOn generalizing read s with
  | ind n ih =>
    by_cases hend : s.cursor.ahead = []
    · rw [hend]
      exact ⟨0, [], .done rfl⟩
    · -- Nothing is owed, so the turn reads a declaration.
      have hno : ¬ s.OwesNext := fun howes => howes.1 hpending
      cases hrun : (Grammar.declaration false Nesting.limit).run s.cursor with
      | done m d₀ =>
        rcases step_accepted hs.andSeparates_eq hno hrun with ⟨d, hstep, hd, -⟩
        have hprogress := step_progress (s := s) (by simp [Cursor.atEnd, hend]) (by simp [hstep])
        rw [hstep, hn] at hprogress
        rw [parseAfter_of_step hend hstep] at hresult herrors
        have hbetween : Between { s with cursor := d } :=
          ⟨hs.failFast_eq, hs.andSeparates_eq, hs.openBlocks_eq⟩
        rcases ih _ hprogress hbetween hpending (read.push m) hresult herrors rfl
          with ⟨b, ns, hsequence⟩
        rcases Grammar.ofLevel_done Nesting.limit .declaration _ _ _ hrun with ⟨a, -, hforms⟩
        change Sequence _ _ _ d.ahead [] b ns at hsequence
        rw [hd] at hsequence
        exact ⟨_, m :: ns, .next hforms hsequence⟩
      | failed failure d₀ =>
        cases he : failure.cause.syntaxError? d₀ with
        | none =>
          have hstopped := step_givenUp hs.andSeparates_eq hno hrun he
          cases hstep : s.step with
          | mk turn s' =>
            rw [hstep] at hstopped
            dsimp only at hstopped
            subst hstopped
            rw [parseAfter_of_step hend hstep] at hresult
            cases hresult
        | some e =>
          have hreported := (errors_step_prefix_parseAfter hend read).length_le
          rw [errors_step_failed hs.andSeparates_eq hno hrun he, List.length_append] at hreported
          simp only [List.length_singleton] at hreported
          omega

end

/-- A session as it is when a parse of some tokens starts, behind the ends of line at the front. -/
structure StartsOn (tokens : List Token) (s : Session) : Prop where
  between : s.Between
  pendingEnds_eq : s.pendingEnds = 0
  reporter_eq : s.reporter = {}
  ahead_eq : s.cursor.ahead = dropBlank (tokens.takeWhile Cursor.isBeforeEnd)
  finish_eq : s.cursor.finish = (Cursor.ofTokens tokens).finish

variable {tokens : List Token}

theorem StartsOn.suffix (h : StartsOn tokens s) :
    s.cursor.ahead <:+ tokens.takeWhile Cursor.isBeforeEnd := by
  rw [h.ahead_eq]
  exact dropBlank_suffix _

theorem StartsOn.nextKind_ne (h : StartsOn tokens s) : nextKind s.cursor.ahead ≠ .eol := by
  rw [h.ahead_eq]
  exact nextKind_dropBlank_ne _

variable [Stack]

theorem parse_eq (tokens : List Token) :
    ∃ s, (ofTokens tokens false).parse = s.parseAfter #[] ∧ StartsOn tokens s := by
  rcases skipNewlines_eq (ofTokens tokens false) with ⟨d, heq, hd, hreaches⟩
  refine ⟨_, rfl, ?_⟩
  rw [heq]
  constructor
  · exact ⟨rfl, rfl, rfl⟩
  · rfl
  · rfl
  · rw [← Cursor.ahead_ofTokens]
    exact hd
  · exact hreaches.finish_eq

/-- A program is parsed without an error, or else it is nested too deeply. -/
theorem parse_of_formsProgram {need : Nat} {ns : List Node}
    (h : FormsProgram (tokens.takeWhile Cursor.isBeforeEnd) need ns) :
    (need ≤ Nesting.limit ∧ (ofTokens tokens false).parse.1 = .ok (.program 1 ns) ∧
        (ofTokens tokens false).parse.2.reporter.errors = #[]) ∨
      (¬ need ≤ Nesting.limit ∧
        ∃ e ∈ (ofTokens tokens false).parse.2.reporter.errors.toList,
          e.category = .nestingTooDeep) := by
  rcases parse_eq tokens with ⟨s, hparse, hs⟩
  rw [hparse]
  rw [FormsProgram, ← hs.ahead_eq] at h
  by_cases hfits : need ≤ Nesting.limit
  · left
    rcases parseAfter_of_sequence h hfits hs.between.andSeparates_eq #[] with ⟨hresult, hsame⟩
    refine ⟨hfits, by simpa using hresult, ?_⟩
    rw [hsame, hs.reporter_eq]
  · right
    exact ⟨hfits, parseAfter_tooDeep h hfits #[] s hs.between.andSeparates_eq rfl⟩

/-- A parse that comes to the end without an error has read a program. -/
theorem parse_reads_of_ok {tree : Node} (hresult : (ofTokens tokens false).parse.1 = .ok tree)
    (herrors : (ofTokens tokens false).parse.2.reporter.errors = #[]) :
    ∃ need ns, FormsProgram (tokens.takeWhile Cursor.isBeforeEnd) need ns := by
  rcases parse_eq tokens with ⟨s, hparse, hs⟩
  rw [hparse] at hresult herrors
  rcases parseAfter_reads hs.between hs.pendingEnds_eq #[] hresult (by simp [herrors])
    with ⟨need, ns, hsequence⟩
  rw [hs.ahead_eq] at hsequence
  exact ⟨need, ns, hsequence⟩

/-- Every statement that comes out of a parse was formed by tokens of the input, whether or not
there are errors. -/
theorem parse_forms (hnumbers : NumbersCarryValues (tokens.takeWhile Cursor.isBeforeEnd)) :
    ∃ ns, (ofTokens tokens false).parse.1 = .ok (.program 1 ns) ∧
      ∀ n ∈ ns, ∃ i r need, i <:+ tokens.takeWhile Cursor.isBeforeEnd ∧
        Forms .declaration i r need n := by
  rcases parse_eq tokens with ⟨s, hparse, hs⟩
  rw [hparse]
  have hall := parseAfter_induct
    (P := fun read s o => s.cursor.ahead <:+ tokens.takeWhile Cursor.isBeforeEnd →
      ∃ ns, o.1 = .ok (.program 1 (read.toList ++ ns)) ∧
        ∀ n ∈ ns, ∃ i r need, i <:+ tokens.takeWhile Cursor.isBeforeEnd ∧
          Forms .declaration i r need n)
    ?_ ?_ ?_ ?_ #[] s hs.between (hnumbers.of_suffix hs.suffix)
  · simpa using hall hs.suffix
  · intro read s log _ _
    exact ⟨[], by simp, by simp⟩
  · intro read s d o _ _ _ _ hreaches h hi
    exact h (hreaches.suffix.trans hi)
  · intro read s n d₀ d o _ _ _ hrun _ hreaches h hi
    rcases h (hreaches.suffix.trans hi) with ⟨ns, hresult, hns⟩
    rcases Grammar.ofLevel_done Nesting.limit .declaration _ _ _ hrun with ⟨need, -, hforms⟩
    refine ⟨n :: ns, ?_, ?_⟩
    · rw [hresult, Array.toList_push, List.append_assoc]
      rfl
    · intro m hm
      rcases List.mem_cons.mp hm with rfl | hm
      · exact ⟨_, _, need, hi, hforms⟩
      · exact hns m hm
  · intro read s failure d₀ e d log o _ _ _ _ _ _ _ hreaches h hi
    exact h (hreaches.suffix.trans hi)

/-- A parse without an error has read a program, where numbers carry their values. -/
theorem parse_reads (hnumbers : NumbersCarryValues (tokens.takeWhile Cursor.isBeforeEnd))
    (herrors : (ofTokens tokens false).parse.2.reporter.errors = #[]) :
    ∃ need ns, FormsProgram (tokens.takeWhile Cursor.isBeforeEnd) need ns := by
  rcases parse_forms hnumbers with ⟨ns, hresult, -⟩
  exact parse_reads_of_ok hresult herrors

end Session

end ScriptCheck
