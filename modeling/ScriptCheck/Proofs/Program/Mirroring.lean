import ScriptCheck.Proofs.Grammar.Mirroring
import ScriptCheck.Proofs.Program.Turns

/-!
# Parses that go alike

Two parses of tokens that are abreast take the same turns, whether they recover or fail fast. They
accept related trees, report the same errors but for the lines, resume where the same comes and owe
as many `end`s (`Session.Like.step`, `Session.Like.parse`).
-/

namespace ScriptCheck

open ScriptCheck.Rule

variable {L : Int → Int → Prop}

/-! ## Starting -/

namespace Cursor

theorem finish_ofTokens {tokens more : List Token} {t : Token} (h : ∀ u ∈ tokens, u.kind ≠ .eof)
    (ht : t.kind = .eof) : (ofTokens (tokens ++ t :: more)).finish = t := by
  have hdrop : (tokens ++ t :: more ++ closing (tokens ++ t :: more)).dropWhile isBeforeEnd =
      t :: (more ++ closing (tokens ++ t :: more)) := by
    have hbefore : ∀ u ∈ tokens, isBeforeEnd u = true := fun u hu => by
      simpa [isBeforeEnd] using h u hu
    rw [List.append_assoc, List.dropWhile_append_of_pos hbefore, List.cons_append,
      List.dropWhile_cons_of_neg (by simp [isBeforeEnd, ht])]
  unfold ofTokens
  split
  · next hnil =>
    rw [hdrop] at hnil
    cases hnil
  · next hcons =>
    rw [hdrop] at hcons
    cases hcons
    rfl

/-- Sequences of tokens that go alike up to the end of the input start at places that do. -/
theorem trails_ofTokens {ts ts' : List Token} {t t' : Token} (h : ScriptCheck.Trails L ts ts')
    (hno : ∀ u ∈ ts, u.kind ≠ .eof) (ht : t.Like L t') (hkind : t.kind = .eof) :
    (ofTokens (ts ++ [t])).Trails L (ofTokens (ts' ++ [t'])) := by
  have hno' := h.ne_eof hno
  have hkind' := ht.kind_eq.trans hkind
  have hend : ∀ u : Token, u.kind = .eof → [u].takeWhile isBeforeEnd = [] := by
    intro u hu
    simp [isBeforeEnd, hu]
  constructor
  · rw [ahead_ofTokens, ahead_ofTokens, takeWhile_isBeforeEnd_append hno,
      takeWhile_isBeforeEnd_append hno', hend t hkind, hend t' hkind', List.append_nil,
      List.append_nil]
    exact h
  · rw [finish_ofTokens hno hkind, finish_ofTokens hno' hkind']
    exact ht

end Cursor

/-! ## Resuming -/

theorem Cursor.resumeDistance_eol {t : Token} (h : t.kind = .eol) (rest : List Token) :
    resumeDistance (t :: rest) = 1 := by
  cases rest <;> simp [resumeDistance, h]

/-- Reading resumes after as many tokens, of the same kinds. There the second sequence may be one
end of line behind, since an end of line that is passed over is the last token that is. -/
theorem Abreast.resume {ts ts' : List Token} (h : Abreast L ts ts') :
    Cursor.resumeDistance ts' = Cursor.resumeDistance ts ∧
      Trails L (ts.drop (Cursor.resumeDistance ts)) (ts'.drop (Cursor.resumeDistance ts)) ∧
      (ts'.take (Cursor.resumeDistance ts)).map (·.kind) =
        (ts.take (Cursor.resumeDistance ts)).map (·.kind) := by
  induction ts generalizing ts' with
  | nil =>
    obtain rfl := h.eq_nil_iff.mpr rfl
    exact ⟨rfl, .abreast .nil, rfl⟩
  | cons t rest ih =>
    rcases h.exists_cons with ⟨t', rest', rfl, ht, htrails, habreast⟩
    have hone : (List.take 1 (t' :: rest')).map (·.kind) =
        (List.take 1 (t :: rest)).map (·.kind) := by
      simp [ht.kind_eq]
    by_cases heol : t.kind = .eol
    · -- The end of line is the last that is passed over, and another one may be left behind it.
      rw [Cursor.resumeDistance_eol heol, Cursor.resumeDistance_eol (ht.kind_eq.trans heol)]
      exact ⟨rfl, htrails, hone⟩
    · have hrest := habreast heol
      cases rest with
      | nil =>
        obtain rfl := hrest.eq_nil_iff.mpr rfl
        exact ⟨rfl, htrails, hone⟩
      | cons u rest =>
        rcases ih hrest with ⟨hdistance, hdrop, htake⟩
        rcases hrest.exists_cons with ⟨u', rest', rfl, hu, -, -⟩
        by_cases hstarts : u.kind.startsStatement = true
        · have hdistance : Cursor.resumeDistance (t :: u :: rest) = 1 := by
            simp [Cursor.resumeDistance, hstarts]
          have hdistance' : Cursor.resumeDistance (t' :: u' :: rest') = 1 := by
            simp [Cursor.resumeDistance, hu.kind_eq, hstarts]
          rw [hdistance, hdistance']
          exact ⟨rfl, htrails, hone⟩
        · have hgo : ∀ v w : Token, ∀ vs, v.kind ≠ .eol → ¬ w.kind.startsStatement = true →
              Cursor.resumeDistance (v :: w :: vs) = Cursor.resumeDistance (w :: vs) + 1 := by
            intro v w vs hv hw
            simp [Cursor.resumeDistance, hv, hw]
          rw [hgo t u rest heol hstarts,
            hgo t' u' rest' (by rwa [ht.kind_eq]) (by rwa [hu.kind_eq])]
          refine ⟨by rw [hdistance], hdrop, ?_⟩
          rw [List.take_succ_cons, List.take_succ_cons, List.map_cons, List.map_cons, htake,
            ht.kind_eq]

namespace Session

/-- Whether two sessions are the same but for lines, at places that `P` relates. In both of them
`and` is an operator. -/
structure Like (L : Int → Int → Prop) (P : Cursor → Cursor → Prop) (s s' : Session) : Prop where
  cursor : P s.cursor s'.cursor
  failFast_eq : s'.failFast = s.failFast
  andSeparates_eq : s.andSeparates = false ∧ s'.andSeparates = false
  openBlocks_eq : s'.openBlocks = s.openBlocks
  pendingEnds_eq : s'.pendingEnds = s.pendingEnds
  errors : List.Forall₂ (SyntaxError.Like L) s.reporter.errors.toList s'.reporter.errors.toList

variable {R : Node → Node → Prop} {α β : Type} {V : α → β → Prop} {P Q : Cursor → Cursor → Prop}
  {s s' : Session}

/-- Whether two sessions have read alike. -/
inductive ReadAlike (L : Int → Int → Prop) (V : α → β → Prop) (P : Cursor → Cursor → Prop) :
    Except Cause α × Session → Except Cause β × Session → Prop where
  | ok {a : α} {b : β} {s s' : Session} : V a b → s.Like L P s' →
      ReadAlike L V P (.ok a, s) (.ok b, s')
  | error {cause cause' : Cause} {s s' : Session} : cause.Like L cause' →
      s.Like L (Cursor.Abreast L) s' → ReadAlike L V P (.error cause, s) (.error cause', s')

/-- Rules that go alike are read with alike. -/
theorem Like.run {r : Rule α} {r' : Rule β} (h : s.Like L P s')
    (hr : (r.run s.cursor).Mirrors L V Q (r'.run s'.cursor)) :
    ReadAlike L V Q (s.run r) (s'.run r') := by
  unfold Session.run
  generalize r.run s.cursor = o at hr ⊢
  generalize r'.run s'.cursor = o' at hr ⊢
  cases hr with
  | done hvalue hplace =>
    exact .ok hvalue ⟨hplace, h.failFast_eq, h.andSeparates_eq, h.openBlocks_eq, h.pendingEnds_eq,
      h.errors⟩
  | failed hcause hunclosed hplace =>
    exact .error hcause ⟨hplace, h.failFast_eq, h.andSeparates_eq,
      by simp [h.openBlocks_eq, hunclosed], h.pendingEnds_eq, h.errors⟩

theorem Like.skipNewlines (h : s.Like L (Cursor.Trails L) s') :
    s.skipNewlines.Like L (Cursor.Abreast L) s'.skipNewlines := by
  have hread := h.run (Grammar.mirrors_skipNewlines h.cursor)
  unfold Session.skipNewlines
  generalize s.run Grammar.skipNewlines = p at hread ⊢
  generalize s'.run Grammar.skipNewlines = p' at hread ⊢
  cases hread with
  | ok _ hlike => exact hlike
  | error _ hlike => exact hlike

/-! ## Errors -/

theorem like_syntaxError? {cause cause' : Cause} {d d' : Cursor} (h : cause.Like L cause')
    (hd : d.Abreast L d') :
    Option.Rel (SyntaxError.Like L) (cause.syntaxError? d) (cause'.syntaxError? d') := by
  cases h with
  | invalid he => exact .some he
  | numeral fault => exact .none
  | tooDeep => exact .some (SyntaxError.like_atToken hd.peek _ _ _ _ _)

theorem Like.report (h : s.Like L P s') {e e' : SyntaxError} (he : e.Like L e') :
    (s.report e).Like L P (s'.report e') where
  cursor := h.cursor
  failFast_eq := h.failFast_eq
  andSeparates_eq := h.andSeparates_eq
  openBlocks_eq := h.openBlocks_eq
  pendingEnds_eq := h.pendingEnds_eq
  errors := by
    change List.Forall₂ _ (s.reporter.report e).errors.toList (s'.reporter.report e').errors.toList
    rw [Reporter.errors_report, Reporter.errors_report]
    exact List.rel_append h.errors (.cons he .nil)

theorem countKind_eq_of_map {ts ts' : List Token} (h : ts'.map (·.kind) = ts.map (·.kind))
    (kind : Kind) : countKind kind ts' = countKind kind ts := by
  have hcount : ∀ us : List Token, countKind kind us = (us.map (·.kind)).countP (· == kind) := by
    intro us
    rw [countKind, List.countP_map]
    rfl
  rw [hcount, hcount, h]

theorem Like.resume (h : s.Like L (Cursor.Abreast L) s') :
    s.resume.Like L (Cursor.Trails L) s'.resume := by
  rcases h.cursor.ahead.resume with ⟨hdistance, hdrop, htake⟩
  have hdo := countKind_eq_of_map htake (.keyword .do_)
  have hend := countKind_eq_of_map htake (.keyword .end_)
  refine ⟨⟨?_, h.cursor.finish⟩, h.failFast_eq, h.andSeparates_eq, rfl, ?_, h.errors⟩
  · change Trails L (s.cursor.ahead.drop _) (s'.cursor.ahead.drop _)
    rw [hdistance]
    exact hdrop
  · unfold Session.resume
    simp only [hdistance, hdo, hend, h.pendingEnds_eq, h.openBlocks_eq]

/-! ## Turns -/

/-- Whether two sessions have taken the same turn. -/
inductive TurnAlike (L : Int → Int → Prop) (R : Node → Node → Prop) :
    Turn × Session → Turn × Session → Prop where
  | accepted {n n' : Node} {s s' : Session} : R n n' → s.Like L (Cursor.Abreast L) s' →
      TurnAlike L R (.accepted n, s) (.accepted n', s')
  | settled {s s' : Session} : s.Like L (Cursor.Abreast L) s' →
      TurnAlike L R (.settled, s) (.settled, s')
  | recovered {s s' : Session} : s.Like L (Cursor.Abreast L) s' →
      TurnAlike L R (.recovered, s) (.recovered, s')
  | stopped {cause cause' : Cause} {s s' : Session} : cause.Like L cause' →
      s.Like L (Cursor.Abreast L) s' → TurnAlike L R (.stopped cause, s) (.stopped cause', s')

section

variable [Stack]

/-- Sessions that are alike take the same turn. -/
theorem Like.step (hR : Node.Congruence L R) (h : s.Like L (Cursor.Abreast L) s') :
    TurnAlike L R s.step s'.step := by
  rw [step_eq_run, step_eq_run, h.pendingEnds_eq, h.cursor.kind_peek]
  split
  · next howes =>
    have hadvance := h.cursor.advance (by rw [howes.2]; decide)
    exact .settled (Like.skipNewlines ⟨hadvance.trails, h.failFast_eq, h.andSeparates_eq,
      h.openBlocks_eq, rfl, h.errors⟩)
  · have hread : ReadAlike L R (Cursor.Trails L) (s.run (Grammar.declaration false Nesting.limit))
        (s'.run (Grammar.declaration false Nesting.limit)) :=
      h.run (Grammar.mirrors_ofLevel hR Nesting.limit .declaration _ _ h.cursor)
    rw [h.andSeparates_eq.1, h.andSeparates_eq.2]
    generalize s.run (Grammar.declaration false Nesting.limit) = p at hread ⊢
    generalize s'.run (Grammar.declaration false Nesting.limit) = p' at hread ⊢
    cases hread with
    | ok hn hlike => exact .accepted hn hlike.skipNewlines
    | @error cause cause' t t' hcause hlike =>
      dsimp only
      have herror := like_syntaxError? hcause hlike.cursor
      generalize cause.syntaxError? t.cursor = o at herror ⊢
      generalize cause'.syntaxError? t'.cursor = o' at herror ⊢
      cases herror with
      | none => exact .stopped hcause hlike
      | some he =>
        have hreport := hlike.report he
        dsimp only
        cases hfast : t.failFast with
        | true =>
          rw [recover_of_failFast hfast, recover_of_failFast (hlike.failFast_eq.trans hfast)]
          exact .stopped (.invalid he) hreport
        | false =>
          rw [recover_eq hfast, recover_eq (hlike.failFast_eq.trans hfast)]
          exact .recovered hreport.resume.skipNewlines

/-! ## Whole parses -/

/-- What comes of two parses that go alike. -/
theorem Like.parseAfter (hR : Node.Congruence L R) (h : s.Like L (Cursor.Abreast L) s')
    {read read' : Array Node} (hread : List.Forall₂ R read.toList read'.toList) :
    ReadAlike L (fun n n' => ∃ ns ns', n = .program 1 ns ∧ n' = .program 1 ns' ∧
      List.Forall₂ R ns ns') (Cursor.Abreast L) (s.parseAfter read) (s'.parseAfter read') := by
  -- The turns of the second parse follow those of the first, in which less remains each time.
  generalize hn : s.cursor.remaining = n
  induction n using Nat.strongRecOn generalizing s s' read read' with
  | ind n ih =>
    by_cases hend : s.cursor.ahead = []
    · rw [parseAfter_of_end hend, parseAfter_of_end (h.cursor.ahead.eq_nil_iff.mpr hend)]
      exact .ok ⟨_, _, rfl, rfl, hread⟩ ⟨h.cursor, h.failFast_eq, h.andSeparates_eq,
        h.openBlocks_eq, h.pendingEnds_eq, h.errors⟩
    · have hend' : s'.cursor.ahead ≠ [] := fun hnil => hend (h.cursor.ahead.eq_nil_iff.mp hnil)
      have hturn := h.step hR
      have hprogress := step_progress (s := s) (by simp [Cursor.atEnd, hend])
      generalize hstep : s.step = p at hturn hprogress
      generalize hstep' : s'.step = p' at hturn
      cases hturn with
      | accepted hn' hlike =>
        rw [parseAfter_of_step hend hstep, parseAfter_of_step hend' hstep']
        refine ih _ (hn ▸ hprogress (by simp)) hlike ?_ rfl
        rw [Array.toList_push, Array.toList_push]
        exact List.rel_append hread (.cons hn' .nil)
      | settled hlike =>
        rw [parseAfter_of_step hend hstep, parseAfter_of_step hend' hstep']
        exact ih _ (hn ▸ hprogress (by simp)) hlike hread rfl
      | recovered hlike =>
        rw [parseAfter_of_step hend hstep, parseAfter_of_step hend' hstep']
        exact ih _ (hn ▸ hprogress (by simp)) hlike hread rfl
      | stopped hcause hlike =>
        rw [parseAfter_of_step hend hstep, parseAfter_of_step hend' hstep']
        exact .error hcause hlike

/-- A parse passes over ends of line first. -/
theorem Like.parse (hR : Node.Congruence L R) (h : s.Like L (Cursor.Trails L) s') :
    ReadAlike L (fun n n' => ∃ ns ns', n = .program 1 ns ∧ n' = .program 1 ns' ∧
      List.Forall₂ R ns ns') (Cursor.Abreast L) s.parse s'.parse :=
  h.skipNewlines.parseAfter hR .nil

end

/-- Sessions at the start of sequences of tokens that are the same but for an end of line that the
second one may have in front are alike. -/
theorem like_ofTokens {tokens tokens' : List Token}
    (h : (Cursor.ofTokens tokens).Trails L (Cursor.ofTokens tokens')) (failFast : Bool) :
    (ofTokens tokens failFast).Like L (Cursor.Trails L) (ofTokens tokens' failFast) :=
  ⟨h, rfl, ⟨rfl, rfl⟩, rfl, rfl, .nil⟩

end Session

end ScriptCheck
