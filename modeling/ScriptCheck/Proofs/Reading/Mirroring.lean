import ScriptCheck.Proofs.Reading.Repetition
import ScriptCheck.Proofs.Syntax.Congruence

/-!
# Rules that run alike

Two sequences of tokens are abreast if they are the same but for the lines, and in the second one an
end of line may come twice. A rule that is run on both goes the same way: this is said by
`Outcome.Mirrors`, for which there is one lemma for each way to build a rule. Where a rule has taken
an end of line, the second run may have another one in front (`Cursor.Trails`), and it catches up
with the first where ends of line are passed over.
-/

namespace ScriptCheck

open ScriptCheck.Rule

variable {L : Int → Int → Prop}

/-! ## Tokens -/

/-- Whether a token is another one but for its place. A number carries its value, and no value
differs from itself. -/
structure Token.Like (L : Int → Int → Prop) (t t' : Token) : Prop where
  kind_eq : t'.kind = t.kind
  text_eq : t'.text = t.text
  literal_eq : t'.literal = t.literal
  line : L t.line t'.line
  carries : t.kind = .number → t.literal ≠ none
  agrees_self : ∀ v, t.literal = some v → v.agrees v = true

theorem Token.Like.numberValue_eq {t t' : Token} (h : t.Like L t') :
    t'.numberValue = t.numberValue := by
  rw [numberValue, numberValue, h.literal_eq, h.text_eq]

/-- The value that a number denotes is the one that it carries. -/
theorem Token.Like.numberValue_agrees {t t' : Token} (h : t.Like L t') (hkind : t.kind = .number)
    {v : Literal} (hv : t.numberValue = .ok v) : v.agrees v = true := by
  rcases Option.ne_none_iff_exists'.mp (h.carries hkind) with ⟨v', hv'⟩
  rw [numberValue, hv'] at hv
  cases hv
  exact h.agrees_self v hv'

/-- Whether the tokens are the same one by one, but for their places and for ends of line that come
once more in the second sequence. -/
inductive Abreast (L : Int → Int → Prop) : List Token → List Token → Prop where
  | nil : Abreast L [] []
  | cons {t t' : Token} {ts ts' : List Token} :
      t.Like L t' → Abreast L ts ts' → Abreast L (t :: ts) (t' :: ts')
  | again {t t' e : Token} {ts ts' : List Token} :
      t.Like L t' → t.kind = .eol → e.kind = .eol → Abreast L ts ts' →
      Abreast L (t :: ts) (t' :: e :: ts')

/-- Whether the second sequence may have one more end of line in front. -/
inductive Trails (L : Int → Int → Prop) : List Token → List Token → Prop where
  | abreast {ts ts' : List Token} : Abreast L ts ts' → Trails L ts ts'
  | behind {e : Token} {ts ts' : List Token} : e.kind = .eol → Abreast L ts ts' →
      Trails L ts (e :: ts')

namespace Abreast

variable {t : Token} {ts ts' : List Token}

theorem nextKind_eq (h : Abreast L ts ts') : nextKind ts' = nextKind ts := by
  cases h with
  | nil => rfl
  | cons ht _ => exact ht.kind_eq
  | again ht _ _ _ => exact ht.kind_eq

theorem eq_nil_iff (h : Abreast L ts ts') : ts' = [] ↔ ts = [] := by
  cases h <;> simp

/-- Behind the first token, the second sequence may be one end of line behind. -/
theorem exists_cons (h : Abreast L (t :: ts) ts') :
    ∃ t' us, ts' = t' :: us ∧ t.Like L t' ∧ Trails L ts us ∧
      (t.kind ≠ .eol → Abreast L ts us) := by
  cases h with
  | cons ht hts => exact ⟨_, _, rfl, ht, .abreast hts, fun _ => hts⟩
  | again ht hkind he hts => exact ⟨_, _, rfl, ht, .behind he hts, fun hno => absurd hkind hno⟩

/-- Where ends of line are left out, there is no difference. -/
theorem dropBlank (h : Abreast L ts ts') :
    Abreast L (ScriptCheck.dropBlank ts) (ScriptCheck.dropBlank ts') := by
  induction h with
  | nil => exact .nil
  | @cons t t' ts ts' ht hts ih =>
    by_cases hkind : t.kind = .eol
    · rwa [dropBlank_cons_eol hkind, dropBlank_cons_eol (ht.kind_eq.trans hkind)]
    · rw [dropBlank_cons_of_ne hkind, dropBlank_cons_of_ne (by rwa [ht.kind_eq])]
      exact .cons ht hts
  | again ht hkind he _ ih =>
    rwa [dropBlank_cons_eol hkind, dropBlank_cons_eol (ht.kind_eq.trans hkind),
      dropBlank_cons_eol he]

/-- What the second sequence has more of is no end of the input. -/
theorem ne_eof (h : Abreast L ts ts') (hno : ∀ u ∈ ts, u.kind ≠ .eof) :
    ∀ u ∈ ts', u.kind ≠ .eof := by
  induction h with
  | nil => exact hno
  | cons ht _ ih =>
    rcases List.forall_mem_cons.mp hno with ⟨hkind, hrest⟩
    exact List.forall_mem_cons.mpr ⟨by rwa [ht.kind_eq], ih hrest⟩
  | again ht hkind he _ ih =>
    rcases List.forall_mem_cons.mp hno with ⟨hkind, hrest⟩
    exact List.forall_mem_cons.mpr
      ⟨by rwa [ht.kind_eq], List.forall_mem_cons.mpr ⟨by simp [he], ih hrest⟩⟩

end Abreast

theorem Trails.ne_eof {ts ts' : List Token} (h : Trails L ts ts') (hno : ∀ u ∈ ts, u.kind ≠ .eof) :
    ∀ u ∈ ts', u.kind ≠ .eof := by
  cases h with
  | abreast hts => exact hts.ne_eof hno
  | behind he hts => exact List.forall_mem_cons.mpr ⟨by simp [he], hts.ne_eof hno⟩

/-- Passing over ends of line, the second sequence catches up. -/
theorem Trails.dropBlank {ts ts' : List Token} (h : Trails L ts ts') :
    Abreast L (ScriptCheck.dropBlank ts) (ScriptCheck.dropBlank ts') := by
  cases h with
  | abreast hts => exact hts.dropBlank
  | behind he hts =>
    rw [dropBlank_cons_eol he]
    exact hts.dropBlank

/-! ## Places -/

namespace Cursor

/-- Whether the same comes at two places. -/
structure Abreast (L : Int → Int → Prop) (c c' : Cursor) : Prop where
  ahead : ScriptCheck.Abreast L c.ahead c'.ahead
  finish : c.finish.Like L c'.finish

/-- Whether the same comes at two places but for an end of line that the second one may have in
front. -/
structure Trails (L : Int → Int → Prop) (c c' : Cursor) : Prop where
  ahead : ScriptCheck.Trails L c.ahead c'.ahead
  finish : c.finish.Like L c'.finish

namespace Abreast

variable {c c' : Cursor}

theorem trails (h : c.Abreast L c') : c.Trails L c' :=
  ⟨.abreast h.ahead, h.finish⟩

theorem peek (h : c.Abreast L c') : c.peek.Like L c'.peek := by
  cases hc : c.ahead with
  | nil =>
    have hc' : c'.ahead = [] := h.ahead.eq_nil_iff.mpr hc
    simp only [Cursor.peek, hc, hc', List.headD_nil]
    exact h.finish
  | cons t ts =>
    have hahead := h.ahead
    rw [hc] at hahead
    rcases hahead.exists_cons with ⟨t', us, hc', ht, -, -⟩
    rwa [peek_of_ahead hc, peek_of_ahead hc']

theorem kind_peek (h : c.Abreast L c') : c'.peek.kind = c.peek.kind :=
  h.peek.kind_eq

/-- Behind the next token the second place may be one end of line behind. -/
theorem advance_trails (h : c.Abreast L c') : c.advance.Trails L c'.advance := by
  refine ⟨?_, h.finish⟩
  cases hc : c.ahead with
  | nil =>
    have hc' : c'.ahead = [] := h.ahead.eq_nil_iff.mpr hc
    simp only [Cursor.advance, skip, hc, hc', List.drop_nil]
    exact .abreast .nil
  | cons t ts =>
    have hahead := h.ahead
    rw [hc] at hahead
    rcases hahead.exists_cons with ⟨t', us, hc', -, hus, -⟩
    rwa [ahead_advance hc, ahead_advance hc']

/-- It is not, unless that token is an end of line. -/
theorem advance (h : c.Abreast L c') (hkind : c.peek.kind ≠ .eol) :
    c.advance.Abreast L c'.advance := by
  refine ⟨?_, h.finish⟩
  cases hc : c.ahead with
  | nil =>
    have hc' : c'.ahead = [] := h.ahead.eq_nil_iff.mpr hc
    simp only [Cursor.advance, skip, hc, hc', List.drop_nil]
    exact .nil
  | cons t ts =>
    have hahead := h.ahead
    rw [hc] at hahead
    rcases hahead.exists_cons with ⟨t', us, hc', -, -, hus⟩
    rw [peek_of_ahead hc] at hkind
    rw [ahead_advance hc, ahead_advance hc']
    exact hus hkind

end Abreast

end Cursor

/-! ## Outcomes -/

/-- Whether an error is another one but for its lines: in the diagnostic, in the token that it
blames, and in the hint. -/
structure SyntaxError.Like (L : Int → Int → Prop) (e e' : SyntaxError) : Prop where
  category_eq : e'.category = e.category
  message_eq : e'.message = e.message
  expected_eq : e'.expected = e.expected
  token : Option.Rel (Token.Like L) e.token e'.token
  line : L e.line e'.line

theorem SyntaxError.Like.found_eq {e e' : SyntaxError} (h : e.Like L e') : e'.found = e.found := by
  have htoken := h.token
  unfold found
  revert htoken
  generalize e.token = o
  generalize e'.token = o'
  rintro (ht | -)
  · simp [ht.text_eq]
  · rfl

theorem SyntaxError.like_atToken {t t' : Token} (h : t.Like L t') (category : Category)
    (message : String) (expected : Option Kind) (note note' : Option String) :
    (SyntaxError.atToken category message t expected note).Like L
      (.atToken category message t' expected note') where
  category_eq := rfl
  message_eq := rfl
  expected_eq := rfl
  token := .some h
  line := h.line

/-- Whether one cause is another but for its lines. -/
inductive Cause.Like (L : Int → Int → Prop) : Cause → Cause → Prop where
  | invalid {e e' : SyntaxError} : e.Like L e' → Cause.Like L (.invalid e) (.invalid e')
  | numeral (fault : Numeral.Fault) : Cause.Like L (.numeral fault) (.numeral fault)
  | tooDeep : Cause.Like L .tooDeep .tooDeep

/-- Whether two runs end alike: with values that `V` relates at places that `P` relates, or with the
same failure where the same comes. -/
inductive Outcome.Mirrors {α β : Type} (L : Int → Int → Prop) (V : α → β → Prop)
    (P : Cursor → Cursor → Prop) : Outcome α → Outcome β → Prop where
  | done {a : α} {b : β} {d d' : Cursor} : V a b → P d d' → Mirrors L V P (.done a d) (.done b d')
  | failed {failure failure' : Failure} {d d' : Cursor} :
      failure.cause.Like L failure'.cause → failure'.unclosed = failure.unclosed →
      d.Abreast L d' → Mirrors L V P (.failed failure d) (.failed failure' d')

/-- Places where the same comes may be said to be one end of line apart. -/
theorem Outcome.Mirrors.trails {α β : Type} {V : α → β → Prop} {o : Outcome α} {o' : Outcome β}
    (h : o.Mirrors L V (Cursor.Abreast L) o') : o.Mirrors L V (Cursor.Trails L) o' := by
  cases h with
  | done hvalue hplace => exact .done hvalue hplace.trails
  | failed hcause hunclosed hplace => exact .failed hcause hunclosed hplace

/-- Whether one rule goes as another one wherever the same comes. -/
def Rule.Mirrors {α β : Type} (L : Int → Int → Prop) (V : α → β → Prop)
    (P : Cursor → Cursor → Prop) (r : Rule α) (r' : Rule β) : Prop :=
  ∀ c c', c.Abreast L c' → (r.run c).Mirrors L V P (r'.run c')

/-! ## The ways to build rules -/

namespace Rule

variable {α β γ δ : Type} {V : α → β → Prop} {W : γ → δ → Prop} {P Q : Cursor → Cursor → Prop}
  {c c' : Cursor}

theorem mirrors_pure {a : α} {b : β} (hvalue : V a b) (hplace : P c c') :
    ((pure a : Rule α).run c).Mirrors L V P ((pure b : Rule β).run c') :=
  .done hvalue hplace

theorem mirrors_bind {r : Rule α} {r' : Rule β} {next : α → Rule γ} {next' : β → Rule δ}
    (h : (r.run c).Mirrors L V P (r'.run c'))
    (hnext : ∀ a b d d', V a b → P d d' → ((next a).run d).Mirrors L W Q ((next' b).run d')) :
    ((r >>= next).run c).Mirrors L W Q ((r' >>= next').run c') := by
  rw [run_bind, run_bind]
  generalize r.run c = o at h ⊢
  generalize r'.run c' = o' at h ⊢
  cases h with
  | done hvalue hplace => exact hnext _ _ _ _ hvalue hplace
  | failed hcause hunclosed hplace => exact .failed hcause hunclosed hplace

theorem mirrors_fail {cause cause' : Token → Cause} (h : c.Abreast L c')
    (hcause : (cause c.peek).Like L (cause' c'.peek)) :
    ((fail cause : Rule α).run c).Mirrors L V P ((fail cause' : Rule β).run c') :=
  .failed hcause rfl h

theorem mirrors_atToken (h : c.Abreast L c') (category : Category) (message : String)
    (expected : Option Kind) (note note' : Token → Option String) :
    ((invalid fun t => .atToken category message t expected (note t) : Rule α).run c).Mirrors L V P
      ((invalid fun t => .atToken category message t expected (note' t) : Rule β).run c') :=
  mirrors_fail h (.invalid (SyntaxError.like_atToken h.peek category message expected _ _))

theorem mirrors_unexpected (h : c.Abreast L c') (message : String) (expected : Option Kind) :
    ((unexpected message expected : Rule α).run c).Mirrors L V P
      ((unexpected message expected : Rule β).run c') :=
  mirrors_atToken h _ _ _ _ _

theorem mirrors_advance (h : c.Abreast L c') (hkind : c.peek.kind ≠ .eol) :
    (advance.run c).Mirrors L (Token.Like L) (Cursor.Abreast L) (advance.run c') :=
  .done h.peek (h.advance hkind)

theorem mirrors_accept (h : c.Abreast L c') {wanted : Kind → Bool} (heol : wanted .eol = false) :
    ((accept wanted).run c).Mirrors L (Option.Rel (Token.Like L)) (Cursor.Abreast L)
      ((accept wanted).run c') := by
  simp only [accept, h.kind_peek]
  split
  · next hwanted =>
    refine .done (.some h.peek) (h.advance ?_)
    intro hkind
    rw [hkind, heol] at hwanted
    cases hwanted
  · exact .done .none h

theorem mirrors_expect (h : c.Abreast L c') {kind : Kind} (heol : kind ≠ .eol) (message : String) :
    ((expect kind message).run c).Mirrors L (Token.Like L) (Cursor.Abreast L)
      ((expect kind message).run c') := by
  simp only [expect, h.kind_peek]
  split
  · next hkind => exact .done h.peek (h.advance (by rwa [hkind]))
  · exact .failed (.invalid (SyntaxError.like_atToken h.peek _ _ _ _ _)) rfl h

theorem mirrors_insideBlock {r : Rule α} {r' : Rule β}
    (h : (r.run c).Mirrors L V P (r'.run c')) :
    ((insideBlock r).run c).Mirrors L V P ((insideBlock r').run c') := by
  simp only [insideBlock]
  generalize r.run c = o at h ⊢
  generalize r'.run c' = o' at h ⊢
  cases h with
  | done hvalue hplace => exact .done hvalue hplace
  | failed hcause hunclosed hplace => exact .failed hcause (by simp [hunclosed]) hplace

theorem mirrors_unlessNext {r : Rule α} {r' : Rule β} (h : c.Abreast L c') (stop : Kind)
    (hr : r.Mirrors L V (Cursor.Abreast L) r') :
    ((unlessNext stop r).run c).Mirrors L (Option.Rel V) (Cursor.Abreast L)
      ((unlessNext stop r').run c') := by
  rw [unlessNext, unlessNext, run_peek_bind, run_peek_bind, h.kind_peek]
  split
  · exact mirrors_pure .none h
  · exact mirrors_bind (hr c c' h) fun a b d d' hvalue hplace => mirrors_pure (.some hvalue) hplace

theorem mirrors_deeper {budget : Nat} {inner : (rest : Nat) → rest < budget → Rule α}
    {inner' : (rest : Nat) → rest < budget → Rule β} (h : c.Abreast L c') (way : Nesting)
    (hinner : ∀ rest hlt, (inner rest hlt).Mirrors L V P (inner' rest hlt)) :
    ((deeper way budget inner).run c).Mirrors L V P ((deeper way budget inner').run c') := by
  unfold deeper
  split
  · exact hinner _ _ c c' h
  · exact mirrors_fail h .tooDeep

theorem mirrors_whileNext {wanted : Kind → Bool} {step : Token → α → Rule α}
    {step' : Token → β → Rule β} (heol : wanted .eol = false) (heof : wanted .eof = false)
    (hstep : ∀ t t' a b, t.Like L t' → V a b →
      (step t a).Mirrors L V (Cursor.Abreast L) (step' t' b)) {a : α} {b : β} (hvalue : V a b)
    (h : c.Abreast L c') :
    ((whileNext wanted step a).run c).Mirrors L V (Cursor.Abreast L)
      ((whileNext wanted step' b).run c') := by
  change (whileNextFrom wanted step a c).Mirrors L V _ (whileNextFrom wanted step' b c')
  generalize hn : c.remaining = n
  induction n using Nat.strongRecOn generalizing a b c c' with
  | ind n ih =>
    have hnext := h.ahead.nextKind_eq
    by_cases hwanted : wanted (nextKind c.ahead) = true
    · -- Both loops take a turn, and the places are abreast behind it.
      have hne : nextKind c.ahead ≠ .eof := by
        intro hkind
        rw [hkind, heof] at hwanted
        cases hwanted
      rcases exists_cons_of_nextKind rfl hne with ⟨t, l, hl, ht⟩
      rcases exists_cons_of_nextKind hnext hne with ⟨t', l', hl', ht'⟩
      have htoken := h.peek
      rw [Cursor.peek_of_ahead hl, Cursor.peek_of_ahead hl'] at htoken
      have hadvance : c.advance.Abreast L c'.advance := by
        refine h.advance fun hkind => ?_
        rw [Cursor.kind_peek] at hkind
        rw [hkind, heol] at hwanted
        cases hwanted
      rw [whileNextFrom_go hl (by rwa [ht]), whileNextFrom_go hl' (by rwa [ht'])]
      have hturn := hstep t t' a b htoken hvalue _ _ hadvance
      generalize ho : (step t a).run c.advance = o at hturn
      generalize (step' t' b).run c'.advance = o' at hturn
      cases hturn with
      | done hvalue' hplace =>
        have hle := remaining_le_of_run ho rfl
        have hlt := Cursor.remaining_advance_lt (Cursor.atEnd_of_ahead hl)
        exact ih _ (hn ▸ Nat.lt_of_le_of_lt hle hlt) hvalue' hplace rfl
      | failed hcause hunclosed hplace => exact .failed hcause hunclosed hplace
    · have hno : wanted (nextKind c.ahead) = false := by simpa using hwanted
      rw [whileNextFrom_stop hno, whileNextFrom_stop (by rwa [hnext])]
      exact .done hvalue h

theorem mirrors_untilNext {stop : Kind → Bool} {item : Rule α} {item' : Rule β}
    (htakes : item.Takes) (htakes' : item'.Takes)
    (hitem : item.Mirrors L V (Cursor.Abreast L) item') (h : c.Abreast L c') :
    ((untilNext stop item).run c).Mirrors L (List.Forall₂ V) (Cursor.Abreast L)
      ((untilNext stop item').run c') := by
  change (untilNextFrom stop item #[] c).Mirrors L _ _ (untilNextFrom stop item' #[] c')
  have hread : List.Forall₂ V (#[] : Array α).toList (#[] : Array β).toList := .nil
  generalize (#[] : Array α) = read at hread ⊢
  generalize (#[] : Array β) = read' at hread ⊢
  generalize hn : c.remaining = n
  induction n using Nat.strongRecOn generalizing read read' c c' with
  | ind n ih =>
    have hnext := h.ahead.nextKind_eq
    by_cases hend : c.ahead = [] ∨ stop (nextKind c.ahead) = true
    · have hend' : c'.ahead = [] ∨ stop (nextKind c'.ahead) = true := by
        rwa [h.ahead.eq_nil_iff, hnext]
      rw [untilNextFrom_stop hend, untilNextFrom_stop hend']
      exact .done hread h
    · -- Both loops read an item, which takes a token in each.
      rw [not_or] at hend
      have hne' : c'.ahead ≠ [] := fun hnil => hend.1 (h.ahead.eq_nil_iff.mp hnil)
      have hstop : stop (nextKind c.ahead) = false := by simpa using hend.2
      have hstop' : stop (nextKind c'.ahead) = false := by rwa [hnext]
      have hturn := hitem c c' h
      generalize ho : item.run c = o at hturn
      generalize ho' : item'.run c' = o' at hturn
      cases hturn with
      | done hvalue hplace =>
        have hlt := htakes c _ _ ho
        rw [untilNextFrom_go hend.1 hstop ho hlt,
          untilNextFrom_go hne' hstop' ho' (htakes' c' _ _ ho')]
        refine ih _ (hn ▸ hlt) hplace _ _ ?_ rfl
        rw [Array.toList_push, Array.toList_push]
        exact List.rel_append hread (.cons hvalue .nil)
      | failed hcause hunclosed hplace =>
        rw [untilNextFrom_failed hend.1 hstop ho, untilNextFrom_failed hne' hstop' ho']
        exact .failed hcause hunclosed hplace

theorem mirrors_addItem {item : Rule α} {item' : Rule β}
    (hitem : item.Mirrors L V (Cursor.Abreast L) item') {read : Array α} {read' : Array β}
    (hread : List.Forall₂ V read.toList read'.toList) :
    (addItem item read).Mirrors L (fun as bs => List.Forall₂ V as.toList bs.toList)
      (Cursor.Abreast L) (addItem item' read') := by
  intro c c' h
  refine mirrors_bind (hitem c c' h) fun a b d d' hvalue hplace => mirrors_pure ?_ hplace
  rw [Array.toList_push, Array.toList_push]
  exact List.rel_append hread (.cons hvalue .nil)

theorem mirrors_commaSeparated {item : Rule α} {item' : Rule β}
    (hitem : item.Mirrors L V (Cursor.Abreast L) item') :
    (commaSeparated item).Mirrors L (List.Forall₂ V) (Cursor.Abreast L) (commaSeparated item') := by
  intro c c' h
  rw [commaSeparated_eq, commaSeparated_eq]
  refine mirrors_bind (mirrors_addItem hitem .nil c c' h) fun as bs d d' hread hplace => ?_
  refine mirrors_bind (V := fun as bs => List.Forall₂ V as.toList bs.toList)
    (mirrors_whileNext (by decide) (by decide) ?_ hread hplace) ?_
  · exact fun _ _ as bs _ hread => mirrors_addItem hitem hread
  · exact fun as bs d d' hread hplace => mirrors_pure hread hplace

end Rule

end ScriptCheck
