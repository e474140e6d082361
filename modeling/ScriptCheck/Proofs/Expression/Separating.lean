import ScriptCheck.Proofs.Expression.Words
import ScriptCheck.Proofs.Program.Lines

/-!
# Where `and` separates

While `and` separates clauses, an expression is read as it otherwise would be if the first `and`
outside all parentheses were an end of line. Two runs are compared, one with separating `and`s and
one without on tokens that are severed there. The places of the two runs stay at the same depth in
parentheses (`Cut`): outside of them the first run is in front of the `and` exactly where the second
is in front of the end of line, and inside both read `and` as an operator.
-/

namespace ScriptCheck

open ScriptCheck.Rule

/-! ## Tokens that are severed -/

/-- Whether the tokens of the second list are those of the first with an end of line for the first
`and` outside all parentheses, where `depth` parentheses are open in front. A parenthesis that
closes none of them ends the search. -/
inductive Cut : (depth : Nat) → List Token → List Token → Prop where
  | nil {depth : Nat} : Cut depth [] []
  | bare {t e : Token} {r : List Token} :
      t.kind = .keyword .and_ → e.kind = .eol → e.line = t.line → Cut 0 (t :: r) (e :: r)
  | unmatched {t : Token} {r : List Token} : t.kind = .operator .rparen → Cut 0 (t :: r) (t :: r)
  | opening {depth : Nat} {t : Token} {r r' : List Token} :
      t.kind = .operator .lparen → Cut (depth + 1) r r' → Cut depth (t :: r) (t :: r')
  | closing {depth : Nat} {t : Token} {r r' : List Token} :
      t.kind = .operator .rparen → Cut depth r r' → Cut (depth + 1) (t :: r) (t :: r')
  | inner {depth : Nat} {t : Token} {r r' : List Token} :
      t.kind ≠ .operator .lparen → t.kind ≠ .operator .rparen →
      (t.kind = .keyword .and_ → depth ≠ 0) → Cut depth r r' → Cut depth (t :: r) (t :: r')

theorem Cut.length_eq {depth : Nat} {i i' : List Token} (h : Cut depth i i') :
    i'.length = i.length := by
  induction h with
  | nil | bare | unmatched => rfl
  | opening _ _ ih | closing _ _ ih | inner _ _ _ _ ih =>
    rw [List.length_cons, List.length_cons, ih]

/-- Whether one place comes to the other by severing what is ahead. -/
structure Cursor.Severed (depth : Nat) (c c' : Cursor) : Prop where
  ahead : Cut depth c.ahead c'.ahead
  finish_eq : c'.finish = c.finish
  position_eq : c'.position = c.position

namespace Cursor.Severed

variable {depth : Nat} {c c' : Cursor}

/-- The next token is the same, or it is the bare `and` and an end of line on its line. -/
theorem peek (h : c.Severed depth c') :
    (c'.peek = c.peek ∧ (c.peek.kind = .keyword .and_ → depth ≠ 0)) ∨
      (depth = 0 ∧ c.peek.kind = .keyword .and_ ∧ c'.peek.kind = .eol ∧
        c'.peek.line = c.peek.line) := by
  have hahead := h.ahead
  have hfinish := c.finish_eq_eof
  unfold Cursor.peek
  generalize c.ahead = i at hahead
  generalize c'.ahead = i' at hahead
  cases hahead with
  | nil => exact Or.inl ⟨h.finish_eq, fun hand => by simp [hfinish] at hand⟩
  | bare hand heol hline => exact Or.inr ⟨rfl, hand, heol, hline⟩
  | unmatched hclose => exact Or.inl ⟨rfl, fun hand => by simp [hclose] at hand⟩
  | opening hopen _ => exact Or.inl ⟨rfl, fun hand => by simp [hopen] at hand⟩
  | closing hclose _ => exact Or.inl ⟨rfl, fun hand => by simp [hclose] at hand⟩
  | inner _ _ hinner _ => exact Or.inl ⟨rfl, hinner⟩

theorem line_peek (h : c.Severed depth c') : c'.peek.line = c.peek.line := by
  rcases h.peek with ⟨hsame, -⟩ | ⟨-, -, -, hline⟩
  · rw [hsame]
  · exact hline

/-- Apart from a bare `and`, the next token is the same in both. -/
theorem peek_eq (h : c.Severed depth c') (hand : c.peek.kind = .keyword .and_ → depth ≠ 0) :
    c'.peek = c.peek := by
  rcases h.peek with ⟨hsame, -⟩ | ⟨hdepth, hkind, -, -⟩
  · exact hsame
  · exact absurd hdepth (hand hkind)

/-- Kinds that are neither `and` nor an end of line come next in both or in none. -/
theorem wanted_peek (h : c.Severed depth c') {wanted : Kind → Bool}
    (hand : wanted (.keyword .and_) = false) (heol : wanted .eol = false) :
    wanted c'.peek.kind = wanted c.peek.kind := by
  rcases h.peek with ⟨hsame, -⟩ | ⟨-, hkind, hkind', -⟩
  · rw [hsame]
  · rw [hkind, hkind', hand, heol]

theorem kind_peek_eq_iff (h : c.Severed depth c') {kind : Kind} (hand : kind ≠ .keyword .and_)
    (heol : kind ≠ .eol) : c'.peek.kind = kind ↔ c.peek.kind = kind := by
  rcases h.peek with ⟨hsame, -⟩ | ⟨-, hkind, hkind', -⟩
  · rw [hsame]
  · rw [hkind, hkind', eq_false hand.symm, eq_false heol.symm]

theorem atEnd_eq (h : c.Severed depth c') : c'.atEnd = c.atEnd := by
  have hahead := h.ahead
  unfold Cursor.atEnd
  generalize c.ahead = i at hahead
  generalize c'.ahead = i' at hahead
  cases hahead <;> rfl

/-- Both places move together, and what is then ahead depends on the token that is taken. -/
theorem advance_of {depth' : Nat} (h : c.Severed depth c')
    (hahead : Cut depth' (c.ahead.drop 1) (c'.ahead.drop 1)) :
    c.advance.Severed depth' c'.advance := by
  refine ⟨hahead, h.finish_eq, ?_⟩
  simp [Cursor.advance, Cursor.skip, h.position_eq, h.ahead.length_eq]

theorem advance (h : c.Severed depth c') (hopen : c.peek.kind ≠ .operator .lparen)
    (hclose : c.peek.kind ≠ .operator .rparen)
    (hand : c.peek.kind = .keyword .and_ → depth ≠ 0) : c.advance.Severed depth c'.advance := by
  refine h.advance_of ?_
  have hahead := h.ahead
  unfold Cursor.peek at hopen hclose hand
  generalize c.ahead = i at hahead hopen hclose hand
  generalize c'.ahead = i' at hahead
  cases hahead with
  | nil => exact .nil
  | bare hkind _ _ => exact absurd rfl (hand hkind)
  | unmatched hkind => exact absurd hkind hclose
  | opening hkind _ => exact absurd hkind hopen
  | closing hkind _ => exact absurd hkind hclose
  | inner _ _ _ hrest => exact hrest

/-- Behind a parenthesis that opens the places are one deeper. -/
theorem advance_opening (h : c.Severed depth c') (hopen : c.peek.kind = .operator .lparen) :
    c.advance.Severed (depth + 1) c'.advance := by
  refine h.advance_of ?_
  have hahead := h.ahead
  have hfinish := c.finish_eq_eof
  unfold Cursor.peek at hopen
  generalize c.ahead = i at hahead hopen
  generalize c'.ahead = i' at hahead
  cases hahead with
  | nil => simp [hfinish] at hopen
  | bare hkind _ _ => simp [hkind] at hopen
  | unmatched hkind => simp [hkind] at hopen
  | opening _ hrest => exact hrest
  | closing hkind _ => simp [hkind] at hopen
  | inner hno _ _ _ => exact absurd hopen hno

/-- Behind the one that closes it they are back. -/
theorem advance_closing (h : c.Severed (depth + 1) c')
    (hclose : c.peek.kind = .operator .rparen) : c.advance.Severed depth c'.advance := by
  refine h.advance_of ?_
  have hahead := h.ahead
  have hfinish := c.finish_eq_eof
  unfold Cursor.peek at hclose
  generalize c.ahead = i at hahead hclose
  generalize c'.ahead = i' at hahead
  cases hahead with
  | nil => simp [hfinish] at hclose
  | opening hkind _ => simp [hkind] at hclose
  | closing _ hrest => exact hrest
  | inner _ hno _ _ => exact absurd hclose hno

end Cursor.Severed

/-! ## Outcomes -/

/-- Whether two errors are the same but for the token that they blame. -/
structure SyntaxError.SameButToken (e e' : SyntaxError) : Prop where
  category_eq : e'.category = e.category
  message_eq : e'.message = e.message
  note_eq : e'.note = e.note
  line_eq : e'.line = e.line
  expected_eq : e'.expected = e.expected

/-- Whether two causes are the same but for the token that is blamed. -/
inductive Cause.SameButToken : Cause → Cause → Prop where
  | invalid {e e' : SyntaxError} :
      e.SameButToken e' → Cause.SameButToken (.invalid e) (.invalid e')
  | numeral (fault : Numeral.Fault) : Cause.SameButToken (.numeral fault) (.numeral fault)
  | tooDeep : Cause.SameButToken .tooDeep .tooDeep

/-- Whether two runs end alike: with the same value at places that `P` relates, or with the same
failure at the same position, in front of tokens on the same line. -/
inductive Outcome.Matches {α : Type} (P : Cursor → Cursor → Prop) :
    Outcome α → Outcome α → Prop where
  | done (a : α) {d d' : Cursor} : P d d' → Matches P (.done a d) (.done a d')
  | failed {failure failure' : Failure} {d d' : Cursor} :
      failure.cause.SameButToken failure'.cause → failure'.unclosed = failure.unclosed →
      d'.position = d.position → d'.peek.line = d.peek.line →
      Matches P (.failed failure d) (.failed failure' d')

theorem Outcome.Matches.mono {α : Type} {P Q : Cursor → Cursor → Prop} {o o' : Outcome α}
    (h : o.Matches P o') (himp : ∀ d d', P d d' → Q d d') : o.Matches Q o' := by
  cases h with
  | done a hplace => exact .done a (himp _ _ hplace)
  | failed hcause hunclosed hposition hline => exact .failed hcause hunclosed hposition hline

/-- Whether two rules end alike wherever one place is the other severed. -/
def Rule.MatchesAt {α : Type} (depth : Nat) (r r' : Rule α) : Prop :=
  ∀ c c', c.Severed depth c' → (r.run c).Matches (Cursor.Severed depth) (r'.run c')

namespace Rule

variable {α β : Type} {depth : Nat} {P Q : Cursor → Cursor → Prop} {c c' : Cursor}

theorem matches_pure (a : α) (hplace : P c c') :
    ((pure a : Rule α).run c).Matches P ((pure a : Rule α).run c') :=
  .done a hplace

theorem matches_bind {r r' : Rule α} {next next' : α → Rule β}
    (h : (r.run c).Matches P (r'.run c'))
    (hnext : ∀ a d d', P d d' → ((next a).run d).Matches Q ((next' a).run d')) :
    ((r >>= next).run c).Matches Q ((r' >>= next').run c') := by
  rw [run_bind, run_bind]
  generalize r.run c = o at h ⊢
  generalize r'.run c' = o' at h ⊢
  cases h with
  | done a hplace => exact hnext a _ _ hplace
  | failed hcause hunclosed hposition hline => exact .failed hcause hunclosed hposition hline

theorem matches_fail {cause cause' : Token → Cause} (h : c.Severed depth c')
    (hcause : (cause c.peek).SameButToken (cause' c'.peek)) :
    ((fail cause : Rule α).run c).Matches P ((fail cause' : Rule α).run c') :=
  .failed hcause rfl h.position_eq h.line_peek

/-- The errors that the next tokens give rise to are on one line. -/
theorem matches_atToken (h : c.Severed depth c') (category : Category) (message : String)
    (expected : Option Kind) {note : Token → Option String} (hnote : note c'.peek = note c.peek) :
    ((invalid fun t => .atToken category message t expected (note t) : Rule α).run c).Matches P
      ((invalid fun t => .atToken category message t expected (note t) : Rule α).run c') :=
  matches_fail h (.invalid ⟨rfl, rfl, hnote, h.line_peek, rfl⟩)

/-- A token that is no parenthesis is taken in both runs, if it is the same. -/
theorem matches_advance (h : c.Severed depth c') (hopen : c.peek.kind ≠ .operator .lparen)
    (hclose : c.peek.kind ≠ .operator .rparen)
    (hand : c.peek.kind = .keyword .and_ → depth ≠ 0) :
    (advance.run c).Matches (Cursor.Severed depth) (advance.run c') := by
  change Outcome.Matches _ (.done c.peek c.advance) (.done c'.peek c'.advance)
  rw [h.peek_eq hand]
  exact .done _ (h.advance hopen hclose hand)

theorem matches_advance_opening (h : c.Severed depth c')
    (hopen : c.peek.kind = .operator .lparen) :
    (advance.run c).Matches (Cursor.Severed (depth + 1)) (advance.run c') := by
  change Outcome.Matches _ (.done c.peek c.advance) (.done c'.peek c'.advance)
  rw [h.peek_eq (by simp [hopen])]
  exact .done _ (h.advance_opening hopen)

/-- A parenthesis that has to be closed is closed in both runs. -/
theorem matches_expect_closing (h : c.Severed (depth + 1) c') (message : String) :
    ((expect (.operator .rparen) message).run c).Matches (Cursor.Severed depth)
      ((expect (.operator .rparen) message).run c') := by
  have hsame : c'.peek.kind = .operator .rparen ↔ c.peek.kind = .operator .rparen :=
    h.kind_peek_eq_iff (by decide) (by decide)
  simp only [expect, hsame]
  split
  · next hclose =>
    rw [h.peek_eq (by simp [hclose])]
    exact .done _ (h.advance_closing hclose)
  · exact .failed (.invalid ⟨rfl, rfl, rfl, h.line_peek, rfl⟩) rfl h.position_eq h.line_peek

theorem matches_deeper {way : Nesting} {budget : Nat}
    {inner inner' : (rest : Nat) → rest < budget → Rule α} (h : c.Severed depth c')
    (hinner : ∀ rest hlt, ((inner rest hlt).run c).Matches P ((inner' rest hlt).run c')) :
    ((deeper way budget inner).run c).Matches P ((deeper way budget inner').run c') := by
  unfold deeper
  split
  · exact hinner _ _
  · exact matches_fail h .tooDeep

theorem matches_unlessNext {stop : Kind} (hand : stop ≠ .keyword .and_) (heol : stop ≠ .eol)
    {r r' : Rule α} (h : c.Severed depth c') (hr : r.MatchesAt depth r') :
    ((unlessNext stop r).run c).Matches (Cursor.Severed depth) ((unlessNext stop r').run c') := by
  have hsame := h.kind_peek_eq_iff hand heol
  rw [unlessNext, unlessNext, run_peek_bind, run_peek_bind]
  simp only [hsame]
  split
  · exact matches_pure _ h
  · exact matches_bind (hr c c' h) fun a d d' hplace => matches_pure _ hplace

/-- Loops take the same turns if they want the same tokens next and each turn leads back to the
depth where it starts. -/
theorem matches_whileNext {wanted wanted' : Kind → Bool} {step step' : Token → α → Rule α}
    (heof : wanted .eof = false)
    (hwanted : ∀ c c' : Cursor, c.Severed depth c' → wanted' c'.peek.kind = wanted c.peek.kind)
    (hturn : ∀ (c c' : Cursor) (a : α), c.Severed depth c' → wanted c.peek.kind = true →
      ((step c.peek a).run c.advance).Matches (Cursor.Severed depth)
        ((step' c'.peek a).run c'.advance)) (a : α) :
    (whileNext wanted step a).MatchesAt depth (whileNext wanted' step' a) := by
  intro c c' h
  change (whileNextFrom wanted step a c).Matches _ (whileNextFrom wanted' step' a c')
  generalize hn : c.remaining = n
  induction n using Nat.strongRecOn generalizing a c c' with
  | ind n ih =>
    have hsame := hwanted c c' h
    by_cases hgo : wanted c.peek.kind = true
    · -- Both loops take a turn.
      have hne : c.peek.kind ≠ .eof := by
        intro hkind
        rw [hkind, heof] at hgo
        cases hgo
      rcases Cursor.exists_ahead_of_peek rfl hne with ⟨t, l, hl, hpeek, -⟩
      have hend := h.atEnd_eq.trans (Cursor.atEnd_of_ahead hl)
      rcases Cursor.exists_ahead_of_atEnd hend with ⟨t', l', hl'⟩
      have hstep := hturn c c' a h hgo
      rw [hpeek, Cursor.peek_of_ahead hl'] at hstep hsame
      rw [hpeek] at hgo
      rw [whileNextFrom_go hl hgo, whileNextFrom_go hl' (hsame.trans hgo)]
      generalize ho : (step t a).run c.advance = o at hstep
      generalize (step' t' a).run c'.advance = o' at hstep
      cases hstep with
      | done b hplace =>
        have hle := remaining_le_of_run ho rfl
        have hlt := Cursor.remaining_advance_lt (Cursor.atEnd_of_ahead hl)
        exact ih _ (hn ▸ Nat.lt_of_le_of_lt hle hlt) b _ _ hplace rfl
      | failed hcause hunclosed hposition hline => exact .failed hcause hunclosed hposition hline
    · have hno : wanted c.peek.kind = false := by simpa using hgo
      rw [hno] at hsame
      rw [Cursor.kind_peek] at hno hsame
      rw [whileNextFrom_stop hno, whileNextFrom_stop hsame]
      exact .done a h

/-- A token that is no parenthesis may be taken in both runs. -/
theorem matches_accept {wanted : Kind → Bool} (hopen : wanted (.operator .lparen) = false)
    (hclose : wanted (.operator .rparen) = false) (hand : wanted (.keyword .and_) = false)
    (heol : wanted .eol = false) : (accept wanted).MatchesAt depth (accept wanted) := by
  intro c c' h
  have hne : ∀ {k : Kind}, wanted k = false → wanted c.peek.kind = true → c.peek.kind ≠ k := by
    intro k hk hwanted hkind
    rw [hkind, hk] at hwanted
    cases hwanted
  simp only [accept, h.wanted_peek hand heol]
  split
  · next hwanted =>
    have hno := hne hand hwanted
    rw [h.peek_eq fun hkind => absurd hkind hno]
    exact .done _ (h.advance (hne hopen hwanted) (hne hclose hwanted)
      fun hkind => absurd hkind hno)
  · exact .done _ h

theorem matches_commaSeparated {item item' : Rule α} (hitem : item.MatchesAt depth item') :
    (commaSeparated item).MatchesAt depth (commaSeparated item') := by
  have hadd : ∀ read, (addItem item read).MatchesAt depth (addItem item' read) := by
    intro read c c' h
    exact matches_bind (hitem c c' h) fun a d d' hplace => matches_pure _ hplace
  intro c c' h
  rw [commaSeparated_eq, commaSeparated_eq]
  refine matches_bind (hadd #[] c c' h) fun read d d' hplace => ?_
  refine matches_bind (matches_whileNext rfl (fun _ _ h => h.wanted_peek rfl rfl) ?_ read d d'
    hplace) fun read e e' hplace => matches_pure _ hplace
  intro c c' read h hcomma
  rw [beq_iff_eq] at hcomma
  exact hadd read _ _ (h.advance (by simp [hcomma]) (by simp [hcomma]) (by simp [hcomma]))

end Rule

/-! ## Expressions -/

namespace Grammar

variable {budget depth : Nat}

/-- Whether the rule of a tier ends alike where `and` separates outside parentheses and where
expressions are severed there. -/
def EndsAlike (T : Tier) (budget : Nat) : Prop :=
  ∀ depth, (ofTier T (depth == 0) budget).MatchesAt depth (ofTier T false budget)

theorem matches_expression_inside (h : EndsAlike .assignment budget) :
    (expression false budget).MatchesAt (depth + 1) (expression false budget) := by
  rw [expression]
  exact h (depth + 1)

theorem matches_primary (ih : ∀ rest < budget, EndsAlike .assignment rest) :
    EndsAlike .primary budget := by
  intro depth c c' h
  change ((primary budget).run c).Matches _ ((primary budget).run c')
  rw [primary, run_peek_bind, run_peek_bind]
  rcases h.peek with ⟨hsame, hand⟩ | ⟨-, hkind, hkind', -⟩
  · rw [hsame]
    split
    · next hk =>
      refine matches_bind (matches_advance h (by simp [hk]) (by simp [hk]) hand)
        fun _ d d' hplace => ?_
      split
      · exact matches_pure _ hplace
      · exact matches_fail hplace (.numeral _)
    · next hk =>
      -- Inside the parentheses `and` is an operator in both runs.
      refine matches_bind (matches_advance_opening h hk) fun _ d d' hplace => ?_
      refine matches_bind (matches_deeper hplace fun rest hlt =>
        matches_expression_inside (ih rest hlt) d d' hplace) fun inner d d' hplace => ?_
      exact matches_bind (matches_expect_closing hplace _) fun _ d d' hplace =>
        matches_pure _ hplace
    · next hk =>
      exact matches_bind (matches_advance h (by simp [hk]) (by simp [hk]) hand)
        fun _ d d' hplace => matches_pure _ hplace
    · next hopen _ =>
      cases hv : literalValue? c.peek with
      | some v =>
        have hclose : c.peek.kind ≠ .operator .rparen := by
          intro hk
          simp [literalValue?, hk] at hv
        exact matches_bind (matches_advance h hopen hclose hand)
          fun _ d d' hplace => matches_pure _ hplace
      | none => exact matches_atToken h _ _ _ (by rw [hsame])
  · -- No expression starts with the bare `and`, nor with the end of line.
    have hnone : ∀ {t : Token}, t.kind = .keyword .and_ ∨ t.kind = .eol →
        literalValue? t = none := by
      rintro t (hk | hk) <;> simp [literalValue?, hk]
    simp only [hkind, hkind', hnone (Or.inl hkind), hnone (Or.inr hkind')]
    exact matches_atToken h _ _ _ (by simp [missingExpressionNote, hkind, hkind'])

theorem matches_arguments (h : EndsAlike .assignment budget) :
    (arguments false budget).MatchesAt (depth + 1) (arguments false budget) := by
  intro c c' hplace
  rw [arguments]
  refine matches_bind (matches_unlessNext (by decide) (by decide) hplace
    (matches_commaSeparated (matches_expression_inside h))) fun _ d d' hplace => ?_
  exact matches_pure _ hplace

theorem matches_call (ih : ∀ rest < budget, EndsAlike .assignment rest)
    (hprimary : EndsAlike .primary budget) : EndsAlike .call budget := by
  intro depth c c' h
  change ((call budget).run c).Matches _ ((call budget).run c')
  rw [call_eq]
  refine matches_bind (hprimary depth c c' h) fun callee d d' hplace => ?_
  refine matches_whileNext rfl (fun _ _ h => h.wanted_peek rfl rfl) ?_ callee d d' hplace
  intro c c' callee h hopen
  rw [beq_iff_eq] at hopen
  rw [h.peek_eq (by simp [hopen])]
  refine matches_bind (matches_deeper (h.advance_opening hopen) fun rest hlt =>
    matches_arguments (ih rest hlt) _ _ (h.advance_opening hopen)) fun passed d d' hplace => ?_
  exact matches_bind (matches_expect_closing hplace _) fun _ d d' hplace => matches_pure _ hplace

theorem matches_unary (ih : ∀ rest < budget, EndsAlike .unary rest)
    (hcall : EndsAlike .call budget) : EndsAlike .unary budget := by
  intro depth c c' h
  change ((unary (depth == 0) budget).run c).Matches _ ((unary false budget).run c')
  rw [unary, unary]
  refine matches_bind (matches_accept rfl rfl rfl rfl c c' h) fun found d d' hplace => ?_
  cases found with
  | some op =>
    refine matches_bind (matches_deeper hplace fun rest hlt => ih rest hlt depth d d' hplace)
      fun operand d d' hplace => matches_pure _ hplace
  | none => exact hcall depth d d' hplace

/-- Outside parentheses a bare `and` is no operator, nor is the end of line that stands for it. -/
theorem operators_peek (T : Tier) {c c' : Cursor} (h : c.Severed depth c') :
    T.operators false c'.peek.kind = T.operators (depth == 0) c.peek.kind := by
  rcases h.peek with ⟨hsame, hand⟩ | ⟨rfl, hkind, hkind', -⟩
  · rw [hsame]
    cases T with
    | logicAnd =>
      by_cases hk : c.peek.kind = .keyword .and_
      · simp [Tier.operators, hk, hand hk]
      · simp [Tier.operators, hk]
    | _ => rfl
  · rw [hkind, hkind']
    cases T <;> rfl

theorem matches_infixTier {T : Tier} (hT : T.isInfix = true)
    (hnext : EndsAlike T.tighter budget) : EndsAlike T budget := by
  intro depth c c' h
  rw [ofTier_eq_leftFold hT, ofTier_eq_leftFold hT, leftFold, leftFold]
  refine matches_bind (hnext depth c c' h) fun first d d' hplace => ?_
  have heof : T.operators (depth == 0) .eof = false := by
    cases T <;> rfl
  refine matches_whileNext heof (fun _ _ h => operators_peek T h) ?_ first d d' hplace
  intro c c' left h hop
  rcases Tier.ne_parenthesis_of_operators hT hop with ⟨hopen, hclose⟩
  have hand : c.peek.kind = .keyword .and_ → depth ≠ 0 := by
    rintro hkind rfl
    rw [hkind] at hop
    cases T <;> cases hop
  rw [h.peek_eq hand]
  exact matches_bind (hnext depth _ _ (h.advance hopen hclose hand))
    fun right d d' hplace => matches_pure _ hplace

theorem matches_assignment (ih : ∀ rest < budget, EndsAlike .assignment rest)
    (hor : EndsAlike .logicOr budget) : EndsAlike .assignment budget := by
  intro depth c c' h
  change ((assignment (depth == 0) budget).run c).Matches _ ((assignment false budget).run c')
  rw [assignment_eq, assignment_eq]
  refine matches_bind (hor depth c c' h) fun target d d' hplace => ?_
  have hsame : d'.peek.kind = .operator .assign ↔ d.peek.kind = .operator .assign :=
    hplace.kind_peek_eq_iff (by decide) (by decide)
  unfold assignTo
  rw [run_peek_bind, run_peek_bind]
  simp only [hsame]
  split
  · next hk =>
    split
    · refine matches_bind (matches_advance hplace (by simp [hk]) (by simp [hk]) (by simp [hk]))
        fun _ d d' hplace => ?_
      exact matches_bind (matches_deeper hplace fun rest hlt => ih rest hlt depth d d' hplace)
        fun _ d d' hplace => matches_pure _ hplace
    · exact matches_atToken hplace _ _ _ rfl
  · exact matches_pure _ hplace

/-- Expressions of all tiers end alike. -/
theorem ofTier_endsAlike (budget : Nat) : ∀ T, EndsAlike T budget := by
  -- Inside parentheses and behind prefixes the budget is less; from one tier to the next it stays.
  induction budget using Nat.strongRecOn with
  | ind budget ih =>
    intro T
    induction T using Tier.induct with
    | primary => exact matches_primary fun rest hlt => ih rest hlt .assignment
    | call hprimary => exact matches_call (fun rest hlt => ih rest hlt .assignment) hprimary
    | unary hcall => exact matches_unary (fun rest hlt => ih rest hlt .unary) hcall
    | operation hT hnext => exact matches_infixTier hT hnext
    | assignment hor => exact matches_assignment (fun rest hlt => ih rest hlt .assignment) hor

end Grammar

end ScriptCheck
