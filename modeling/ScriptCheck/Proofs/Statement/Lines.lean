import ScriptCheck.Proofs.Statement.Forming

/-!
# Statements at the end of lines

Where the tokens end with an end of line, no statement reaches beyond them: with more tokens behind,
the same statement is formed and ends at the same place (`Forms.append`). The one exception is an
`else`, which a conditional looks for on the next lines. So what comes behind must not start with
one, ends of line aside.
-/

namespace ScriptCheck

/-- Whether the last token, if there is one, is an end of line. -/
def EndsLine (i : List Token) : Prop :=
  ∀ t ∈ i.getLast?, t.kind = .eol

theorem EndsLine.of_suffix {i r : List Token} (h : EndsLine i) (hr : r <:+ i) : EndsLine r := by
  rcases hr with ⟨w, rfl⟩
  intro t ht
  refine h t ?_
  rw [List.getLast?_append, Option.mem_def.mp ht]
  rfl

/-- Tokens other than ends of line leave something of a line. -/
theorem EndsLine.ne_nil {i r : List Token} (h : EndsLine i)
    (hspans : Spans (·.kind ≠ .eol) i r) : r ≠ [] := by
  rintro rfl
  rcases hspans with ⟨w, rfl, hne, hall⟩
  rw [List.append_nil] at h
  exact hall _ (List.getLast_mem hne) (h _ (List.getLast?_eq_some_getLast hne))

/-! ## More tokens behind a place -/

theorem Terminated.append {j r : List Token} (h : Terminated j r) (hj : j ≠ [])
    (more : List Token) : Terminated (j ++ more) (r ++ more) := by
  cases h with
  | line ht => exact .line ht
  | closed hcloses => exact .closed (by rwa [nextKind_append hj])

theorem Clause.append {stop : Kind} {i r : List Token} {t : Token} {clause : Option Node}
    (h : Clause stop i (t :: r) clause) (more : List Token) :
    Clause stop (i ++ more) (t :: (r ++ more)) clause := by
  rcases h.detach with ⟨v, rfl, hv⟩
  simpa using hv (r ++ more)

theorem Parameters.append {i r : List Token} {t : Token} {names : List String}
    (h : Parameters i (t :: r) names) (more : List Token) :
    Parameters (i ++ more) (t :: (r ++ more)) names := by
  rcases h.detach with ⟨v, rfl, hv⟩
  simpa using hv (r ++ more)

/-! ## Statements -/

/-- Whether what is formed in front of `r` is formed with `more` behind it, too. -/
def FormsBefore (more : List Token) (L : Level) (i r : List Token) (a : Nat) (n : Node) : Prop :=
  ∃ r', Forms L (i ++ more) r' a n ∧ dropBlank r' = dropBlank (r ++ more)

variable {more : List Token}

theorem Sequence.append {stop : Kind} {weight a : Nat} {i r : List Token} {ns : List Node}
    (h : Sequence (fun i r a n => ∃ _ : Forms .declaration i r a n,
      EndsLine i → FormsBefore more .declaration i r a n) stop weight i r a ns)
    (hr : r ≠ []) (hi : EndsLine i) :
    Sequence (Forms .declaration) stop weight (i ++ more) (r ++ more) a ns := by
  induction h with
  | done hstop => exact .done (by rwa [nextKind_append hr])
  | @next i j r b c n ns hn hns ih =>
    rcases hn with ⟨hforms, hbefore⟩
    rcases hbefore hi with ⟨j', hforms', hj'⟩
    have hne : dropBlank j ≠ [] := by
      cases hns with
      | done _ => exact hr
      | next hn _ => exact hn.1.spans.ne_nil
    have hrest := ih hr (hi.of_suffix ((dropBlank_suffix j).trans hforms.spans.suffix))
    rw [dropBlank_append_of_ne hne] at hj'
    rw [← hj'] at hrest
    exact .next hforms' hrest

namespace Forms

/-- Where a line ends, what comes behind it is no matter to what is formed, unless it starts with an
`else`. -/
theorem append {L : Level} {i r : List Token} {a : Nat} {n : Node} (h : Forms L i r a n)
    (hi : EndsLine i) (hmore : nextKind (dropBlank more) ≠ .keyword .else_) :
    FormsBefore more L i r a n := by
  induction h using Forms.induct with
  | @print i j r start e hstart he hend =>
    have hj := (hi.of_suffix (List.suffix_cons start i)).ne_nil he.spans
    exact ⟨r ++ more, .print hstart (he.append more) (hend.append hj more), rfl⟩
  | @return_ i j r start e hstart he hend =>
    have hj := (hi.of_suffix (List.suffix_cons start i)).ne_nil he.spans
    exact ⟨r ++ more, .return_ hstart (he.append more) (hend.append hj more), rfl⟩
  | @expression i j r e he hend =>
    have hj := hi.ne_nil he.spans
    exact ⟨r ++ more, .expression (he.append more) (hend.append hj more), rfl⟩
  | @conditional i j k a start e n hstart he hstop hn hno ih =>
    have hi' := hi.of_suffix (List.suffix_cons start i)
    have hj := hi'.ne_nil he.spans
    rcases ih (hi'.of_suffix ((dropBlank_suffix j).trans he.spans.suffix)) with ⟨k', hforms, hk'⟩
    rw [← dropBlank_append_of_ne hn.spans.ne_nil] at hforms
    refine ⟨dropBlank k', .conditional hstart (he.append more) ?_ hforms ?_, ?_⟩
    · rwa [nextKind_append hj]
    · rw [hk']
      exact nextKind_dropBlank_append_ne hno hmore
    · rw [dropBlank_dropBlank, hk', ← dropBlank_append]
  | @alternative i j k l r a b start other e n m hstart he hstop hn hk hother hm ih ihElse =>
    have hi' := hi.of_suffix (List.suffix_cons start i)
    have hj := hi'.ne_nil he.spans
    have hj' := hi'.of_suffix ((dropBlank_suffix j).trans he.spans.suffix)
    have hrest := hj'.of_suffix ((dropBlank_suffix k).trans hn.spans.suffix)
    rw [hk] at hrest
    rcases ih hj' with ⟨k', hforms, hk'⟩
    rcases ihElse (hrest.of_suffix ((dropBlank_suffix l).trans (List.suffix_cons other l)))
      with ⟨r', hforms', hr'⟩
    rw [← dropBlank_append_of_ne hn.spans.ne_nil] at hforms
    rw [← dropBlank_append_of_ne hm.spans.ne_nil] at hforms'
    rw [dropBlank_append_of_ne (by simp [hk]), hk] at hk'
    refine ⟨r', .alternative hstart (he.append more) ?_ hforms hk' hother hforms', hr'⟩
    rwa [nextKind_append hj]
  | @loop i j r a start opening closing e n hstart hopen he hclose hn ih =>
    have hi' := hi.of_suffix (suffix_cons_cons start opening i)
    have hj := hi'.of_suffix ((dropBlank_suffix j).trans
      ((List.suffix_cons closing j).trans he.spans.suffix))
    rcases ih hj with ⟨r', hforms, hr'⟩
    rw [← dropBlank_append_of_ne hn.spans.ne_nil] at hforms
    exact ⟨r', .loop hstart hopen (he.append more) hclose hforms, hr'⟩
  | @forLoop i j k l r a start opening and₁ and₂ closing initializer condition increment n hstart
      hopen hinitializer hcondition hincrement hn ih =>
    have hi' := hi.of_suffix (suffix_cons_cons start opening i)
    have hj := hi'.of_suffix (hinitializer.inExpression rfl).suffix
    have hk := hj.of_suffix (hcondition.inExpression rfl).suffix
    rcases ih (hk.of_suffix ((dropBlank_suffix l).trans (hincrement.inExpression rfl).suffix))
      with ⟨r', hforms, hr'⟩
    rw [← dropBlank_append_of_ne hn.spans.ne_nil] at hforms
    exact ⟨r', .forLoop hstart hopen (hinitializer.append more) (hcondition.append more)
      (hincrement.append more) hforms, hr'⟩
  | blockStatement _ ih =>
    rcases ih hi with ⟨r', hforms, hr'⟩
    exact ⟨r', .blockStatement hforms, hr'⟩
  | @block i r a opening closing ns hopen hns =>
    have hi' := hi.of_suffix ((dropBlank_suffix i).trans (List.suffix_cons opening i))
    have hne : dropBlank i ≠ [] := (hns.spans (fun _ _ _ _ hn => hn.1.spans) (by decide)).ne_nil
    have hsequence := hns.append (by simp) hi'
    rw [← dropBlank_append_of_ne hne] at hsequence
    exact ⟨r ++ more, .block hopen hsequence, rfl⟩
  | @function i j r a start name opening closing params body hstart hname hopen hparams hbody ih =>
    have hi' := hi.of_suffix ((suffix_cons_cons name opening i).trans (List.suffix_cons start _))
    rcases ih (hi'.of_suffix ((dropBlank_suffix j).trans hparams.inExpression.suffix))
      with ⟨r', hforms, hr'⟩
    rw [← dropBlank_append_of_ne hbody.spans.ne_nil] at hforms
    exact ⟨r', .function hstart hname hopen (hparams.append more) hforms, hr'⟩
  | declared _ ih =>
    rcases ih hi with ⟨r', hforms, hr'⟩
    exact ⟨r', .declared hforms, hr'⟩

end Forms

end ScriptCheck
