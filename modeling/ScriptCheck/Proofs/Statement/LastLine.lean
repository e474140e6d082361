import ScriptCheck.Proofs.Statement.Detaching
import ScriptCheck.Proofs.Statement.Lines

/-!
# The statement on the last line

A statement that nothing but ends of line follows may end where the input does. With an end of line
and more tokens behind, the same statement is formed, and what is left is what comes behind
(`Forms.continued`). As always, an `else` must not come next.
-/

namespace ScriptCheck

variable {e : Token} {more : List Token}

theorem dropBlank_append_eol {r : List Token} (hr : dropBlank r = []) (he : e.kind = .eol) :
    dropBlank (r ++ e :: more) = dropBlank more := by
  rw [dropBlank_append_of_blank (dropBlank_eq_nil_iff.mp hr), dropBlank_cons_eol he]

/-- Where the input ended, an end of line ends the statement. -/
theorem Terminated.continued {j r : List Token} (h : Terminated j r) (hr : dropBlank r = [])
    (he : e.kind = .eol) :
    ∃ r', Terminated (j ++ e :: more) r' ∧ dropBlank r' = dropBlank more := by
  cases h with
  | line ht => exact ⟨_, .line ht, dropBlank_append_eol hr he⟩
  | closed hcloses =>
    cases j with
    | nil => exact ⟨more, .line he, rfl⟩
    | cons t j =>
      have ht := dropBlank_eq_nil_iff.mp hr t (by simp)
      rw [nextKind_cons, ht] at hcloses
      cases hcloses

namespace Forms

/-- Behind a statement that only ends of line follow there may come a line more. -/
theorem continued {L : Level} {i r : List Token} {a : Nat} {n : Node} (h : Forms L i r a n)
    (hr : dropBlank r = []) (he : e.kind = .eol)
    (hmore : nextKind (dropBlank more) ≠ .keyword .else_) :
    ∃ r', Forms L (i ++ e :: more) r' a n ∧ dropBlank r' = dropBlank more := by
  induction h using Forms.induct with
  | print hstart hvalue hend =>
    rcases hend.continued hr he with ⟨r', hend', hr'⟩
    exact ⟨r', .print hstart (hvalue.append _) hend', hr'⟩
  | return_ hstart hvalue hend =>
    rcases hend.continued hr he with ⟨r', hend', hr'⟩
    exact ⟨r', .return_ hstart (hvalue.append _) hend', hr'⟩
  | expression hvalue hend =>
    rcases hend.continued hr he with ⟨r', hend', hr'⟩
    exact ⟨r', .expression (hvalue.append _) hend', hr'⟩
  | @conditional i j k a start c n hstart hc hstop hn hno ih =>
    rw [dropBlank_dropBlank] at hr
    rcases ih hr with ⟨k', hforms, hk'⟩
    have hj : j ≠ [] := by
      rintro rfl
      exact hn.spans.ne_nil rfl
    rw [← dropBlank_append_of_ne hn.spans.ne_nil] at hforms
    refine ⟨dropBlank k', .conditional hstart (hc.append _) (by rwa [nextKind_append hj]) hforms
      (by rwa [hk']), ?_⟩
    rw [dropBlank_dropBlank, hk']
  | @alternative i j k l r a b start other c n m hstart hc hstop hn hk hother hm ih ihElse =>
    rcases ihElse hr with ⟨r', hforms', hr'⟩
    have hj : j ≠ [] := by
      rintro rfl
      exact hn.spans.ne_nil rfl
    have hkne : k ≠ [] := by
      rintro rfl
      cases hk
    -- The `else` stays where it is, so the first branch ends as before.
    rcases hn.detach with ⟨v, hv, hbefore⟩
    have hforms := hbefore (k ++ e :: more) (.of_nextKind_eq (nextKind_append hkne _))
    rw [← List.append_assoc, ← hv, ← dropBlank_append_of_ne hn.spans.ne_nil] at hforms
    rw [← dropBlank_append_of_ne hm.spans.ne_nil] at hforms'
    have hk' : dropBlank (k ++ e :: more) = other :: (l ++ e :: more) := by
      rw [dropBlank_append_of_ne (by simp [hk]), hk]
      rfl
    exact ⟨r', .alternative hstart (hc.append _) (by rwa [nextKind_append hj]) hforms hk' hother
      hforms', hr'⟩
  | loop hstart hopen hc hclose hn ih =>
    rcases ih hr with ⟨r', hforms, hr'⟩
    rw [← dropBlank_append_of_ne hn.spans.ne_nil] at hforms
    exact ⟨r', .loop hstart hopen (hc.append _) hclose hforms, hr'⟩
  | forLoop hstart hopen hinitializer hcondition hincrement hn ih =>
    rcases ih hr with ⟨r', hforms, hr'⟩
    rw [← dropBlank_append_of_ne hn.spans.ne_nil] at hforms
    exact ⟨r', .forLoop hstart hopen (hinitializer.append _) (hcondition.append _)
      (hincrement.append _) hforms, hr'⟩
  | blockStatement _ ih =>
    rcases ih hr with ⟨r', hforms, hr'⟩
    exact ⟨r', .blockStatement hforms, hr'⟩
  | @block i r a opening closing ns hopen hns =>
    have hdeclared := hns.mono fun _ _ _ _ hn => hn.1
    have hne : dropBlank i ≠ [] := (hdeclared.spans (fun _ _ _ _ hn => hn.spans) (by decide)).ne_nil
    -- The word that closes the block stays where it is.
    rcases hdeclared.detach (.keyword .end_) with ⟨u, hu, hbody⟩
    have hsequence := hbody (closing :: (r ++ e :: more)) _ _ _ (.of_nextKind_eq rfl)
      (.done hns.nextKind_eq)
    have hi : dropBlank (i ++ e :: more) = u ++ closing :: (r ++ e :: more) := by
      rw [dropBlank_append_of_ne hne, hu]
      simp
    rw [← hi, Nat.max_zero, List.append_nil] at hsequence
    exact ⟨r ++ e :: more, .block hopen hsequence, dropBlank_append_eol hr he⟩
  | function hstart hname hopen hparams hbody ih =>
    rcases ih hr with ⟨r', hforms, hr'⟩
    rw [← dropBlank_append_of_ne hbody.spans.ne_nil] at hforms
    exact ⟨r', .function hstart hname hopen (hparams.append _) hforms, hr'⟩
  | declared _ ih =>
    rcases ih hr with ⟨r', hforms, hr'⟩
    exact ⟨r', .declared hforms, hr'⟩

end Forms

end ScriptCheck
