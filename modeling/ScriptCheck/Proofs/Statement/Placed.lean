import ScriptCheck.Proofs.Statement.Forming

/-!
# The line of what is formed

A statement has the line of one of the tokens that form it (`Forms.lineWithin`). Which one it is
depends on the statement: the word that starts it, or else an operator, a parenthesis or a name in
its expression. Other tokens of the statement may be on other lines.
-/

namespace ScriptCheck

/-- Whether the line is that of one of the tokens of `i` in front of `r`. -/
def LineWithin (line : Int) (i r : List Token) : Prop :=
  ∃ w, i = w ++ r ∧ ∃ t ∈ w, t.line = line

namespace LineWithin

variable {line : Int} {i j r : List Token} {t : Token}

/-- A token that comes before a place is in front of it. -/
theorem of_suffix (hi : t :: j <:+ i) (hj : r <:+ j) : LineWithin t.line i r := by
  rcases hi with ⟨v, rfl⟩
  rcases hj with ⟨w, rfl⟩
  exact ⟨v ++ t :: w, by simp, t, by simp, rfl⟩

/-- The first token is in front of every place behind it. -/
theorem head {Q : Token → Prop} (h : Spans Q (t :: i) r) : LineWithin t.line (t :: i) r := by
  rcases h with ⟨w, hw, hne, -⟩
  cases w with
  | nil => exact absurd rfl hne
  | cons u w =>
    obtain rfl := (List.cons.inj hw).1
    exact ⟨t :: w, hw, t, by simp, rfl⟩

/-- What is in front of a place is in front of those behind it. -/
theorem extend (h : LineWithin line i j) (hj : r <:+ j) : LineWithin line i r := by
  rcases h with ⟨w, rfl, t, ht, rfl⟩
  rcases hj with ⟨v, rfl⟩
  exact ⟨w ++ v, by simp, t, by simp [ht], rfl⟩

end LineWithin

variable {i r : List Token}

theorem Tier.line_join (T : Tier) (op : Token) (e f : Node) : (T.join op e f).line = op.line := by
  cases T <;> rfl

/-- An expression has the line of one of the tokens that spell it. -/
theorem Spells.lineWithin {T : Tier} {s : Bool} {e : Node} (h : Spells T s i r e) :
    LineWithin e.line i r := by
  induction h using Spells.induct with
  | @assign s i j r line name eq e h heq he ih _ =>
    exact ih.extend (he.spans.suffix.trans (List.suffix_cons eq j))
  | value _ ih => exact ih
  | operand _ _ ih => exact ih
  | operation _ he _ hf _ _ =>
    rw [Tier.line_join]
    exact .of_suffix he.spans.suffix hf.spans.suffix
  | unary _ he _ => exact .of_suffix (List.suffix_refl _) he.spans.suffix
  | call _ ih => exact ih
  | callee _ ih => exact ih
  | passNone he _ _ _ => exact .of_suffix he.spans.suffix (List.suffix_cons _ _)
  | @pass s i j r opening closing e es he _ hes hclose _ =>
    have hspans := hes.spans (fun _ _ _ hn => hn.1.spans) fun t ht => by simp [ht]
    exact .of_suffix he.spans.suffix ((List.suffix_cons closing r).trans hspans.suffix)
  | number _ _ => exact .of_suffix (List.suffix_refl _) (List.suffix_refl _)
  | literal _ => exact .of_suffix (List.suffix_refl _) (List.suffix_refl _)
  | name _ => exact .of_suffix (List.suffix_refl _) (List.suffix_refl _)
  | @grouping s i r opening closing e _ he _ _ =>
    exact .of_suffix (List.suffix_refl _) ((List.suffix_cons closing r).trans he.spans.suffix)

/-- A statement has the line of one of the tokens that form it. -/
theorem Forms.lineWithin {L : Level} {need : Nat} {n : Node} (h : Forms L i r need n) :
    LineWithin n.line i r := by
  induction h using Forms.induct with
  | expression he hend => exact he.lineWithin.extend hend.suffix
  | blockStatement _ ih => exact ih
  | declared _ ih => exact ih
  -- All others start with the word whose line they have.
  | print hstart he hend => exact .head (Forms.print hstart he hend).spans
  | return_ hstart he hend => exact .head (Forms.return_ hstart he hend).spans
  | conditional hstart he hstop hn hno _ =>
    exact .head (Forms.conditional hstart he hstop hn hno).spans
  | alternative hstart he hstop hn hk hother hm _ _ =>
    exact .head (Forms.alternative hstart he hstop hn hk hother hm).spans
  | loop hstart hopen he hclose hn _ =>
    exact .head (Forms.loop hstart hopen he hclose hn).spans
  | forLoop hstart hopen hinitializer hcondition hincrement hn _ =>
    exact .head (Forms.forLoop hstart hopen hinitializer hcondition hincrement hn).spans
  | block hopen hns =>
    exact .head (Forms.block hopen (hns.mono fun _ _ _ _ hn => hn.1)).spans
  | function hstart hname hopen hparams hbody _ =>
    exact .head (Forms.function hstart hname hopen hparams hbody).spans

end ScriptCheck
