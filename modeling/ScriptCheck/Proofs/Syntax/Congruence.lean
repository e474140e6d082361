import Mathlib.Data.List.Forall2
import ScriptCheck.Proofs.Syntax.Written

/-!
# Trees built in the same way

Two parses that go the same way build trees of the same form, and what the lines of the one have to
do with those of the other carries over from the tokens. `Node.Congruence` asks a relation of trees
for what such an argument needs: that the parser cannot tell related trees apart, and that it makes
related trees of related parts. Agreement up to lines is such a relation
(`Node.Congruence.upToLines`), and so is equality (`Node.Congruence.equality`).
-/

namespace ScriptCheck.Node

/-- Whether related trees look the same to the parser and come of related trees, where `L` relates
the lines. A literal has to agree with itself. -/
structure Congruence (L : Int → Int → Prop) (R : Node → Node → Prop) : Prop where
  line {n n' : Node} : R n n' → L n.line n'.line
  var_left {line : Int} {name : String} {n' : Node} : R (.var line name) n' →
    ∃ line', n' = .var line' name
  var_right {line' : Int} {name : String} {n : Node} : R n (.var line' name) →
    ∃ line, n = .var line name
  literal {line line' : Int} {v : Literal} : L line line' → v.agrees v = true →
    R (.literal line v) (.literal line' v)
  var {line line' : Int} {name : String} : L line line' → R (.var line name) (.var line' name)
  grouping {line line' : Int} {e e' : Node} : L line line' → R e e' →
    R (.grouping line e) (.grouping line' e')
  call {line line' : Int} {e e' : Node} {es es' : List Node} : L line line' → R e e' →
    List.Forall₂ R es es' → R (.call line e es) (.call line' e' es')
  unary {line line' : Int} {op : String} {e e' : Node} : L line line' → R e e' →
    R (.unary line op e) (.unary line' op e')
  binary {line line' : Int} {op : String} {e e' f f' : Node} : L line line' → R e e' → R f f' →
    R (.binary line op e f) (.binary line' op e' f')
  logical {line line' : Int} {op : String} {e e' f f' : Node} : L line line' → R e e' → R f f' →
    R (.logical line op e f) (.logical line' op e' f')
  assign {line line' : Int} {name : String} {e e' : Node} : L line line' → R e e' →
    R (.assign line name e) (.assign line' name e')
  declared {line line' : Int} {name : String} : L line line' →
    R (.binding line name none) (.binding line' name none)
  expression {line line' : Int} {e e' : Node} : L line line' → R e e' →
    R (.expression line e) (.expression line' e')
  print {line line' : Int} {e e' : Node} : L line line' → R e e' →
    R (.print line e) (.print line' e')
  return_ {line line' : Int} {e e' : Node} : L line line' → R e e' →
    R (.return_ line e) (.return_ line' e')
  loop {line line' : Int} {e e' n n' : Node} : L line line' → R e e' → R n n' →
    R (.loop line e n) (.loop line' e' n')
  conditional {line line' : Int} {e e' n n' : Node} {m m' : Option Node} : L line line' → R e e' →
    R n n' → Option.Rel R m m' → R (.conditional line e n m) (.conditional line' e' n' m')
  block {line line' : Int} {ns ns' : List Node} : L line line' → List.Forall₂ R ns ns' →
    R (.block line ns) (.block line' ns')
  function {line line' : Int} {name : String} {params : List String} {n n' : Node} : L line line' →
    R n n' → R (.function line name params n) (.function line' name params n')

/-! ## Agreement up to lines -/

/-- Whether two trees are the same up to their lines. No literal in them differs from itself. -/
structure SameUpToLines (n n' : Node) : Prop where
  eraseLines_eq : n.eraseLines = n'.eraseLines
  agrees_self : n.agrees n = true

/-- Trees that are the same up to lines agree. -/
theorem SameUpToLines.agrees {n n' : Node} (h : SameUpToLines n n') : n'.agrees n = true :=
  agrees_of_eraseLines h.eraseLines_eq.symm h.agrees_self

theorem eraseAllLines_eq_of_forall₂ {ns ns' : List Node} (h : List.Forall₂ SameUpToLines ns ns') :
    eraseAllLines ns = eraseAllLines ns' := by
  induction h with
  | nil => rfl
  | cons hn _ ih => rw [eraseAllLines, eraseAllLines, hn.eraseLines_eq, ih]

theorem allAgree_self_of_forall₂ {ns ns' : List Node} (h : List.Forall₂ SameUpToLines ns ns') :
    allAgree ns ns = true := by
  induction h with
  | nil => rfl
  | cons hn _ ih => rw [allAgree, hn.agrees_self, ih, Bool.true_and]

/-- A name is one without its line, too. -/
theorem exists_var_of_eraseLines {n : Node} {name : String} (h : n.eraseLines = .var 0 name) :
    ∃ line, n = .var line name := by
  cases n with
  | var line name' =>
    simp only [eraseLines, Node.var.injEq, true_and] at h
    exact ⟨line, by rw [h]⟩
  | binding _ _ initializer => cases initializer <;> simp [eraseLines] at h
  | conditional _ _ _ elseBranch => cases elseBranch <;> simp [eraseLines] at h
  | _ => simp [eraseLines] at h

theorem sameUpToLines_conditional {line line' : Int} {e e' n n' : Node} {m m' : Option Node}
    (he : SameUpToLines e e') (hn : SameUpToLines n n') (hm : Option.Rel SameUpToLines m m') :
    SameUpToLines (.conditional line e n m) (.conditional line' e' n' m') := by
  cases hm with
  | none =>
    exact ⟨by simp [eraseLines, he.eraseLines_eq, hn.eraseLines_eq],
      by simp [Node.agrees, he.agrees_self, hn.agrees_self]⟩
  | some hm =>
    exact ⟨by simp [eraseLines, he.eraseLines_eq, hn.eraseLines_eq, hm.eraseLines_eq],
      by simp [Node.agrees, he.agrees_self, hn.agrees_self, hm.agrees_self]⟩

theorem sameUpToLines_program {line line' : Int} {ns ns' : List Node}
    (h : List.Forall₂ SameUpToLines ns ns') :
    SameUpToLines (.program line ns) (.program line' ns') :=
  ⟨by simp [eraseLines, eraseAllLines_eq_of_forall₂ h],
    by simp [Node.agrees, allAgree_self_of_forall₂ h]⟩

theorem Congruence.upToLines : Congruence (fun _ _ => True) SameUpToLines where
  line _ := trivial
  var_left h := exists_var_of_eraseLines h.eraseLines_eq.symm
  var_right h := exists_var_of_eraseLines h.eraseLines_eq
  literal _ hv := ⟨rfl, by simp [agrees, hv]⟩
  var _ := ⟨rfl, by simp [agrees]⟩
  grouping _ he := ⟨by simp [eraseLines, he.eraseLines_eq], by simp [Node.agrees, he.agrees_self]⟩
  call _ he hes :=
    ⟨by simp [eraseLines, he.eraseLines_eq, eraseAllLines_eq_of_forall₂ hes],
      by simp [Node.agrees, he.agrees_self, allAgree_self_of_forall₂ hes]⟩
  unary _ he := ⟨by simp [eraseLines, he.eraseLines_eq], by simp [Node.agrees, he.agrees_self]⟩
  binary _ he hf :=
    ⟨by simp [eraseLines, he.eraseLines_eq, hf.eraseLines_eq],
      by simp [Node.agrees, he.agrees_self, hf.agrees_self]⟩
  logical _ he hf :=
    ⟨by simp [eraseLines, he.eraseLines_eq, hf.eraseLines_eq],
      by simp [Node.agrees, he.agrees_self, hf.agrees_self]⟩
  assign _ he := ⟨by simp [eraseLines, he.eraseLines_eq], by simp [Node.agrees, he.agrees_self]⟩
  declared _ := ⟨rfl, by simp [Node.agrees]⟩
  expression _ he :=
    ⟨by simp [eraseLines, he.eraseLines_eq], by simp [Node.agrees, he.agrees_self]⟩
  print _ he := ⟨by simp [eraseLines, he.eraseLines_eq], by simp [Node.agrees, he.agrees_self]⟩
  return_ _ he := ⟨by simp [eraseLines, he.eraseLines_eq], by simp [Node.agrees, he.agrees_self]⟩
  loop _ he hn :=
    ⟨by simp [eraseLines, he.eraseLines_eq, hn.eraseLines_eq],
      by simp [Node.agrees, he.agrees_self, hn.agrees_self]⟩
  conditional _ he hn hm := sameUpToLines_conditional he hn hm
  block _ hns :=
    ⟨by simp [eraseLines, eraseAllLines_eq_of_forall₂ hns],
      by simp [Node.agrees, allAgree_self_of_forall₂ hns]⟩
  function _ hn :=
    ⟨by simp [eraseLines, hn.eraseLines_eq], by simp [Node.agrees, hn.agrees_self]⟩

/-! ## Equality -/

/-- The parser makes one tree of the same parts. -/
theorem Congruence.equality : Congruence (· = ·) (· = ·) where
  line h := congrArg Node.line h
  var_left h := ⟨_, h.symm⟩
  var_right h := ⟨_, h⟩
  literal hline _ := by rw [hline]
  var hline := by rw [hline]
  grouping hline he := by rw [hline, he]
  call hline he hes := by
    rw [List.forall₂_eq_eq_eq] at hes
    rw [hline, he, hes]
  unary hline he := by rw [hline, he]
  binary hline he hf := by rw [hline, he, hf]
  logical hline he hf := by rw [hline, he, hf]
  assign hline he := by rw [hline, he]
  declared hline := by rw [hline]
  expression hline he := by rw [hline, he]
  print hline he := by rw [hline, he]
  return_ hline he := by rw [hline, he]
  loop hline he hn := by rw [hline, he, hn]
  conditional hline he hn hm := by
    rw [hline, he, hn]
    cases hm with
    | none => rfl
    | some h => rw [h]
  block hline hns := by
    rw [List.forall₂_eq_eq_eq] at hns
    rw [hline, hns]
  function hline hn := by rw [hline, hn]

end ScriptCheck.Node
