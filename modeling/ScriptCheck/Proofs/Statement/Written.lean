import ScriptCheck.Proofs.Statement.Canonical
import ScriptCheck.Proofs.Syntax.Written

/-!
# Canonical trees as tokens

All symbols of a canonical tree can be written, so its tokens show what it is written as. And a
canonical tree in which no literal differs from itself agrees with itself, as what is read back from
its tokens therefore does.
-/

namespace ScriptCheck

namespace Node

/-! ## Canonical trees can be written -/

theorem isProper_operator {operator : String} {T : Tier}
    (h : Tier.ofLexeme? operator = some T) : (Symbol.lexeme operator).isProper = true := by
  unfold Tier.ofLexeme? at h
  split at h
  all_goals first | decide | simp at h

theorem flatNames_isProper : (names : List String) → ∀ s ∈ flatNames names, s.isProper = true
  | [] => by simp [flatNames]
  | [name] => by simp [flatNames, Symbol.isProper]
  | name :: name' :: names => by
    simp only [flatNames, List.forall_mem_cons]
    exact ⟨rfl, rfl, flatNames_isProper (name' :: names)⟩

mutual

/-- All that a canonical expression is written with can be written. -/
theorem flat_isProper : (e : Node) → e.isCanonical = true → ∀ s ∈ e.flat, s.isProper = true
  | assign _ _ value, h => by
    simp only [flat, List.forall_mem_cons]
    exact ⟨rfl, rfl, flat_isProper value h⟩
  | logical _ operator left right, h => by
    simp only [isCanonical, Bool.and_eq_true, joins_iff] at h
    rcases h with ⟨⟨⟨T, htier, -⟩, hleft⟩, hright⟩
    simp only [flat, List.forall_mem_append, List.forall_mem_cons]
    exact ⟨flat_isProper left hleft, isProper_operator htier, flat_isProper right hright⟩
  | binary _ operator left right, h => by
    simp only [isCanonical, Bool.and_eq_true, joins_iff] at h
    rcases h with ⟨⟨⟨T, htier, -⟩, hleft⟩, hright⟩
    simp only [flat, List.forall_mem_append, List.forall_mem_cons]
    exact ⟨flat_isProper left hleft, isProper_operator htier, flat_isProper right hright⟩
  | unary _ operator operand, h => by
    simp only [isCanonical, Bool.and_eq_true, Bool.or_eq_true, beq_iff_eq] at h
    simp only [flat, List.forall_mem_cons]
    refine ⟨?_, flat_isProper operand h.2⟩
    rcases h.1.1 with rfl | rfl
    · rfl
    · rfl
  | call _ callee arguments, h => by
    simp only [isCanonical, Bool.and_eq_true] at h
    simp only [flat, List.forall_mem_append, List.forall_mem_cons]
    exact ⟨flat_isProper callee h.1.2, rfl, flatItems_isProper arguments h.2, rfl, by simp⟩
  | literal _ _, _ => by simp [flat, Symbol.isProper]
  | var _ _, _ => by simp [flat, Symbol.isProper]
  | grouping _ inner, h => by
    simp only [flat, List.forall_mem_append, List.forall_mem_cons]
    exact ⟨rfl, flat_isProper inner h, rfl, by simp⟩

theorem flatItems_isProper : (es : List Node) → allCanonical es = true →
    ∀ s ∈ flatItems es, s.isProper = true
  | [], _ => by simp [flatItems]
  | [e], h => by
    simp only [allCanonical, Bool.and_true] at h
    exact flat_isProper e h
  | e :: f :: es, h => by
    rw [allCanonical, Bool.and_eq_true] at h
    simp only [flatItems, List.forall_mem_append, List.forall_mem_cons]
    exact ⟨flat_isProper e h.1, rfl, flatItems_isProper (f :: es) h.2⟩

end

mutual

/-- So can all that a canonical statement is written with. -/
theorem flat_isProper_of_isCanonicalAs : (n : Node) → (L : Level) → n.isCanonicalAs L = true →
    ∀ s ∈ n.flat, s.isProper = true
  | function _ name params body, L, h => by
    simp only [isCanonicalAs, Bool.and_eq_true] at h
    simp only [flat, List.forall_mem_append, List.forall_mem_cons]
    exact ⟨rfl, rfl, rfl, flatNames_isProper params, rfl,
      flat_isProper_of_isCanonicalAs body .block h.2⟩
  | block _ statements, _, h => by
    simp only [flat, List.forall_mem_append, List.forall_mem_cons]
    exact ⟨rfl, flatAll_isProper statements h, rfl, by simp⟩
  | conditional _ condition thenBranch none, L, h => by
    simp only [isCanonicalAs, Bool.and_eq_true] at h
    simp only [flat, List.forall_mem_append, List.forall_mem_cons]
    exact ⟨rfl, flat_isProper condition h.1.2, rfl,
      flat_isProper_of_isCanonicalAs thenBranch .statement h.2⟩
  | conditional _ condition thenBranch (some elseBranch), L, h => by
    simp only [isCanonicalAs, Bool.and_eq_true] at h
    simp only [flat, List.forall_mem_append, List.forall_mem_cons]
    exact ⟨rfl, flat_isProper condition h.1.1.1.2, rfl,
      flat_isProper_of_isCanonicalAs thenBranch .statement h.1.1.2, rfl,
      flat_isProper_of_isCanonicalAs elseBranch .statement h.2⟩
  | loop _ condition body, L, h => by
    simp only [isCanonicalAs, Bool.and_eq_true] at h
    simp only [flat, List.forall_mem_append, List.forall_mem_cons]
    exact ⟨rfl, rfl, flat_isProper condition h.1.2, rfl,
      flat_isProper_of_isCanonicalAs body .statement h.2⟩
  | print _ value, L, h | return_ _ value, L, h => by
    simp only [isCanonicalAs, Bool.and_eq_true] at h
    simp only [flat, List.forall_mem_append, List.forall_mem_cons]
    exact ⟨rfl, flat_isProper value h.2, rfl, by simp⟩
  | expression _ value, L, h => by
    simp only [isCanonicalAs, Bool.and_eq_true] at h
    simp only [flat, List.forall_mem_append, List.forall_mem_cons]
    exact ⟨flat_isProper value h.2, rfl, by simp⟩

theorem flatAll_isProper : (ns : List Node) → allDeclared ns = true →
    ∀ s ∈ flatAll ns, s.isProper = true
  | [], _ => by simp [flatAll]
  | n :: ns, h => by
    rw [allDeclared, Bool.and_eq_true] at h
    simp only [flatAll, List.forall_mem_append]
    exact ⟨flat_isProper_of_isCanonicalAs n .declaration h.1, flatAll_isProper ns h.2⟩

end

/-! ## Canonical trees agree with themselves -/

mutual

/-- An expression agrees with itself if no literal in it differs from itself. -/
theorem agrees_self : (e : Node) → e.isCanonical = true → (∀ s ∈ e.flat, s.isNaN = false) →
    e.agrees e = true
  | assign _ _ value, h, hnan => by
    simp only [flat, List.forall_mem_cons] at hnan
    simp [agrees, agrees_self value h hnan.2.2]
  | logical _ operator left right, h, hnan => by
    simp only [isCanonical, Bool.and_eq_true] at h
    simp only [flat, List.forall_mem_append, List.forall_mem_cons] at hnan
    simp [agrees, agrees_self left h.1.2 hnan.1, agrees_self right h.2 hnan.2.2]
  | binary _ operator left right, h, hnan => by
    simp only [isCanonical, Bool.and_eq_true] at h
    simp only [flat, List.forall_mem_append, List.forall_mem_cons] at hnan
    simp [agrees, agrees_self left h.1.2 hnan.1, agrees_self right h.2 hnan.2.2]
  | unary _ operator operand, h, hnan => by
    simp only [isCanonical, Bool.and_eq_true] at h
    simp only [flat, List.forall_mem_cons] at hnan
    simp [agrees, agrees_self operand h.2 hnan.2]
  | call _ callee arguments, h, hnan => by
    simp only [isCanonical, Bool.and_eq_true] at h
    simp only [flat, List.forall_mem_append, List.forall_mem_cons] at hnan
    simp [agrees, agrees_self callee h.1.2 hnan.1, allAgree_self arguments h.2 hnan.2.2.1]
  | literal _ v, _, hnan => by
    simp only [flat, List.forall_mem_cons] at hnan
    exact Literal.agrees_self hnan.1
  | var _ _, _, _ => by simp [agrees]
  | grouping _ inner, h, hnan => by
    simp only [flat, List.forall_mem_append, List.forall_mem_cons] at hnan
    simp [agrees, agrees_self inner h hnan.2.1]

theorem allAgree_self : (es : List Node) → allCanonical es = true →
    (∀ s ∈ flatItems es, s.isNaN = false) → allAgree es es = true
  | [], _, _ => rfl
  | [e], h, hnan => by
    simp only [allCanonical, Bool.and_true] at h
    simp [allAgree, agrees_self e h hnan]
  | e :: f :: es, h, hnan => by
    rw [allCanonical, Bool.and_eq_true] at h
    simp only [flatItems, List.forall_mem_append, List.forall_mem_cons] at hnan
    rw [allAgree, agrees_self e h.1 hnan.1, allAgree_self (f :: es) h.2 hnan.2.2]
    rfl

end

mutual

/-- So does a statement. -/
theorem agrees_self_of_isCanonicalAs : (n : Node) → (L : Level) → n.isCanonicalAs L = true →
    (∀ s ∈ n.flat, s.isNaN = false) → n.agrees n = true
  | function _ name params body, L, h, hnan => by
    simp only [isCanonicalAs, Bool.and_eq_true] at h
    simp only [flat, List.forall_mem_append, List.forall_mem_cons] at hnan
    simp [agrees, agrees_self_of_isCanonicalAs body .block h.2 hnan.2.2.2.2.2]
  | block _ statements, _, h, hnan => by
    simp only [flat, List.forall_mem_append, List.forall_mem_cons] at hnan
    exact allAgree_self_of_allDeclared statements h hnan.2.1
  | conditional _ condition thenBranch none, L, h, hnan => by
    simp only [isCanonicalAs, Bool.and_eq_true] at h
    simp only [flat, List.forall_mem_append, List.forall_mem_cons] at hnan
    simp [agrees, agrees_self condition h.1.2 hnan.2.1,
      agrees_self_of_isCanonicalAs thenBranch .statement h.2 hnan.2.2.2]
  | conditional _ condition thenBranch (some elseBranch), L, h, hnan => by
    simp only [isCanonicalAs, Bool.and_eq_true] at h
    simp only [flat, List.forall_mem_append, List.forall_mem_cons] at hnan
    simp [agrees, agrees_self condition h.1.1.1.2 hnan.2.1,
      agrees_self_of_isCanonicalAs thenBranch .statement h.1.1.2 hnan.2.2.2.1,
      agrees_self_of_isCanonicalAs elseBranch .statement h.2 hnan.2.2.2.2.2]
  | loop _ condition body, L, h, hnan => by
    simp only [isCanonicalAs, Bool.and_eq_true] at h
    simp only [flat, List.forall_mem_append, List.forall_mem_cons] at hnan
    simp [agrees, agrees_self condition h.1.2 hnan.2.2.1,
      agrees_self_of_isCanonicalAs body .statement h.2 hnan.2.2.2.2]
  | print _ value, L, h, hnan | return_ _ value, L, h, hnan => by
    simp only [isCanonicalAs, Bool.and_eq_true] at h
    simp only [flat, List.forall_mem_append, List.forall_mem_cons] at hnan
    simp [agrees, agrees_self value h.2 hnan.2.1]
  | expression _ value, L, h, hnan => by
    simp only [isCanonicalAs, Bool.and_eq_true] at h
    simp only [flat, List.forall_mem_append] at hnan
    simp [agrees, agrees_self value h.2 hnan.1]

theorem allAgree_self_of_allDeclared : (ns : List Node) → allDeclared ns = true →
    (∀ s ∈ flatAll ns, s.isNaN = false) → allAgree ns ns = true
  | [], _, _ => rfl
  | n :: ns, h, hnan => by
    rw [allDeclared, Bool.and_eq_true] at h
    simp only [flatAll, List.forall_mem_append] at hnan
    rw [allAgree, agrees_self_of_isCanonicalAs n .declaration h.1 hnan.1,
      allAgree_self_of_allDeclared ns h.2 hnan.2]
    rfl

end

end Node

end ScriptCheck
