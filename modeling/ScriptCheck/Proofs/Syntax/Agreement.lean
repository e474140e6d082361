import Mathlib.Data.List.Forall2
import ScriptCheck.Proofs.Syntax.Written
import ScriptCheck.Syntax.Outline
import ScriptCheck.Syntax.Walk

/-!
# Agreement, node by node

A node by itself has a form, the words it is written with, and a literal or none. Trees agree if
their roots look alike in this way (`Node.LooksLike`) and their children agree in order
(`Node.agrees_iff`). Data without lines is the same under the same conditions
(`Node.same_content_iff`), so that agreement of trees is sameness of their outlines, lines aside.
-/

namespace ScriptCheck

/-! ## Data without lines -/

namespace Json

mutual

/-- Data without the fields, at whatever depth, that give a line. -/
def withoutLines : Json → Json
  | null => null
  | bool b => bool b
  | int i => int i
  | float x => float x
  | text s => text s
  | list items => list (itemsWithoutLines items)
  | object fields => object (fieldsWithoutLines fields)

/-- Items without lines. -/
def itemsWithoutLines : List Json → List Json
  | [] => []
  | item :: items => item.withoutLines :: itemsWithoutLines items

/-- Fields without lines. -/
def fieldsWithoutLines : List (String × Json) → List (String × Json)
  | [] => []
  | (key, value) :: fields =>
    if key = "line" then fieldsWithoutLines fields
    else (key, value.withoutLines) :: fieldsWithoutLines fields

end

theorem itemsWithoutLines_eq (items : List Json) :
    itemsWithoutLines items = items.map withoutLines := by
  induction items with
  | nil => rfl
  | cons item items ih => rw [itemsWithoutLines, ih, List.map_cons]

/-- Data is the same if it is of one type and has equal values. Items are compared in order and the
fields of an object by name. -/
inductive Same : Json → Json → Prop where
  | null : Same .null .null
  | bool (b : Bool) : Same (.bool b) (.bool b)
  | int (i : Int) : Same (.int i) (.int i)
  | float {x y : Binary64} : x.sameValue y = true → Same (.float x) (.float y)
  | text (s : String) : Same (.text s) (.text s)
  | list {items items' : List Json} :
      List.Forall₂ Same items items' → Same (.list items) (.list items')
  | object {fields fields' : List (String × Json)} :
      (∀ key, Option.Rel Same (fields.lookup key) (fields'.lookup key)) →
      Same (.object fields) (.object fields')

@[simp] theorem same_text_iff {s t : String} : Same (.text s) (.text t) ↔ s = t := by
  constructor
  · rintro ⟨⟩
    rfl
  · rintro rfl
    exact .text s

@[simp] theorem same_list_iff {items items' : List Json} :
    Same (.list items) (.list items') ↔ List.Forall₂ Same items items' := by
  constructor
  · rintro ⟨⟩
    assumption
  · exact .list

/-- Rows of texts are the same if they are equal. -/
theorem same_texts_iff {ss ts : List String} :
    List.Forall₂ Same (itemsWithoutLines (ss.map .text)) (itemsWithoutLines (ts.map .text)) ↔
      ss = ts := by
  rw [itemsWithoutLines_eq, itemsWithoutLines_eq, List.map_map, List.map_map,
    List.forall₂_map_left_iff, List.forall₂_map_right_iff, ← List.forall₂_eq_eq_eq]
  simp only [Function.comp_apply, withoutLines, same_text_iff]

theorem not_same_null_object {fields : List (String × Json)} :
    ¬ Same .null (.object fields) ∧ ¬ Same (.object fields) .null :=
  ⟨nofun, nofun⟩

section

variable {key : String} {value value' : Json} {fields fields' : List (String × Json)}

/-- A field that comes first is the one of its name. -/
theorem Same.of_cons (h : Same (.object ((key, value) :: fields))
    (.object ((key, value') :: fields'))) : Same value value' := by
  cases h with
  | object h => simpa [List.lookup_cons] using h key

/-- Objects with the same names, each once, are compared field by field. -/
@[simp] theorem same_object_cons_iff (hno : fields.lookup key = none)
    (hno' : fields'.lookup key = none) :
    Same (.object ((key, value) :: fields)) (.object ((key, value') :: fields')) ↔
      Same value value' ∧ Same (.object fields) (.object fields') := by
  constructor
  · intro h
    refine ⟨h.of_cons, ?_⟩
    cases h with
    | object h =>
      refine .object fun other => ?_
      by_cases hkey : other = key
      · rw [hkey, hno, hno']
        exact .none
      · have hother : (other == key) = false := by simpa using hkey
        simpa [List.lookup_cons, hother] using h other
  · rintro ⟨hvalue, hfields⟩
    cases hfields with
    | object h =>
      refine .object fun other => ?_
      by_cases hkey : other = key
      · simpa [List.lookup_cons, hkey] using hvalue
      · have hother : (other == key) = false := by simpa using hkey
        simpa [List.lookup_cons, hother] using h other

@[simp] theorem same_object_singleton_iff :
    Same (.object [(key, value)]) (.object [(key, value')]) ↔ Same value value' := by
  rw [same_object_cons_iff rfl rfl, and_iff_left]
  exact .object fun _ => .none

end

end Json

/-- The name of a literal's type. -/
def Literal.typeName : Literal → String
  | nil => "nil"
  | bool _ => "bool"
  | int _ => "int"
  | float _ => "float"
  | text _ => "text"

theorem Literal.typeName_eq_of_agrees {v w : Literal} (h : v.agrees w = true) :
    v.typeName = w.typeName := by
  cases v <;> cases w <;> first | rfl | cases h

/-- The outlines of literals are the same if the literals agree. -/
theorem Literal.same_outline_iff {v w : Literal} :
    Json.Same v.outline.withoutLines w.outline.withoutLines ↔ v.agrees w = true := by
  constructor
  · intro h
    cases v <;> cases w <;> cases h <;> first | assumption | simp [agrees]
  · intro h
    cases v <;> cases w <;> simp only [agrees, beq_iff_eq, Bool.false_eq_true] at h
    · exact .null
    · exact h ▸ .bool _
    · exact h ▸ .int _
    · exact .float h
    · exact h ▸ .text _

namespace Node

/-! ## One node -/

/-- The words that a node is written with: its operator, or the names in it. -/
def words : Node → List String
  | function _ name params _ => name :: params
  | binding _ name _ | assign _ name _ | var _ name => [name]
  | logical _ operator _ _ | binary _ operator _ _ | unary _ operator _ => [operator]
  | _ => []

/-- The value of a node that is a literal. -/
def literal? : Node → Option Literal
  | literal _ value => some value
  | _ => none

/-- Whether two nodes are alike by themselves, whatever is below them. -/
structure LooksLike (n m : Node) : Prop where
  kind_eq : n.kind = m.kind
  words_eq : n.words = m.words
  literal_agrees : Option.Rel (fun v w => v.agrees w = true) n.literal? m.literal?

/-- Two nodes of one form. -/
inductive SameForm : Node → Node → Prop where
  | program (l l' : Int) (ns ns' : List Node) : SameForm (.program l ns) (.program l' ns')
  | function (l l' : Int) (f f' : String) (ps ps' : List String) (n n' : Node) :
      SameForm (.function l f ps n) (.function l' f' ps' n')
  | binding (l l' : Int) (x x' : String) (e e' : Option Node) :
      SameForm (.binding l x e) (.binding l' x' e')
  | block (l l' : Int) (ns ns' : List Node) : SameForm (.block l ns) (.block l' ns')
  | conditional (l l' : Int) (e e' n n' : Node) (m m' : Option Node) :
      SameForm (.conditional l e n m) (.conditional l' e' n' m')
  | loop (l l' : Int) (e e' n n' : Node) : SameForm (.loop l e n) (.loop l' e' n')
  | print (l l' : Int) (e e' : Node) : SameForm (.print l e) (.print l' e')
  | return_ (l l' : Int) (e e' : Node) : SameForm (.return_ l e) (.return_ l' e')
  | expression (l l' : Int) (e e' : Node) : SameForm (.expression l e) (.expression l' e')
  | assign (l l' : Int) (x x' : String) (e e' : Node) :
      SameForm (.assign l x e) (.assign l' x' e')
  | logical (l l' : Int) (op op' : String) (e e' f f' : Node) :
      SameForm (.logical l op e f) (.logical l' op' e' f')
  | binary (l l' : Int) (op op' : String) (e e' f f' : Node) :
      SameForm (.binary l op e f) (.binary l' op' e' f')
  | unary (l l' : Int) (op op' : String) (e e' : Node) :
      SameForm (.unary l op e) (.unary l' op' e')
  | call (l l' : Int) (e e' : Node) (es es' : List Node) :
      SameForm (.call l e es) (.call l' e' es')
  | literal (l l' : Int) (v v' : Literal) : SameForm (.literal l v) (.literal l' v')
  | var (l l' : Int) (x x' : String) : SameForm (.var l x) (.var l' x')
  | grouping (l l' : Int) (e e' : Node) : SameForm (.grouping l e) (.grouping l' e')
  | bare (l l' : Int) : SameForm (.bare l) (.bare l')

variable {n m : Node}

/-- The kind of a node is its form. -/
theorem sameForm_of_kind_eq (h : n.kind = m.kind) : SameForm n m := by
  cases n <;> cases m <;> first | constructor | simp [kind] at h

/-! ## Agreement -/

theorem allAgree_iff {ns ms : List Node} :
    allAgree ns ms = true ↔ List.Forall₂ (fun n m => n.agrees m = true) ns ms := by
  induction ns generalizing ms with
  | nil => cases ms <;> simp [allAgree]
  | cons n ns ih => cases ms <;> simp [allAgree, ih]

theorem kind_eq_of_agrees : n.agrees m = true → n.kind = m.kind := by
  fun_cases agrees n m <;> simp [kind]

theorem agrees_iff_of_sameForm (h : SameForm n m) :
    n.agrees m = true ↔
      (n.words = m.words ∧ Option.Rel (fun v w => v.agrees w = true) n.literal? m.literal?) ∧
        List.Forall₂ (fun n m => n.agrees m = true) n.children m.children := by
  cases h with
  | binding _ _ _ _ e e' => cases e <;> cases e' <;> simp [agrees, words, literal?, children]
  | conditional _ _ _ _ _ _ e e' =>
    cases e <;> cases e' <;> simp [agrees, words, literal?, children, and_assoc]
  | _ => simp [agrees, words, literal?, children, allAgree_iff, and_assoc]

/-- Trees agree if their roots look alike and their children agree in order. -/
theorem agrees_iff :
    n.agrees m = true ↔
      n.LooksLike m ∧ List.Forall₂ (fun n m => n.agrees m = true) n.children m.children := by
  constructor
  · intro h
    have hkind := kind_eq_of_agrees h
    rcases (agrees_iff_of_sameForm (sameForm_of_kind_eq hkind)).mp h
      with ⟨⟨hwords, hliteral⟩, hchildren⟩
    exact ⟨⟨hkind, hwords, hliteral⟩, hchildren⟩
  · rintro ⟨⟨hkind, hwords, hliteral⟩, hchildren⟩
    exact (agrees_iff_of_sameForm (sameForm_of_kind_eq hkind)).mpr
      ⟨⟨hwords, hliteral⟩, hchildren⟩

/-! ## Contents -/

/-- A tree as data, its lines aside. -/
def content (n : Node) : Json :=
  n.outline.withoutLines

theorem content_of_outline {kind : String} {line : Int} {fields : List (String × Json)}
    (h : n.outline = .node kind line fields) :
    n.content = .object (("kind", .text kind) :: Json.fieldsWithoutLines fields) := by
  rw [content, h]
  rfl

theorem exists_outline (n : Node) : ∃ fields, n.outline = .node n.kind n.line fields := by
  cases n with
  | binding _ _ e => cases e <;> exact ⟨_, rfl⟩
  | conditional _ _ _ e => cases e <;> exact ⟨_, rfl⟩
  | _ => exact ⟨_, rfl⟩

theorem kind_eq_of_same (h : Json.Same n.content m.content) : n.kind = m.kind := by
  rcases n.exists_outline with ⟨fields, hn⟩
  rcases m.exists_outline with ⟨fields', hm⟩
  rw [content_of_outline hn, content_of_outline hm] at h
  exact Json.same_text_iff.mp h.of_cons

theorem same_contents_iff {ns ms : List Node} :
    List.Forall₂ Json.Same (Json.itemsWithoutLines (outlineAll ns))
        (Json.itemsWithoutLines (outlineAll ms)) ↔
      List.Forall₂ (fun n m => Json.Same n.content m.content) ns ms := by
  rw [Json.itemsWithoutLines_eq, Json.itemsWithoutLines_eq, outlineAll_eq, outlineAll_eq,
    List.map_map, List.map_map, List.forall₂_map_left_iff, List.forall₂_map_right_iff]
  rfl

theorem not_same_null :
    ¬ Json.Same .null n.outline.withoutLines ∧ ¬ Json.Same n.outline.withoutLines .null := by
  rcases n.exists_outline with ⟨fields, hn⟩
  rw [hn]
  exact Json.not_same_null_object

theorem same_content_iff_of_sameForm (h : SameForm n m) :
    Json.Same n.content m.content ↔
      (n.words = m.words ∧ Option.Rel (fun v w => v.agrees w = true) n.literal? m.literal?) ∧
        List.Forall₂ (fun n m => Json.Same n.content m.content) n.children m.children := by
  cases h with
  | binding _ _ _ _ e e' =>
    cases e <;> cases e' <;>
      simp [content, outline, Json.node, Json.withoutLines, Json.fieldsWithoutLines, words,
        literal?, children, Json.Same.null, not_same_null]
  | conditional _ _ _ _ _ _ e e' =>
    cases e <;> cases e' <;>
      simp [content, outline, Json.node, Json.withoutLines, Json.fieldsWithoutLines, words,
        literal?, children, Json.Same.null, not_same_null]
  | _ =>
    simp [content, outline, Json.node, Json.withoutLines, Json.fieldsWithoutLines, words,
      literal?, children, same_contents_iff, Json.same_texts_iff, Literal.same_outline_iff,
      and_assoc]

/-- Contents are the same if the roots look alike and the contents of the children are the same in
order. -/
theorem same_content_iff :
    Json.Same n.content m.content ↔
      n.LooksLike m ∧
        List.Forall₂ (fun n m => Json.Same n.content m.content) n.children m.children := by
  constructor
  · intro h
    have hkind := kind_eq_of_same h
    rcases (same_content_iff_of_sameForm (sameForm_of_kind_eq hkind)).mp h
      with ⟨⟨hwords, hliteral⟩, hchildren⟩
    exact ⟨⟨hkind, hwords, hliteral⟩, hchildren⟩
  · rintro ⟨⟨hkind, hwords, hliteral⟩, hchildren⟩
    exact (same_content_iff_of_sameForm (sameForm_of_kind_eq hkind)).mpr
      ⟨⟨hwords, hliteral⟩, hchildren⟩

/-! ## Whole trees -/

/-- There are fewer nodes below a child than below its parent. -/
theorem count_lt_of_mem_children (h : n ∈ m.children) : n.count < m.count := by
  have hsublist : List.Sublist n.walk (m.children.flatMap walk) := by
    rw [List.flatMap_def]
    exact List.sublist_flatten_of_mem (List.mem_map_of_mem h)
  rw [count, count, m.walk_eq, List.length_cons]
  exact Nat.lt_succ_of_le hsublist.length_le

/-- What holds of a node if it holds of its children holds of all nodes. -/
theorem induction_children {P : Node → Prop} (h : ∀ n, (∀ c ∈ n.children, P c) → P n) (n : Node) :
    P n :=
  h n fun c _ => induction_children h c
termination_by n.count
decreasing_by exact count_lt_of_mem_children ‹_›

theorem forall₂_iff_of_mem {R S : Node → Node → Prop} {ns ms : List Node}
    (h : ∀ n ∈ ns, ∀ m, R n m ↔ S n m) : List.Forall₂ R ns ms ↔ List.Forall₂ S ns ms := by
  induction ns generalizing ms with
  | nil => simp
  | cons n ns ih =>
    rcases List.forall_mem_cons.mp h with ⟨hn, hns⟩
    cases ms with
    | nil => simp
    | cons m ms => rw [List.forall₂_cons, List.forall₂_cons, hn m, ih hns]

/-- Agreement of trees is sameness of their contents. -/
theorem agrees_iff_same_content : n.agrees m = true ↔ Json.Same n.content m.content := by
  induction n using induction_children generalizing m with
  | h n ih =>
    rw [agrees_iff, same_content_iff, forall₂_iff_of_mem fun c hc d => @ih c hc d]

/-! ## Paths -/

/-- The node that a path of indices of children leads to. -/
def at? : (path : List Nat) → Node → Option Node
  | [], n => some n
  | i :: path, n => n.children[i]?.bind (at? path)

theorem rel_getElem? {R : Node → Node → Prop} {ns ms : List Node} (h : List.Forall₂ R ns ms)
    (i : Nat) : Option.Rel R ns[i]? ms[i]? := by
  induction h generalizing i with
  | nil => exact .none
  | cons hn _ ih =>
    cases i with
    | zero => exact .some hn
    | succ i => exact ih i

/-- Where trees agree, what is below them agrees. -/
theorem agrees_at {path : List Nat} {c d : Node} (h : n.agrees m = true) (hn : n.at? path = some c)
    (hm : m.at? path = some d) : c.agrees d = true := by
  induction path generalizing n m with
  | nil =>
    cases hn
    cases hm
    exact h
  | cons i path ih =>
    rcases Option.bind_eq_some_iff.mp hn with ⟨e, he, hc⟩
    rcases Option.bind_eq_some_iff.mp hm with ⟨f, hf, hd⟩
    have hchild := rel_getElem? (agrees_iff.mp h).2 i
    rw [he, hf] at hchild
    cases hchild with
    | some hchild => exact ih hchild hc hd

/-- Whether two nodes differ by themselves: in their form, in an operator or a name, in the number
of their children, or in the type of their literals. -/
def DiffersFrom (n m : Node) : Prop :=
  n.kind ≠ m.kind ∨ n.words ≠ m.words ∨ n.children.length ≠ m.children.length ∨
    n.literal?.map Literal.typeName ≠ m.literal?.map Literal.typeName

theorem agrees_of_differsFrom (h : n.DiffersFrom m) : n.agrees m = false := by
  rw [← Bool.not_eq_true, agrees_iff]
  rintro ⟨⟨hkind, hwords, hliteral⟩, hchildren⟩
  rcases h with h | h | h | h
  · exact h hkind
  · exact h hwords
  · exact h hchildren.length_eq
  · apply h
    generalize n.literal? = v, m.literal? = w at hliteral
    cases hliteral with
    | none => rfl
    | some hagrees => simp [Literal.typeName_eq_of_agrees hagrees]

/-! ## Lines -/

theorem eraseAllLines_eq (ns : List Node) : eraseAllLines ns = ns.map eraseLines := by
  induction ns with
  | nil => rfl
  | cons n ns ih => rw [eraseAllLines, ih, List.map_cons]

theorem children_eraseLines (n : Node) : n.eraseLines.children = n.children.map eraseLines := by
  cases n with
  | binding _ _ e => cases e <;> simp [eraseLines, children]
  | conditional _ _ _ e => cases e <;> simp [eraseLines, children]
  | _ => simp [eraseLines, children, eraseAllLines_eq]

theorem looksLike_eraseLines_iff : n.LooksLike m.eraseLines ↔ n.LooksLike m := by
  have hsame : m.eraseLines.kind = m.kind ∧ m.eraseLines.words = m.words ∧
      m.eraseLines.literal? = m.literal? := by
    cases m with
    | binding _ _ e => cases e <;> exact ⟨rfl, rfl, rfl⟩
    | conditional _ _ _ e => cases e <;> exact ⟨rfl, rfl, rfl⟩
    | _ => exact ⟨rfl, rfl, rfl⟩
  rcases hsame with ⟨hkind, hwords, hliteral⟩
  constructor
  · rintro ⟨h, h', h''⟩
    exact ⟨h.trans hkind, h'.trans hwords, hliteral ▸ h''⟩
  · rintro ⟨h, h', h''⟩
    exact ⟨h.trans hkind.symm, h'.trans hwords.symm, hliteral ▸ h''⟩

/-- The lines of the second tree are compared no more than those of the first. -/
theorem agrees_eraseLines (n m : Node) : n.agrees m.eraseLines = n.agrees m := by
  rw [Bool.eq_iff_iff]
  induction n using induction_children generalizing m with
  | h n ih =>
    rw [agrees_iff, agrees_iff, looksLike_eraseLines_iff, children_eraseLines,
      List.forall₂_map_right_iff, forall₂_iff_of_mem ih]

/-- Trees agree exactly if their outlines are the same in everything but lines. So lines may be
changed anywhere, and trees that differ anywhere in form, operator, name, number of parts or type of
literal do not agree. -/
theorem agrees_iff_same_outlines (a b : Node) :
    (a.agrees b = true ↔ Json.Same a.outline.withoutLines b.outline.withoutLines) ∧
    (∀ a' b' : Node, a'.eraseLines = a.eraseLines → b'.eraseLines = b.eraseLines →
      a'.agrees b' = a.agrees b) ∧
    (∀ path n m, a.at? path = some n → b.at? path = some m → n.DiffersFrom m →
      a.agrees b = false) := by
  refine ⟨agrees_iff_same_content, ?_, ?_⟩
  · intro a' b' ha hb
    rw [← eraseLines_agrees, ← agrees_eraseLines, ha, hb, agrees_eraseLines, eraseLines_agrees]
  · intro path n m hn hm hdiffers
    rw [← Bool.not_eq_true]
    intro h
    exact absurd (agrees_at h hn hm) (by simp [agrees_of_differsFrom hdiffers])

/-- The program that prints a value. -/
def printing (line : Int) (value : Literal) : Node :=
  .program line [.print line (.literal line value)]

/-- An integer on another line is the same, and the truth value that could stand for it is not. -/
theorem agrees_iff_same_outlines_printing :
    (printing 2 (.int 1)).agrees (printing 3 (.int 1)) = true ∧
      ¬ Json.Same (printing 1 (.int 1)).outline.withoutLines
        (printing 1 (.bool true)).outline.withoutLines := by
  constructor
  · have hself : (printing 1 (.int 1)).agrees (printing 1 (.int 1)) = true := by decide
    rw [← hself]
    exact (agrees_iff_same_outlines (printing 1 (.int 1)) (printing 1 (.int 1))).2.1 _ _ rfl rfl
  · rcases agrees_iff_same_outlines (printing 1 (.int 1)) (printing 1 (.bool true))
      with ⟨hsame, -, hdiffers⟩
    have hat := hdiffers [0, 0] (.literal 1 (.int 1)) (.literal 1 (.bool true)) rfl rfl
      (Or.inr (Or.inr (Or.inr (by decide))))
    rw [← hsame, hat]
    simp

end Node

end ScriptCheck
