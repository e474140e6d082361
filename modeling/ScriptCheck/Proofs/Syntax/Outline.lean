import ScriptCheck.Proofs.Syntax.Agreement
import ScriptCheck.Proofs.Text.Documents

/-!
# Outlines read back

The outline of a tree tells all of it. A node is read back from the object that it is written as:
the kind names its form, and each of its parts is found under its own name (`Node.ofParts?`), so
that nothing is lost and no form is taken for another (`Node.ofOutline?_outline`). The texts of
outlines differ where the trees do, if no number in them is a floating-point number
(`Node.outline_faithful`).
-/

namespace ScriptCheck

/-- What a value in an outline may be read as: data, a node, or a row of nodes. -/
structure Part where
  data : Json
  node? : Option Node := none
  nodes? : Option (List Node) := none

namespace Part

/-- Data that is an integer. -/
def int? (p : Part) : Option Int :=
  match p.data with
  | .int i => some i
  | _ => none

/-- Data that is a text. -/
def text? (p : Part) : Option String :=
  match p.data with
  | .text s => some s
  | _ => none

/-- Data that is a row of texts. -/
def texts? (p : Part) : Option (List String) :=
  match p.data with
  | .list items => items.mapM fun item => ({ data := item } : Part).text?
  | _ => none

/-- Data that is the value of a literal. -/
def literal? (p : Part) : Option Literal :=
  match p.data with
  | .null => some .nil
  | .bool b => some (.bool b)
  | .int i => some (.int i)
  | .float x => some (.float x)
  | .text s => some (.text s)
  | _ => none

/-- A child that may be left out. -/
def child? (p : Part) : Option (Option Node) :=
  match p.data with
  | .null => some none
  | _ => p.node?.map some

end Part

/-- The field of the given name, read in the given way. -/
def field {α : Type} (parts : List (String × Part)) (key : String) (read : Part → Option α) :
    Option α :=
  (parts.lookup key).bind read

/-- The node of these fields: its form is the one that its kind names, and every field of this form
is found by its name. -/
def Node.ofParts? (parts : List (String × Part)) : Option Node := do
  let kind ← field parts "kind" Part.text?
  let line ← field parts "line" Part.int?
  match kind with
  | "program" => program line <$> field parts "statements" Part.nodes?
  | "function" =>
    function line <$> field parts "name" Part.text? <*> field parts "params" Part.texts?
      <*> field parts "body" Part.node?
  | "var_binding" =>
    binding line <$> field parts "name" Part.text? <*> field parts "initializer" Part.child?
  | "block" => block line <$> field parts "statements" Part.nodes?
  | "if" =>
    conditional line <$> field parts "condition" Part.node? <*> field parts "then_branch" Part.node?
      <*> field parts "else_branch" Part.child?
  | "while" => loop line <$> field parts "condition" Part.node? <*> field parts "body" Part.node?
  | "print" => print line <$> field parts "expression" Part.node?
  | "return" => return_ line <$> field parts "value" Part.node?
  | "expression_stmt" => expression line <$> field parts "expression" Part.node?
  | "assign" => assign line <$> field parts "target" Part.text? <*> field parts "value" Part.node?
  | "logical" =>
    logical line <$> field parts "operator" Part.text? <*> field parts "left" Part.node?
      <*> field parts "right" Part.node?
  | "binary" =>
    binary line <$> field parts "operator" Part.text? <*> field parts "left" Part.node?
      <*> field parts "right" Part.node?
  | "unary" =>
    unary line <$> field parts "operator" Part.text? <*> field parts "operand" Part.node?
  | "call" => call line <$> field parts "callee" Part.node? <*> field parts "arguments" Part.nodes?
  | "literal" => literal line <$> field parts "value" Part.literal?
  | "variable" => var line <$> field parts "name" Part.text?
  | "grouping" => grouping line <$> field parts "expression" Part.node?
  | "node" => some (bare line)
  | _ => none

namespace Part

mutual

/-- Read a value, from the values in it on. -/
def ofJson : Json → Part
  | .object fields => { data := .object fields, node? := Node.ofParts? (ofFields fields) }
  | .list items => { data := .list items, nodes? := ofItems? items }
  | data => { data }

/-- Read a row of nodes. -/
def ofItems? : List Json → Option (List Node)
  | [] => some []
  | item :: items => List.cons <$> (ofJson item).node? <*> ofItems? items

/-- Read all fields. -/
def ofFields : List (String × Json) → List (String × Part)
  | [] => []
  | (key, value) :: fields => (key, ofJson value) :: ofFields fields

end

end Part

/-- The tree of an outline. -/
def Node.ofOutline? (outline : Json) : Option Node :=
  (Part.ofJson outline).node?

/-! ## Reading back -/

section

variable {α : Type} {key key' : String} {p : Part} {parts : List (String × Part)}
  {read : Part → Option α}

@[simp] theorem field_cons_self : field ((key, p) :: parts) key read = read p := by
  simp [field]

@[simp] theorem field_cons_of_ne (h : key ≠ key') :
    field ((key', p) :: parts) key read = field parts key read := by
  have hne : (key == key') = false := by simpa using h
  rw [field, List.lookup_cons, hne, field]

end

namespace Part

@[simp] theorem data_ofJson (j : Json) : (ofJson j).data = j := by
  cases j <;> rfl

@[simp] theorem text?_ofJson_text (s : String) : (ofJson (.text s)).text? = some s :=
  rfl

@[simp] theorem int?_ofJson_int (i : Int) : (ofJson (.int i)).int? = some i :=
  rfl

@[simp] theorem literal?_ofJson_outline (v : Literal) : (ofJson v.outline).literal? = some v := by
  cases v <;> rfl

@[simp] theorem texts?_ofJson_list (ss : List String) :
    (ofJson (.list (ss.map .text))).texts? = some ss := by
  rw [texts?, data_ofJson]
  dsimp only
  induction ss with
  | nil => rfl
  | cons s ss ih => rw [List.map_cons, List.mapM_cons, ih]; rfl

@[simp] theorem nodes?_ofJson_list (items : List Json) :
    (ofJson (.list items)).nodes? = ofItems? items :=
  rfl

@[simp] theorem child?_ofJson_null : (ofJson .null).child? = some none :=
  rfl

@[simp] theorem child?_ofJson_outline (n : Node) :
    (ofJson n.outline).child? = (ofJson n.outline).node?.map some := by
  rcases n.exists_outline with ⟨fields, hn⟩
  rw [hn]
  rfl

end Part

namespace Node

theorem ofOutline?_node (kind : String) (line : Int) (fields : List (String × Json)) :
    ofOutline? (.node kind line fields) =
      ofParts? (("kind", .ofJson (.text kind)) :: ("line", .ofJson (.int line)) ::
        Part.ofFields fields) :=
  rfl

theorem ofItems?_outlineAll {ns : List Node}
    (h : ∀ n ∈ ns, (Part.ofJson n.outline).node? = some n) :
    Part.ofItems? (outlineAll ns) = some ns := by
  induction ns with
  | nil => rfl
  | cons n ns ih =>
    rcases List.forall_mem_cons.mp h with ⟨hn, hns⟩
    rw [outlineAll, Part.ofItems?, hn, ih hns]
    rfl

/-- Reading the outline of a tree gives the tree. -/
theorem ofOutline?_outline (n : Node) : ofOutline? n.outline = some n := by
  induction n using induction_children with
  | h n ih =>
    simp only [ofOutline?] at ih
    cases n with
    | program line ns | block line ns =>
      have hns : Part.ofItems? (outlineAll ns) = some ns := ofItems?_outlineAll ih
      simp [outline, ofOutline?_node, Part.ofFields, ofParts?, hns]
    | call line e es =>
      rcases List.forall_mem_cons.mp ih with ⟨he, hes⟩
      simp [outline, ofOutline?_node, Part.ofFields, ofParts?, he, ofItems?_outlineAll hes]
    | binding line name e =>
      cases e with
      | none => simp [outline, ofOutline?_node, Part.ofFields, ofParts?]
      | some e => simp [outline, ofOutline?_node, Part.ofFields, ofParts?, ih e (.head _)]
    | conditional line e n m =>
      have he := ih e (.head _)
      have hn := ih n (.tail _ (.head _))
      cases m with
      | none => simp [outline, ofOutline?_node, Part.ofFields, ofParts?, he, hn]
      | some m =>
        have hm := ih m (.tail _ (.tail _ (.head _)))
        simp [outline, ofOutline?_node, Part.ofFields, ofParts?, he, hn, hm]
    | loop line e f | logical line op e f | binary line op e f =>
      have he := ih e (.head _)
      have hf := ih f (.tail _ (.head _))
      simp [outline, ofOutline?_node, Part.ofFields, ofParts?, he, hf]
    | function line f ps e | print line e | return_ line e | expression line e | assign line x e
    | unary line op e | grouping line e =>
      simp [outline, ofOutline?_node, Part.ofFields, ofParts?, ih e (.head _)]
    | literal line v | var line x | bare line =>
      simp [outline, ofOutline?_node, Part.ofFields, ofParts?]

/-! ## Texts of outlines -/

/-- Whether no literal in a tree is a floating-point number. -/
def Floatless (n : Node) : Prop :=
  ∀ m ∈ n.walk, ∀ line x, m ≠ .literal line (.float x)

variable {n c : Node}

theorem Floatless.of_mem_children (h : n.Floatless) (hc : c ∈ n.children) : c.Floatless := by
  intro m hm
  apply h m
  rw [walk_eq]
  exact List.mem_cons_of_mem _ (List.mem_flatMap.mpr ⟨c, hc, hm⟩)

theorem Floatless.literal {line : Int} {v : Literal} (h : (Node.literal line v).Floatless) :
    v.outline.Floatless := by
  cases v with
  | float x => exact absurd rfl (h _ (by simp [walk]) line x)
  | _ => simp [Literal.outline]

/-- The outline of a tree without floating-point numbers is a document without them. -/
theorem Floatless.outline (h : n.Floatless) : n.outline.Floatless := by
  induction n using induction_children with
  | h n ih =>
    have hchildren := fun c hc => ih c hc (h.of_mem_children hc)
    -- A part of an outline is a text, a row of texts, or the outline of a child.
    cases n with
    | literal line v => simp [Node.outline, Json.node, h.literal]
    | var line x | bare line => simp [Node.outline, Json.node]
    | binding line name e =>
      cases e with
      | none => simp [Node.outline, Json.node]
      | some e => simpa [Node.outline, Json.node, children] using hchildren
    | conditional line e n m =>
      cases m <;> simpa [Node.outline, Json.node, children] using hchildren
    | _ => simpa [Node.outline, Json.node, outlineAll_eq, children] using hchildren

/-- Outlines are faithful. Trees without floating-point numbers whose outlines have the same text
are the same, with all their lines, and whatever the numbers in a tree, it can be read back from its
outline by the names of kinds and fields. -/
theorem outline_faithful {p q : Node} (hp : p.Floatless) (hq : q.Floatless) :
    (p.outline.render = q.outline.render → p = q) ∧ ∀ n : Node, ofOutline? n.outline = some n := by
  refine ⟨fun h => ?_, ofOutline?_outline⟩
  have houtline := Json.render_inj hp.outline hq.outline h
  have hread := congrArg ofOutline? houtline
  rw [ofOutline?_outline, ofOutline?_outline] at hread
  exact Option.some.inj hread

/-- The program that declares a name, with the value that it starts with or without one. -/
def declaring (initializer : Option Node) : Node :=
  .program 1 [.binding 1 "x" initializer]

/-- A value that is nil is told from none: although both are null, one of them is the value of a
literal. -/
theorem outline_faithful_declaring :
    (declaring none).outline.render ≠ (declaring (some (.literal 1 .nil))).outline.render ∧
      ofOutline? (declaring (some (.literal 1 .nil))).outline =
        some (declaring (some (.literal 1 .nil))) := by
  have hnone : (declaring none).Floatless := by
    simp [Floatless, declaring, walk, walkAll]
  have hnil : (declaring (some (.literal 1 .nil))).Floatless := by
    simp [Floatless, declaring, walk, walkAll]
  rcases outline_faithful hnone hnil with ⟨htexts, hread⟩
  refine ⟨fun h => ?_, hread _⟩
  have heq := htexts h
  simp [declaring] at heq

end Node

end ScriptCheck
