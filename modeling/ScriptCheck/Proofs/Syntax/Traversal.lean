import Mathlib
import ScriptCheck.Proofs.Syntax.Agreement

/-!
# Ways through a tree

Three readings of a tree come to the same nodes. A walk visits every place of the tree once, each
node in front of what is below it (`Node.inPreorder_walk`). The children of a node and its outline
both go by its fields, of which some hold nodes and others names or values (`Node.children_eq`,
`Node.outline_eq`), so that the kinds and lines in an outline, read from the front, are those of the
nodes on a walk (`Node.headings_outline`).
-/

namespace ScriptCheck

/-! ## Fields -/

/-- What a field of a node holds. -/
inductive FieldValue where
  | node (n : Node)
  /-- A child that is left out. -/
  | absent
  | nodes (ns : List Node)
  | text (s : String)
  | texts (ss : List String)
  | literal (value : Literal)

namespace FieldValue

/-- The nodes in a field: names and values are none. -/
def children : FieldValue → List Node
  | node n => [n]
  | nodes ns => ns
  | absent | text _ | texts _ | literal _ => []

/-- A field as data. -/
def data : FieldValue → Json
  | node n => n.outline
  | absent => .null
  | nodes ns => .list (ns.map Node.outline)
  | text s => .text s
  | texts ss => .list (ss.map .text)
  | literal value => value.outline

/-- A child that may be left out. -/
def ofOption : Option Node → FieldValue
  | none => absent
  | some n => node n

end FieldValue

/-! ## Headings -/

namespace Json

mutual

/-- The entries of a document that name a kind or a line, at whatever depth, in the order in which
they are met from the front. -/
def headings : Json → List (String × Json)
  | list items => itemsHeadings items
  | object fields => fieldsHeadings fields
  | _ => []

/-- The headings in items, one after the other. -/
def itemsHeadings : List Json → List (String × Json)
  | [] => []
  | item :: items => item.headings ++ itemsHeadings items

/-- The headings among fields and in them, one after the other. -/
def fieldsHeadings : List (String × Json) → List (String × Json)
  | [] => []
  | (key, value) :: fields =>
    if key = "kind" ∨ key = "line" then (key, value) :: (value.headings ++ fieldsHeadings fields)
    else value.headings ++ fieldsHeadings fields

end

theorem itemsHeadings_eq (items : List Json) : itemsHeadings items = items.flatMap headings := by
  induction items with
  | nil => rfl
  | cons item items ih => rw [itemsHeadings, ih, List.flatMap_cons]

/-- A row of texts has no headings. -/
@[simp] theorem headings_texts (ss : List String) : (list (ss.map .text)).headings = [] := by
  rw [headings, itemsHeadings_eq, List.flatMap_map]
  exact List.flatMap_eq_nil_iff.mpr fun s _ => rfl

/-- Fields of other names have only the headings inside them. -/
theorem fieldsHeadings_eq {fields : List (String × Json)}
    (h : ∀ field ∈ fields, field.1 ≠ "kind" ∧ field.1 ≠ "line") :
    fieldsHeadings fields = fields.flatMap fun field => field.2.headings := by
  induction fields with
  | nil => rfl
  | cons field fields ih =>
    rcases List.forall_mem_cons.mp h with ⟨⟨hkind, hline⟩, hrest⟩
    rw [fieldsHeadings, if_neg (not_or.mpr ⟨hkind, hline⟩), ih hrest, List.flatMap_cons]

end Json

@[simp] theorem Literal.headings_outline (v : Literal) : v.outline.headings = [] := by
  cases v <;> rfl

namespace Node

/-- The fields of a node by their names, in the order in which they are declared. -/
def fields : Node → List (String × FieldValue)
  | program _ statements | block _ statements => [("statements", .nodes statements)]
  | function _ name params body =>
    [("name", .text name), ("params", .texts params), ("body", .node body)]
  | binding _ name initializer => [("name", .text name), ("initializer", .ofOption initializer)]
  | conditional _ condition thenBranch elseBranch =>
    [("condition", .node condition), ("then_branch", .node thenBranch),
      ("else_branch", .ofOption elseBranch)]
  | loop _ condition body => [("condition", .node condition), ("body", .node body)]
  | print _ value | expression _ value | grouping _ value => [("expression", .node value)]
  | return_ _ value => [("value", .node value)]
  | assign _ target value => [("target", .text target), ("value", .node value)]
  | logical _ operator left right | binary _ operator left right =>
    [("operator", .text operator), ("left", .node left), ("right", .node right)]
  | unary _ operator operand => [("operator", .text operator), ("operand", .node operand)]
  | call _ callee arguments => [("callee", .node callee), ("arguments", .nodes arguments)]
  | literal _ value => [("value", .literal value)]
  | var _ name => [("name", .text name)]
  | bare _ => []

variable {n : Node}

/-- The children of a node are the nodes in its fields. -/
theorem children_eq (n : Node) : n.children = n.fields.flatMap fun field => field.2.children := by
  cases n with
  | binding _ _ e => cases e <;> rfl
  | conditional _ _ _ e => cases e <;> rfl
  | program | block | call => simp [children, fields, FieldValue.children]
  | _ => rfl

/-- The outline of a node gives its kind, its line and its fields as data. -/
theorem outline_eq (n : Node) :
    n.outline = .node n.kind n.line (n.fields.map fun field => (field.1, field.2.data)) := by
  cases n with
  | binding _ _ e => cases e <;> rfl
  | conditional _ _ _ e => cases e <;> rfl
  | program | block | call => simp [outline, fields, FieldValue.data, outlineAll_eq, kind, line]
  | _ => rfl

/-- No field takes the name of the entries that every node has. -/
theorem ne_heading_of_mem_fields {field : String × FieldValue} (h : field ∈ n.fields) :
    field.1 ≠ "kind" ∧ field.1 ≠ "line" := by
  cases n <;> simp only [fields, List.mem_cons, List.not_mem_nil, or_false] at h <;> grind

/-! ## Kinds and lines on a walk -/

/-- The entries that an outline starts with. -/
def heading (n : Node) : List (String × Json) :=
  [("kind", .text n.kind), ("line", .int n.line)]

theorem headings_data (f : FieldValue) :
    f.data.headings = f.children.flatMap fun n => n.outline.headings := by
  cases f with
  | node n => simp [FieldValue.data, FieldValue.children]
  | nodes ns =>
    rw [FieldValue.data, Json.headings, Json.itemsHeadings_eq, List.flatMap_map,
      FieldValue.children]
  | absent | text | texts | literal => simp [FieldValue.data, FieldValue.children, Json.headings]

/-- Read from the front, an outline has the heading of the node and then those below its children,
in order. -/
theorem headings_outline_eq (n : Node) :
    n.outline.headings = n.heading ++ n.children.flatMap fun c => c.outline.headings := by
  have hfields : ∀ field ∈ n.fields.map fun field => (field.1, field.2.data),
      field.1 ≠ "kind" ∧ field.1 ≠ "line" := by
    intro field hfield
    rcases List.mem_map.mp hfield with ⟨field, hmem, rfl⟩
    exact ne_heading_of_mem_fields hmem
  rw [outline_eq, Json.node, Json.headings, Json.fieldsHeadings, Json.fieldsHeadings,
    Json.fieldsHeadings_eq hfields, children_eq, List.flatMap_map, List.flatMap_assoc]
  simp [heading, Json.headings, headings_data]

/-- The kinds and lines in an outline, read from the front, are those of the nodes on a walk. -/
theorem headings_outline (n : Node) : n.outline.headings = n.walk.flatMap heading := by
  induction n using induction_children with
  | h n ih =>
    rw [headings_outline_eq, walk_eq, List.flatMap_cons, List.flatMap_assoc]
    congr 1
    exact List.flatMap_congr ih

/-! ## Places on a walk -/

/-- The nodes are those that paths lead to, each path once and in the order of the paths: a path
before those that go on from it, and all below one child before what is below the next. -/
structure InPreorder (find : List Nat → Option Node) (paths : List (List Nat)) (nodes : List Node) :
    Prop where
  ascending : paths.Pairwise (List.Lex (· < ·))
  mem_iff : ∀ path, path ∈ paths ↔ (find path).isSome
  visits : paths.map find = nodes.map some

/-- The node that a path leads to from several trees, its first index being that of the tree. -/
def among (ns : List Node) : List Nat → Option Node
  | [] => none
  | i :: path => ns[i]?.bind (at? path)

theorem inPreorder_among_nil : InPreorder (among []) [] [] := by
  refine ⟨.nil, fun path => ?_, rfl⟩
  cases path <;> simp [among]

/-- The path on which the first index is one higher. -/
def raise : List Nat → List Nat
  | [] => []
  | i :: path => (i + 1) :: path

theorem among_cons_raise (n : Node) (ns : List Node) (path : List Nat) :
    among (n :: ns) (raise path) = among ns path := by
  cases path with
  | nil => rfl
  | cons i path => rfl

theorem raise_lex_raise {path path' : List Nat} (h : List.Lex (· < ·) path path') :
    List.Lex (· < ·) (raise path) (raise path') := by
  cases h with
  | nil => exact .nil
  | rel hlt => exact .rel (Nat.succ_lt_succ hlt)
  | cons hrest => exact .cons hrest

/-- A path among several trees has a first index. -/
theorem InPreorder.exists_cons {ns nodes : List Node} {paths : List (List Nat)} {path : List Nat}
    (h : InPreorder (among ns) paths nodes) (hpath : path ∈ paths) :
    ∃ i rest, path = i :: rest := by
  cases path with
  | nil => simpa [among] using (h.mem_iff []).mp hpath
  | cons i rest => exact ⟨i, rest, rfl⟩

/-- One tree more in front: the paths into it come first, and those into the others are raised. -/
theorem InPreorder.among_cons {ns : List Node} {paths paths' : List (List Nat)}
    (h : InPreorder n.at? paths n.walk) (h' : InPreorder (among ns) paths' (ns.flatMap walk)) :
    InPreorder (among (n :: ns)) (paths.map (0 :: ·) ++ paths'.map raise)
      ((n :: ns).flatMap walk) where
  ascending := by
    refine List.pairwise_append.mpr ⟨?_, ?_, ?_⟩
    · exact List.pairwise_map.mpr (h.ascending.imp fun hlex => .cons hlex)
    · exact List.pairwise_map.mpr (h'.ascending.imp raise_lex_raise)
    · simp only [List.mem_map]
      rintro _ ⟨path, -, rfl⟩ _ ⟨path', hpath', rfl⟩
      rcases h'.exists_cons hpath' with ⟨i, rest, rfl⟩
      exact .rel (Nat.succ_pos i)
  mem_iff path := by
    have hraised : ∀ path, path ∈ paths'.map raise ↔ ∃ i rest, i :: rest ∈ paths' ∧
        path = (i + 1) :: rest := by
      intro path
      constructor
      · intro hpath
        rcases List.mem_map.mp hpath with ⟨path', hpath', rfl⟩
        rcases h'.exists_cons hpath' with ⟨i, rest, rfl⟩
        exact ⟨i, rest, hpath', rfl⟩
      · rintro ⟨i, rest, hpath', rfl⟩
        exact List.mem_map.mpr ⟨_, hpath', rfl⟩
    rw [List.mem_append, hraised]
    match path with
    | [] => simp [among]
    | 0 :: rest => simp [among, h.mem_iff]
    | (i + 1) :: rest => simp [among, h'.mem_iff]
  visits := by
    rw [List.map_append, List.map_map, List.map_map, List.flatMap_cons, List.map_append, ← h.visits,
      ← h'.visits]
    congr 1
    exact List.map_congr_left fun path _ => among_cons_raise n ns path

theorem exists_inPreorder_among {ns : List Node}
    (h : ∀ n ∈ ns, ∃ paths, InPreorder n.at? paths n.walk) :
    ∃ paths, InPreorder (among ns) paths (ns.flatMap walk) := by
  induction ns with
  | nil => exact ⟨[], inPreorder_among_nil⟩
  | cons n ns ih =>
    rcases List.forall_mem_cons.mp h with ⟨⟨paths, hn⟩, hns⟩
    rcases ih hns with ⟨paths', hpaths'⟩
    exact ⟨_, hn.among_cons hpaths'⟩

/-- A walk visits every node of a tree once, a node before those below it. -/
theorem exists_inPreorder_walk (n : Node) : ∃ paths, InPreorder n.at? paths n.walk := by
  induction n using induction_children with
  | h n ih =>
    rcases exists_inPreorder_among ih with ⟨paths, h⟩
    refine ⟨[] :: paths, ?_, fun path => ?_, ?_⟩
    · refine List.pairwise_cons.mpr ⟨fun path hpath => ?_, h.ascending⟩
      rcases h.exists_cons hpath with ⟨i, rest, rfl⟩
      exact .nil
    · cases path with
      | nil => simp [at?]
      | cons i rest => simpa [at?, among] using h.mem_iff (i :: rest)
    · rw [walk_eq, List.map_cons, List.map_cons, ← h.visits]
      refine congrArg (some n :: ·) (List.map_congr_left fun path hpath => ?_)
      rcases h.exists_cons hpath with ⟨i, rest, rfl⟩
      rfl

/-- Walks, counts and outlines go by the same nodes. A walk visits every node of a tree once and in
pre-order, a tree has one node more than there are below its children, and the kinds and lines in
its outline, read from the front, are those of the nodes on the walk. Children and outlines are both
made of the fields of a node, of which only those that hold nodes have children. -/
theorem walk_faithful (n : Node) :
    (∃ paths, InPreorder n.at? paths n.walk) ∧
    n.count = 1 + (n.children.map count).sum ∧
    n.outline.headings = n.walk.flatMap heading ∧
    n.children = n.fields.flatMap (fun field => field.2.children) ∧
    n.outline = .node n.kind n.line (n.fields.map fun field => (field.1, field.2.data)) := by
  refine ⟨exists_inPreorder_walk n, ?_, headings_outline n, children_eq n, outline_eq n⟩
  rw [count, walk_eq, List.length_cons, List.length_flatMap, Nat.add_comm]
  rfl

end Node

end ScriptCheck
