import GlimmerFormat.Proofs.Tree.Nodes
import GlimmerFormat.Proofs.Tree.WellTyped

/-!
# Occurrences of nodes

A node occurs in a tree if it is the root or stands somewhere below it, among the children of a
node that occurs.  In a well-typed tree whatever occurs is well-typed.

* `Node.Holds`: a value stands in a field of a node where a node belongs, or in a list there.
* `Node.Occurs`: a node occurs in a tree.
* `Node.WellTyped.of_mem_children`, `Node.WellTyped.of_occurs`: well-typed trees are so throughout.
-/

namespace GlimmerFormat

namespace Value

/-- There are no nodes in a text. -/
@[simp] lemma nodes_str (s : String) : (Value.str s).nodes = [] := by
  rw [nodes] <;> simp

/-- There are no nodes in a truth value. -/
@[simp] lemma nodes_bool (b : Bool) : (Value.bool b).nodes = [] := by
  rw [nodes] <;> simp

/-- A number is no node. -/
lemma nodes_of_isNumber {v : Value} (h : v.isNumber = true) : v.nodes = [] := by
  cases v with
  | int n | float x | bool b => rw [nodes] <;> simp
  | _ => cases h

/-- The nodes in a list of nodes are these. -/
@[simp] lemma nodes_list_map_node (ns : List Node) : (Value.list (ns.map .node)).nodes = ns := by
  rw [nodes, nodesAll_eq_flatMap, List.flatMap_map]
  simp [nodes]

/-- There are no nodes in a list of texts. -/
@[simp] lemma nodes_list_map_str (names : List String) :
    (Value.list (names.map .str)).nodes = [] := by
  rw [nodes, nodesAll_eq_flatMap, List.flatMap_map]
  simp

/-- The node in a node as a value is this one. -/
@[simp] lemma nodes_node (n : Node) : (Value.node n).nodes = [n] := rfl

/-- The node in a field that may hold one is the one that it holds, if any. -/
@[simp] lemma nodes_elim_node (n? : Option Node) :
    (n?.elim Value.null .node).nodes = n?.toList := by
  cases n? <;> rfl

end Value

namespace Node

/-- A value stands in a field of a node, or among the items of a list in a field. -/
inductive Holds (n : Node) : Value → Prop
  | field {name : String} {v : Value} (h : n.field? name = some v) : n.Holds v
  | item {name : String} {items : List Value} {v : Value}
      (h : n.field? name = some (.list items)) (hv : v ∈ items) : n.Holds v

/-- A node that stands where a node belongs is a child. -/
lemma Holds.mem_children {m n : Node} (h : n.Holds (.node m)) : m ∈ n.children := by
  cases h with
  | field h => exact mem_children_of_field? h (Value.mem_nodes_node.mpr rfl)
  | item h hv =>
    exact mem_children_of_field? h
      (Value.mem_nodes_list.mpr ⟨_, hv, Value.mem_nodes_node.mpr rfl⟩)

/-- A node is the root of a tree or stands somewhere below it. -/
inductive Occurs : Node → Node → Prop
  | here (n : Node) : Occurs n n
  | inside {m child n : Node} (hchild : child ∈ n.children) (h : Occurs m child) : Occurs m n

variable {m n : Node}

/-- What occurs in a statement of a program occurs in the program. -/
lemma Occurs.in_body {body : List Node} {blockParams : Value} (hn : n ∈ body)
    (h : m.Occurs n) : m.Occurs (program (.list (body.map .node)) blockParams) := by
  refine .inside ?_ h
  simp [children, fields, hn]

/-- What occurs in an attribute of an element occurs in the element. -/
lemma Occurs.in_attributes {attributes : List Node} {tag modifiers children blockParams : Value}
    (hn : n ∈ attributes) (h : m.Occurs n) :
    m.Occurs (element tag (.list (attributes.map .node)) modifiers children blockParams) := by
  refine .inside ?_ h
  simp [Node.children, fields, hn]

/-! ## Well-typed trees -/

/-- The nodes below a well-typed node are well-typed. -/
lemma WellTyped.of_mem_children (h : n.WellTyped) (hm : m ∈ n.children) : m.WellTyped := by
  cases h with
  | path | string | boolean | null | text | comment => simp [children, fields] at hm
  | number h => simp [children, fields, Value.nodes_of_isNumber h] at hm
  | pair key hkind hvalue | attr name hkind hvalue =>
    obtain rfl : m = _ := by simpa [children, fields] using hm
    exact hvalue
  | hash hkinds hitems | concat hkinds hitems | program hkinds hitems =>
    exact hitems m (by simpa [children, fields] using hm)
  | subexpression hkinds hcallee hparams hnamed | mustache hkinds hcallee hparams hnamed
  | modifier hkinds hcallee hparams hnamed =>
    obtain rfl | hm | rfl : _ := by simpa [children, fields] using hm
    · exact hcallee
    · exact hparams m hm
    · exact hnamed
  | block hkinds hcallee hparams hnamed hcontentKind hcontent hinverseKind hinverse =>
    obtain rfl | hm | rfl | rfl | hm : _ := by simpa [children, fields] using hm
    · exact hcallee
    · exact hparams m hm
    · exact hnamed
    · exact hcontent
    · exact hinverse m hm
  | element tag hattributeKinds hattributes hmodifierKinds hmodifiers hchildKinds hchildren =>
    obtain hm | hm | hm : _ := by simpa [children, fields] using hm
    · exact hattributes m hm
    · exact hmodifiers m hm
    · exact hchildren m hm

/-- What occurs in a well-typed tree is well-typed. -/
theorem WellTyped.of_occurs (h : n.WellTyped) (hm : m.Occurs n) : m.WellTyped := by
  induction hm with
  | here => exact h
  | inside hchild _ ih => exact ih (h.of_mem_children hchild)

/-- Nothing stands below a text. -/
lemma Occurs.eq_of_text (h : n.WellTyped) (hkind : n.kind = .text) (hm : m.Occurs n) : m = n := by
  cases hm with
  | here => rfl
  | inside hchild =>
    cases h with
    | text chars => simp [children, fields] at hchild
    | _ => cases hkind

end Node

end GlimmerFormat
