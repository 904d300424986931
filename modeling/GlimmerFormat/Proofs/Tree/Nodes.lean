import GlimmerFormat.Tree.Node
import Mathlib.Tactic.Lemma

/-!
# The nodes of a tree

Whatever a field of a node holds, there are nodes in it: the value itself, if it is a node, or the
nodes in the items of a list.  The nodes directly below a node are its children: those in its
fields, in order.

What holds of a node as soon as it holds of the nodes below it holds of every node, in trees that
are well-typed and in others.

* `Node.inductionOnChildren`: induction from all the children.
* `Node.inductionOn`: induction by kinds, from the nodes in those fields that are printed.
-/

namespace GlimmerFormat

mutual

/-- The nodes in a value, in order. -/
def Value.nodes : Value → List Node
  | .node n => [n]
  | .list items => Value.nodesAll items
  | _ => []

/-- The nodes in several values, in order. -/
def Value.nodesAll : List Value → List Node
  | [] => []
  | v :: vs => v.nodes ++ Value.nodesAll vs

end

namespace Value

/-- A node as a value holds itself alone. -/
lemma mem_nodes_node {m n : Node} : m ∈ (Value.node n).nodes ↔ m = n := by
  simp [nodes]

/-- The nodes in values in turn are those of each. -/
lemma nodesAll_eq_flatMap (vs : List Value) : nodesAll vs = vs.flatMap nodes := by
  induction vs with
  | nil => rfl
  | cons v vs ih => rw [nodesAll, ih, List.flatMap_cons]

/-- The nodes in a list are those in its items. -/
lemma mem_nodes_list {m : Node} {items : List Value} :
    m ∈ (Value.list items).nodes ↔ ∃ v ∈ items, m ∈ v.nodes := by
  rw [nodes, nodesAll_eq_flatMap, List.mem_flatMap]

end Value

namespace Node

/-- The nodes directly below a node, in the order of its fields. -/
def children (n : Node) : List Node :=
  n.fields.flatMap fun field => field.2.nodes

/-- The nodes in a field are children. -/
lemma mem_children_of_field? {m n : Node} {name : String} {v : Value}
    (h : n.field? name = some v) (hm : m ∈ v.nodes) : m ∈ n.children := by
  obtain ⟨before, behind, hfields, -⟩ := List.lookup_eq_some_iff.mp h
  rw [children, hfields]
  simp [hm]

/-- Induction over trees: what holds of the children of a node holds of the node. -/
@[elab_as_elim]
theorem inductionOnChildren {motive : Node → Prop} (n : Node)
    (step : ∀ n : Node, (∀ m ∈ n.children, motive m) → motive n) : motive n := by
  have hfields : ∀ n : Node, (∀ f ∈ n.fields, ∀ m ∈ f.2.nodes, motive m) → motive n := by
    intro n h
    refine step n fun m hm => ?_
    obtain ⟨f, hf, hm⟩ := List.mem_flatMap.mp hm
    exact h f hf m hm
  apply Node.rec (motive_1 := fun v => ∀ m ∈ v.nodes, motive m) (motive_2 := motive)
    (motive_3 := fun vs => ∀ m ∈ Value.nodesAll vs, motive m)
  case list => exact fun items ih => ih
  case node => exact fun n ih m hm => Value.mem_nodes_node.mp hm ▸ ih
  case nil => simp [Value.nodesAll]
  case cons =>
    intro v vs hv hvs m hm
    rcases List.mem_append.mp hm with hm | hm
    · exact hv m hm
    · exact hvs m hm
  all_goals first
    | simp [Value.nodes]
    | (intros
       refine hfields _ ?_
       simp only [fields, List.forall_mem_cons]
       and_intros <;> first | assumption | simp)

/-- Induction over trees, well-typed or not: what holds of the nodes in the fields of a node holds
of the node. -/
@[elab_as_elim]
theorem inductionOn {motive : Node → Prop} (n : Node)
    (path : ∀ whole parts, motive (.path whole parts))
    (string : ∀ value, motive (.string value)) (number : ∀ value, motive (.number value))
    (boolean : ∀ value, motive (.boolean value)) (null : motive .null)
    (pair : ∀ key value, (∀ m ∈ value.nodes, motive m) → motive (.pair key value))
    (hash : ∀ pairs, (∀ m ∈ pairs.nodes, motive m) → motive (.hash pairs))
    (subexpression : ∀ callee params named, (∀ m ∈ callee.nodes, motive m) →
      (∀ m ∈ params.nodes, motive m) → (∀ m ∈ named.nodes, motive m) →
      motive (.subexpression callee params named))
    (text : ∀ chars, motive (.text chars))
    (mustache : ∀ callee params named escaped, (∀ m ∈ callee.nodes, motive m) →
      (∀ m ∈ params.nodes, motive m) → (∀ m ∈ named.nodes, motive m) →
      motive (.mustache callee params named escaped))
    (comment : ∀ value, motive (.comment value))
    (modifier : ∀ callee params named, (∀ m ∈ callee.nodes, motive m) →
      (∀ m ∈ params.nodes, motive m) → (∀ m ∈ named.nodes, motive m) →
      motive (.modifier callee params named))
    (concat : ∀ parts, (∀ m ∈ parts.nodes, motive m) → motive (.concat parts))
    (attr : ∀ name value, (∀ m ∈ value.nodes, motive m) → motive (.attr name value))
    (program : ∀ body blockParams, (∀ m ∈ body.nodes, motive m) →
      motive (.program body blockParams))
    (block : ∀ callee params named content inverse, (∀ m ∈ callee.nodes, motive m) →
      (∀ m ∈ params.nodes, motive m) → (∀ m ∈ named.nodes, motive m) →
      (∀ m ∈ content.nodes, motive m) → (∀ m ∈ inverse.nodes, motive m) →
      motive (.block callee params named content inverse))
    (element : ∀ tag attributes modifiers children blockParams,
      (∀ m ∈ attributes.nodes, motive m) → (∀ m ∈ modifiers.nodes, motive m) →
      (∀ m ∈ children.nodes, motive m) →
      motive (.element tag attributes modifiers children blockParams)) : motive n := by
  induction n using inductionOnChildren with
  | step n ih =>
    -- Whatever a node holds stands in one of its fields.
    have below (name : String) {v : Value} (h : n.field? name = some v) : ∀ m ∈ v.nodes, motive m :=
      fun m hm => ih m (mem_children_of_field? h hm)
    cases n with
    | path => exact path _ _
    | string => exact string _
    | number => exact number _
    | boolean => exact boolean _
    | null => exact null
    | pair => exact pair _ _ (below "value" rfl)
    | hash => exact hash _ (below "pairs" rfl)
    | subexpression =>
      exact subexpression _ _ _ (below "path" rfl) (below "params" rfl) (below "hash" rfl)
    | text => exact text _
    | mustache =>
      exact mustache _ _ _ _ (below "path" rfl) (below "params" rfl) (below "hash" rfl)
    | comment => exact comment _
    | modifier =>
      exact modifier _ _ _ (below "path" rfl) (below "params" rfl) (below "hash" rfl)
    | concat => exact concat _ (below "parts" rfl)
    | attr => exact attr _ _ (below "value" rfl)
    | program => exact program _ _ (below "body" rfl)
    | block =>
      exact block _ _ _ _ _ (below "path" rfl) (below "params" rfl) (below "hash" rfl)
        (below "program" rfl) (below "inverse" rfl)
    | element =>
      exact element _ _ _ _ _ (below "attributes" rfl) (below "modifiers" rfl)
        (below "children" rfl)

end Node

end GlimmerFormat
