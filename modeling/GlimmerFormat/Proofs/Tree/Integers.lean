import GlimmerFormat.Log
import GlimmerFormat.Proofs.Tree.Occurs

/-!
# The integers of a tree

The integers of a tree are those of the values in its fields, so what can be written of a tree can
be written of everything in it.

* `Node.Holds.integers_subset`: the integers of what a node holds are integers of the node.
* `Value.visited_eq_error`: a visited value stops printing only if it cannot be written.
-/

namespace GlimmerFormat

namespace Value

/-- The integers in several values are those of each of them. -/
lemma integersAll_eq_flatMap (vs : List Value) : integersAll vs = vs.flatMap integers := by
  induction vs with
  | nil => rfl
  | cons v vs ih => rw [integersAll, ih, List.flatMap_cons]

/-- The integers in a list are those in its items. -/
lemma integers_list (items : List Value) : (list items).integers = items.flatMap integers :=
  integersAll_eq_flatMap items

/-- The integers in an item are integers of the list. -/
lemma integers_subset_of_mem {v : Value} {items : List Value} (hv : v ∈ items) :
    v.integers ⊆ (list items).integers := by
  intro i hi
  rw [integers_list]
  exact List.mem_flatMap.mpr ⟨v, hv, hi⟩

/-- A value yields values with no other integers. -/
lemma integers_subset_of_elements? {v w : Value} {vs : List Value} (h : v.elements? = some vs)
    (hw : w ∈ vs) : w.integers ⊆ v.integers := by
  -- Characters and keys are texts, which hold no integers.
  have htext : ∀ ts : List String, w ∈ ts.map str → w.integers ⊆ v.integers := by
    intro ts hts
    obtain ⟨t, -, rfl⟩ := List.mem_map.mp hts
    exact List.nil_subset _
  cases v with
  | str s =>
    obtain rfl := Option.some.inj h
    exact htext (s.toList.map String.singleton) (by simpa using hw)
  | object entries =>
    obtain rfl := Option.some.inj h
    exact htext (entries.map Prod.fst) (by simpa using hw)
  | list items =>
    obtain rfl := Option.some.inj h
    exact integers_subset_of_mem hw
  | _ => cases h

/-! ## Writing -/

/-- Writing fails in one way. -/
lemma written_eq_error {v : Value} {e : Fault} :
    v.written = .error e ↔ ¬ v.IsWritable ∧ e = .unwritable := by
  unfold written
  split
  · simp_all
  · simp_all [eq_comm]

/-- A visited value stops printing only if it cannot be written. -/
lemma visited_eq_error {v : Value} {e : Fault} (h : v.visited = .error e) :
    ¬ v.IsWritable ∧ e = .unwritable := by
  cases v with
  | node n =>
    cases n with
    | number value => exact written_eq_error.mp h
    | _ => cases h
  | _ => exact written_eq_error.mp h

/-- What stands among documents without being one is met with its display, or cannot be written. -/
lemma strayFault_cases (v : Value) :
    v.strayFault = .strayDocument v.inner ∨ ¬ v.IsWritable ∧ v.strayFault = .unwritable := by
  unfold strayFault
  split
  · exact .inl rfl
  · next h => exact .inr ⟨h, rfl⟩

end Value

namespace Node

variable {n : Node} {v : Value}

/-- The integers of a node are those in its fields. -/
lemma integers_eq_flatMap (n : Node) : n.integers = n.fields.flatMap fun f => f.2.integers := by
  cases n <;> simp [integers, fields]

/-- The integers in a field are integers of the node. -/
lemma integers_subset_of_field? (name : String) (h : n.field? name = some v) :
    v.integers ⊆ n.integers := by
  obtain ⟨before, behind, hfields, -⟩ := List.lookup_eq_some_iff.mp h
  intro i hi
  rw [integers_eq_flatMap, hfields]
  simp [hi]

/-- The integers of what a node holds are integers of the node. -/
lemma Holds.integers_subset (h : n.Holds v) : v.integers ⊆ n.integers := by
  cases h with
  | field h => exact integers_subset_of_field? _ h
  | item h hv =>
    exact List.Subset.trans (Value.integers_subset_of_mem hv) (integers_subset_of_field? _ h)

end Node

end GlimmerFormat
