import GlimmerFormat.Proofs.Tree.Fields
import GlimmerFormat.Walk.Position

/-!
# Paths of a tree

One step down a tree goes from a node to what it holds in a declared field, or from a list to one of
its items.  A way down is a series of steps, and following it from the root says where it leads and
what it passes.

A position keeps its way as a stack of entries, each with a value of its own, and nothing in a
position holds these values to those of the tree.  A position is on a path if they are.

* `Value.below?`, `Value.reached?`, `Value.passed`: following a way through a tree.
* `IsPathOf`: each entry of a stack is one step below the entry under it.
* `Position.OnPath`: a position that is reached from the root by such steps.
* `Position.OnPath.isPathOf`, `Position.OnPath.reached?_way`: its stack is a path of the tree, and
  the way leads to its value.
* `Position.OnPath.ancestors_eq`: its ancestors are what the way passes, lists left out.
-/

namespace GlimmerFormat

/-! ## Following a way -/

namespace Value

/-- The value one step below a value. -/
def below? : Value → Descent → Option Value
  | .node n, .field name => n.field? name
  | .list vs, .item index => vs[index]?
  | _, _ => none

/-- The value that a way down leads to. -/
def reached? (v : Value) (way : List Descent) : Option Value :=
  way.foldlM below? v

/-- The values that a way down passes before its end, the first one first. -/
def passed (v : Value) : List Descent → List Value
  | [] => []
  | step :: way =>
    v :: match v.below? step with
      | some w => w.passed way
      | none => []

/-- The values above the end of a way down that are not lists, the nearest first. -/
def enclosing (v : Value) (way : List Descent) : List Value :=
  (v.passed way).reverse.filter fun w => !w.isList

/-- One step down to a field is the value of the field. -/
lemma below?_field (v : Value) (name : String) : v.below? (.field name) = v.field? name := by
  cases v <;> rfl

/-- Below a node stands what it holds in its declared fields. -/
lemma below?_node_eq_some_iff {n : Node} {step : Descent} {v : Value} :
    (node n).below? step = some v ↔
      ∃ f ∈ n.kind.fields, step = .field f.name ∧ v = n.value f := by
  cases step with
  | item index => simp [below?]
  | field name =>
    rw [below?, Node.field?_eq_some_iff]
    simp only [Descent.field.injEq, eq_comm]

/-- Below a list stand its items. -/
lemma below?_list_eq_some_iff {vs : List Value} {step : Descent} {v : Value} :
    (list vs).below? step = some v ↔ ∃ index, vs[index]? = some v ∧ step = .item index := by
  cases step with
  | field name => simp [below?]
  | item index => simp [below?]

/-- Nothing stands below a value that is neither a node nor a list. -/
lemma node_or_list_of_below? {v w : Value} {step : Descent} (h : v.below? step = some w) :
    (∃ n, v = .node n) ∨ ∃ vs, v = .list vs := by
  cases v with
  | node n => exact .inl ⟨n, rfl⟩
  | list vs => exact .inr ⟨vs, rfl⟩
  | _ => cases h

/-- A way goes on from where it has led. -/
lemma reached?_concat (v : Value) (way : List Descent) (step : Descent) :
    v.reached? (way ++ [step]) = (v.reached? way).bind (below? · step) := by
  simp [reached?, List.foldlM_append]

/-- A way that goes on passes the value that it has led to. -/
lemma passed_concat {v w : Value} {way : List Descent} (h : v.reached? way = some w)
    (step : Descent) : v.passed (way ++ [step]) = v.passed way ++ [w] := by
  induction way generalizing v with
  | nil =>
    obtain rfl : v = w := by simpa [reached?] using h
    cases hbelow : v.below? step <;> simp [passed, hbelow]
  | cons first way ih =>
    obtain ⟨u, hu, hway⟩ : ∃ u, v.below? first = some u ∧ u.reached? way = some w := by
      simpa [reached?, List.foldlM_cons, Option.bind_eq_some_iff] using h
    simp [passed, hu, ih hway]

end Value

/-! ## Stacks -/

/-- An entry of a stack: a value, and the step that leads to it unless it is the root. -/
structure Entry where
  step? : Option Descent
  value : Value

/-- A stack of entries, the last one first, is a path of a tree. -/
structure IsPathOf (root : Value) (stack : List Entry) : Prop where
  /-- At the bottom stands the root, which no step leads to. -/
  bottom : stack.getLast? = some ⟨none, root⟩
  /-- Above a node stands one of its declared fields with what the node holds there. -/
  field : ∀ above below n, [above, below] <:+: stack → below.value = .node n →
    ∃ f ∈ n.kind.fields, above = ⟨some (.field f.name), n.value f⟩
  /-- Above a list stands a valid index with the item of that index. -/
  item : ∀ above below vs, [above, below] <:+: stack → below.value = .list vs →
    ∃ index v, vs[index]? = some v ∧ above = ⟨some (.item index), v⟩
  /-- Above other values stands nothing. -/
  only : ∀ above below, [above, below] <:+: stack →
    (∃ n, below.value = .node n) ∨ ∃ vs, below.value = .list vs

namespace Position

variable {root v : Value} {p : Position} {step : Descent}

/-- The entries of a position, the last one first. -/
def stack (p : Position) : List Entry :=
  p.trail.map (fun e => ⟨some e.1, e.2⟩) ++ [⟨none, p.root⟩]

/-- The steps to a position, the first one first. -/
def way (p : Position) : List Descent :=
  (p.trail.map Prod.fst).reverse

/-- One step further down, the stack has one more entry on top. -/
@[simp] lemma stack_push (p : Position) (step : Descent) (v : Value) :
    (p.push step v).stack = ⟨some step, v⟩ :: p.stack := rfl

/-- One step further down, the way has one more step at its end. -/
@[simp] lemma way_push (p : Position) (step : Descent) (v : Value) :
    (p.push step v).way = p.way ++ [step] := by
  simp [way, push]

/-- The last entry is that of the position itself. -/
lemma head?_stack (p : Position) : p.stack.head? = some ⟨p.name?, p.value⟩ := by
  obtain ⟨root, trail⟩ := p
  cases trail <;> rfl

/-- The depth is the number of steps. -/
lemma length_way (p : Position) : p.way.length = p.depth := by
  simp [way, depth]

/-- The values on the way to a position are its own and those above it. -/
lemma path_eq_cons (p : Position) : p.path = p.value :: p.path.tail := by
  obtain ⟨root, trail⟩ := p
  cases trail <;> rfl

/-- A position on a path of a tree: the root, or one step below such a position. -/
inductive OnPath (root : Value) : Position → Prop
  | root : OnPath root (.atRoot root)
  | push {p : Position} {step : Descent} {v : Value} (h : OnPath root p)
      (hbelow : p.value.below? step = some v) : OnPath root (p.push step v)

/-- The position before the last step is on the path as well. -/
lemma OnPath.pop (h : p.OnPath root) : p.pop.OnPath root := by
  cases h with
  | root => exact .root
  | push h _ => exact h

/-- Each entry is one step below the entry under it. -/
lemma OnPath.below?_of_infix (h : p.OnPath root) {above below : Entry}
    (habove : [above, below] <:+: p.stack) :
    ∃ step, above.step? = some step ∧ below.value.below? step = some above.value := by
  induction h with
  | root => simpa [stack, atRoot] using habove.length_le
  | @push p step v _ hbelow ih =>
    rw [stack_push, List.infix_cons_iff] at habove
    rcases habove with hfirst | hrest
    · obtain ⟨rfl, hunder⟩ := List.cons_prefix_cons.mp hfirst
      have hhead : p.stack.head? = some below := by
        obtain ⟨rest, hrest⟩ := hunder
        rw [← hrest]
        rfl
      obtain rfl := Option.some.inj (p.head?_stack.symm.trans hhead)
      exact ⟨step, rfl, hbelow⟩
    · exact ih hrest

/-- The stack of a position on a path is a path. -/
theorem OnPath.isPathOf (h : p.OnPath root) : IsPathOf root p.stack where
  bottom := by
    have hroot : p.root = root := by
      induction h with
      | root => rfl
      | push _ _ ih => exact ih
    simp [stack, hroot]
  field := by
    intro above below n habove hn
    obtain ⟨step, hstep, hbelow⟩ := h.below?_of_infix habove
    rw [hn] at hbelow
    obtain ⟨f, hf, rfl, hvalue⟩ := Value.below?_node_eq_some_iff.mp hbelow
    exact ⟨f, hf, by rw [← hstep, ← hvalue]⟩
  item := by
    intro above below vs habove hvs
    obtain ⟨step, hstep, hbelow⟩ := h.below?_of_infix habove
    rw [hvs] at hbelow
    obtain ⟨index, hindex, rfl⟩ := Value.below?_list_eq_some_iff.mp hbelow
    exact ⟨index, above.value, hindex, by rw [← hstep]⟩
  only := by
    intro above below habove
    obtain ⟨step, -, hbelow⟩ := h.below?_of_infix habove
    exact Value.node_or_list_of_below? hbelow

/-- The way to a position on a path leads to its value. -/
theorem OnPath.reached?_way (h : p.OnPath root) : root.reached? p.way = some p.value := by
  induction h with
  | root => rfl
  | push _ hbelow ih => rw [way_push, Value.reached?_concat, ih, value_push, ← hbelow]; rfl

/-- The values above a position on a path are those that its way passes. -/
lemma OnPath.passed_way (h : p.OnPath root) : root.passed p.way = p.path.tail.reverse := by
  induction h with
  | root => rfl
  | @push p step v h _ ih =>
    rw [way_push, Value.passed_concat h.reached?_way, ih, path_push, List.tail_cons,
      ← List.reverse_cons, ← path_eq_cons]

/-- The ancestors of a position on a path are the values that its way passes, lists left out. -/
theorem OnPath.ancestors_eq (h : p.OnPath root) : p.ancestors = root.enclosing p.way := by
  rw [Value.enclosing, h.passed_way, List.reverse_reverse, ancestors]

/-- The parent of a level is the ancestor with this index. -/
lemma parent?_natCast (p : Position) (level : Nat) : p.parent? level = p.ancestors[level]? := by
  rw [parent?, if_neg (by omega), Int.toNat_natCast]

/-- A negative level has no parent. -/
lemma parent?_of_neg (p : Position) {level : Int} (h : level < 0) : p.parent? level = none :=
  if_pos h

end Position

end GlimmerFormat
