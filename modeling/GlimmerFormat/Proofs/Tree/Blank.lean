import GlimmerFormat.Proofs.Printing.Outcomes
import Mathlib.Data.List.Basic

/-!
# Blank text among statements

A text of blanks says nothing in a template, and nothing is printed for it.  Of well-typed
statements it can be told which ones are such texts: the others are the statements that are shown.

* `Value.isBlankNode_node`, `Value.anyPresent_map_node`: what printing asks of its statements.
* `Node.shown`: the statements without the blank texts among them.
-/

namespace GlimmerFormat

namespace Node

/-- Whether a node is a text of blanks alone. -/
def isBlankText : Node → Bool
  | .text (.str s) => Text.isBlankText s
  | _ => false

/-- The statements that are more than blank text. -/
def shown (ns : List Node) : List Node :=
  ns.filter fun n => !n.isBlankText

variable {n : Node} {ns : List Node}

/-- What is no text is no blank text. -/
lemma isBlankText_of_kind_ne (hkind : n.kind ≠ .text) : n.isBlankText = false := by
  cases n <;> first | rfl | exact absurd rfl hkind

/-- Of no statements nothing is shown. -/
@[simp] lemma shown_nil : shown [] = [] := rfl

/-- What is shown of statements put together is shown of each. -/
@[simp] lemma shown_append (xs ys : List Node) : shown (xs ++ ys) = shown xs ++ shown ys :=
  List.filter_append ..

/-- A blank text in front is not shown. -/
lemma shown_cons_of_blank (h : n.isBlankText = true) : shown (n :: ns) = shown ns := by
  simp [shown, h]

/-- A statement in front that is no blank text is shown first. -/
lemma shown_cons_of_not_blank (h : n.isBlankText = false) : shown (n :: ns) = n :: shown ns := by
  simp [shown, h]

/-- Some statement is shown exactly when not all are blank. -/
lemma shown_ne_nil_iff : shown ns ≠ [] ↔ ∃ n ∈ ns, n.isBlankText = false := by
  simp [shown]

end Node

namespace Value

/-- Of a well-typed node it can be told whether it is blank text. -/
lemma isBlankNode_node {n : Node} (h : n.WellTyped) :
    (Value.node n).isBlankNode = .ok n.isBlankText := by
  cases h <;> rfl

/-- Of well-typed nodes it can be told whether some of them are shown. -/
lemma anyPresent_map_node {ns : List Node} (h : ∀ n ∈ ns, n.WellTyped) :
    anyPresent (ns.map .node) = .ok !(Node.shown ns).isEmpty := by
  induction ns with
  | nil => rfl
  | cons n ns ih =>
    have hothers := ih fun m hm => h m (by simp [hm])
    rw [List.map_cons, anyPresent, isBlankNode_node (h n (by simp))]
    cases hblank : n.isBlankText with
    | true => rw [Node.shown_cons_of_blank hblank, ← hothers]; rfl
    | false => rw [Node.shown_cons_of_not_blank hblank]; rfl

end Value

end GlimmerFormat
