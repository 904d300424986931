import GlimmerFormat.Walk.Script
import Mathlib.Tactic.Lemma

/-!
# Runs of walks

A walk starts on a tour and ends on one, and it has an outcome.  Each way of putting walks together
has an equation for its run.

* `Walk.run_bind`: one walk goes on where the other ended, unless that failed.
* `Walk.run_field_of_some`, `Walk.run_field_of_none`: reading a field moves nothing.
* `Walk.run_items_of_list`, `Walk.run_items_of_not_list`: so does reading the items of a field.
* `Walk.run_descend_movedTo`: what is done one step further down.
-/

namespace GlimmerFormat

/-- A tour that stands elsewhere. -/
def Tour.movedTo {ρ : Type} (t : Tour ρ) (p : Position) : Tour ρ :=
  { t with position := p }

/-- What a tour has on record: its log and its trace. -/
def Tour.record {ρ : Type} (t : Tour ρ) : List LogRow × List ρ :=
  (t.log, t.trace)

/-- A tour that was moved stands where it was moved to. -/
@[simp] lemma Tour.position_movedTo {ρ : Type} (t : Tour ρ) (p : Position) :
    (t.movedTo p).position = p := rfl

namespace Walk

variable {ρ α β : Type}

/-- What is done with the outcome of a walk is done on the tour that it leaves. -/
lemma run_bind_state (x : Walk ρ α) (f : Except Fault α → StateM (Tour ρ) (Except Fault β))
    (t : Tour ρ) : (x.run >>= f) t = f (x.run t).1 (x.run t).2 := rfl

/-- A walk goes on where another one ended, unless that one failed. -/
lemma run_bind (x : Walk ρ α) (f : α → Walk ρ β) (t : Tour ρ) :
    (x >>= f).run t = match x.run t with
      | (.ok a, after) => (f a).run after
      | (.error e, after) => (.error e, after) := by
  rw [ExceptT.run_bind, run_bind_state]
  obtain ⟨outcome, after⟩ := x.run t
  cases outcome <;> rfl

/-- Behind a walk that succeeds, the next one goes on from the tour behind it. -/
lemma run_bind_of_ok {x : Walk ρ α} {f : α → Walk ρ β} {t after : Tour ρ} {a : α}
    (h : x.run t = (.ok a, after)) : (x >>= f).run t = (f a).run after := by
  rw [run_bind, h]

/-- Behind a walk that fails, nothing more is done. -/
lemma run_bind_of_error {x : Walk ρ α} {f : α → Walk ρ β} {t after : Tour ρ} {e : Fault}
    (h : x.run t = (.error e, after)) : (x >>= f).run t = (.error e, after) := by
  rw [run_bind, h]

/-- A failure is handled on the tour that it leaves. -/
lemma run_tryCatch (x : Walk ρ α) (handle : Fault → Walk ρ α) (t : Tour ρ) :
    (tryCatch x handle).run t = match x.run t with
      | (.ok a, after) => (.ok a, after)
      | (.error e, after) => (handle e).run after := by
  rw [ExceptT.run_tryCatch, run_bind_state]
  obtain ⟨outcome, after⟩ := x.run t
  cases outcome <;> rfl

/-- A result alone leaves the tour as it is. -/
lemma run_pure (a : α) (t : Tour ρ) : (pure a : Walk ρ α).run t = (.ok a, t) := rfl

/-- Asking for the position leaves the tour as it is. -/
lemma run_here (t : Tour ρ) : (here : Walk ρ Position).run t = (.ok t.position, t) := rfl

/-- What is done one step further down is done on the tour that stands there. -/
lemma run_descend_movedTo (step : Descent) (v : Value) (visit : Walk ρ α) (t : Tour ρ) :
    (descend step v visit).run t =
      ((visit.run (t.movedTo (t.position.push step v))).1,
        (visit.run (t.movedTo (t.position.push step v))).2.movedTo
          (visit.run (t.movedTo (t.position.push step v))).2.position.pop) := rfl

/-- What is given one step further down may be changed there or behind it. -/
lemma descend_map (f : α → β) (step : Descent) (v : Value) (visit : Walk ρ α) :
    descend step v (visit >>= fun a => pure (f a)) =
      descend step v visit >>= fun a => pure (f a) := by
  refine ExceptT.ext (funext fun t => ?_)
  rw [run_descend_movedTo, run_bind, run_bind, run_descend_movedTo]
  generalize visit.run (t.movedTo (t.position.push step v)) = result
  obtain ⟨outcome, after⟩ := result
  cases outcome <;> rfl

/-- A field that the current value has is read without a trace. -/
lemma run_field_of_some {name : String} {t : Tour ρ} {v : Value}
    (h : t.position.value.field? name = some v) : (field name).run t = (.ok v, t) := by
  rw [field, run_bind_of_ok (run_here t)]
  simp only [h]
  rfl

/-- A field that the current value lacks is logged as missing. -/
lemma run_field_of_none {name : String} {t : Tour ρ}
    (h : t.position.value.field? name = none) :
    (field name : Walk ρ Value).run t =
      (.error (.missingField t.position.value.typeName name),
        { t with log := t.log ++ [.missingField] }) := by
  rw [field, run_bind_of_ok (run_here t)]
  simp only [h]
  rfl

/-- The items of a list field are read without a trace. -/
lemma run_items_of_list {name : String} {t : Tour ρ} {vs : List Value}
    (h : t.position.value.field? name = some (.list vs)) :
    (items name).run t = (.ok vs, t) := by
  rw [items, run_bind_of_ok (run_field_of_some h)]
  rfl

/-- A field that holds no list has no items. -/
lemma run_items_of_not_list {name : String} {t : Tour ρ} {v : Value}
    (h : t.position.value.field? name = some v) (hlist : v.isList = false) :
    (items name : Walk ρ (List Value)).run t =
      (.error (.notAList t.position.value.typeName name v.typeName), t) := by
  rw [items, run_bind_of_ok (run_field_of_some h)]
  cases v with
  | list vs => cases hlist
  | _ => rfl

/-- A field that is read is a field of the current value. -/
lemma field?_of_run_field {name : String} {t after : Tour ρ} {v : Value}
    (h : (field name).run t = (.ok v, after)) : t.position.value.field? name = some v := by
  cases hfield : t.position.value.field? name with
  | none =>
    rw [run_field_of_none hfield] at h
    cases h
  | some w =>
    rw [run_field_of_some hfield] at h
    cases h
    rfl

/-- Items that are read stand in a list field of the current value. -/
lemma field?_of_run_items {name : String} {t after : Tour ρ} {vs : List Value}
    (h : (items name).run t = (.ok vs, after)) :
    t.position.value.field? name = some (.list vs) := by
  cases hfield : t.position.value.field? name with
  | none =>
    rw [items, run_bind_of_error (run_field_of_none hfield)] at h
    cases h
  | some w =>
    cases w with
    | list ws =>
      rw [run_items_of_list hfield] at h
      cases h
      rfl
    | _ =>
      rw [run_items_of_not_list hfield rfl] at h
      cases h

end Walk

end GlimmerFormat
