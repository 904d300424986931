import GlimmerFormat.Proofs.Tree.Fields

/-!
# Defects of JSON values

A JSON value can be wrong in several places at once.  Its defects are listed in the order in which
they are met: those of the items of a list in turn, and those of an object that is to be a node in
the order of the fields that its kind declares.  An object without a type is no node and has no
defects, and of an object whose type is no kind nothing but that is said.

* `Json.defects`: all defects of a value, whether or not an earlier one stops the loading.
* `Value.reports_ofJson?`, `Node.reports_ofJson?`: loading succeeds if there is no defect and
  otherwise reports the first one.
-/

namespace GlimmerFormat

namespace Json

/-- Induction over JSON values: what holds of the items of a list holds of the list, and what holds
of the values in an object holds of the object. -/
@[elab_as_elim]
theorem inductionOn {motive : Json → Prop} (j : Json) (null : motive .null)
    (bool : ∀ b, motive (.bool b)) (int : ∀ n, motive (.int n)) (float : ∀ x, motive (.float x))
    (str : ∀ s, motive (.str s)) (list : ∀ items, (∀ j ∈ items, motive j) → motive (.list items))
    (object : ∀ es, (∀ e ∈ es, motive e.2) → motive (.object es)) : motive j :=
  Json.rec (motive_1 := motive) (motive_2 := fun items => ∀ j ∈ items, motive j)
    (motive_3 := fun es => ∀ e ∈ es, motive e.2) (motive_4 := fun e => motive e.2)
    null bool int float str list object
    (by simp) (fun _ _ hj hitems => List.forall_mem_cons.mpr ⟨hj, hitems⟩)
    (by simp) (fun _ _ he hes => List.forall_mem_cons.mpr ⟨he, hes⟩) (fun _ _ hj => hj) j

/-- The kind that a JSON value names as a type. -/
def kind? : Json → Option Kind
  | .str name => Kind.ofName? name
  | _ => none

/-- A kind is named by its name and by nothing else. -/
lemma kind?_eq_some {type : Json} {kind : Kind} :
    type.kind? = some kind ↔ type = .str kind.name := by
  constructor
  · intro h
    cases type with
    | str name => rw [Kind.name_of_ofName? h]
    | _ => cases h
  · rintro rfl
    exact Kind.ofName?_name kind

end Json

/-- The defects of a field of a node of some kind, if those of the entries of its object are
known. -/
def Field.defects (f : Field) (kind : Kind) (found : List (String × List Fault)) : List Fault :=
  match found.lookup f.key with
  | some defects => defects
  | none => if f.default?.isSome then [] else [.missingKey kind.name f.key]

namespace Json

/-- The defects of an object of some type, if those of its entries are known. -/
def typedDefects (type : Json) (found : List (String × List Fault)) : List Fault :=
  match type.kind? with
  | some kind => kind.fields.flatMap fun f => f.defects kind found
  | none => [.unsupportedKind type.display]

mutual

/-- The defects of a JSON value, in order. -/
def defects : Json → List Fault
  | .list items => defectsAll items
  | .object es =>
    match es.lookup "type" with
    | some type => type.typedDefects (entryDefects es)
    | none => []
  | _ => []

/-- The defects of JSON values in turn. -/
def defectsAll : List Json → List Fault
  | [] => []
  | j :: js => j.defects ++ defectsAll js

/-- The defects of each entry of an object. -/
def entryDefects : List (String × Json) → List (String × List Fault)
  | [] => []
  | (key, j) :: es => (key, j.defects) :: entryDefects es

end

/-- The type of an object that must be a node; without one it is null. -/
def typeOf (es : List (String × Json)) : Json :=
  (es.lookup "type").getD .null

/-- The defects of an object that must be a node, in order. -/
def nodeDefects (es : List (String × Json)) : List Fault :=
  (typeOf es).typedDefects (entryDefects es)

/-- The defects of values in turn are those of each. -/
lemma defectsAll_eq_flatMap (items : List Json) : defectsAll items = items.flatMap defects := by
  induction items with
  | nil => rfl
  | cons j items ih => rw [defectsAll, ih, List.flatMap_cons]

/-- The defects of an entry are those of its value. -/
lemma entryDefects_eq_map (es : List (String × Json)) :
    entryDefects es = es.map fun e => (e.1, e.2.defects) := by
  induction es with
  | nil => rfl
  | cons e es ih => rw [entryDefects, ih, List.map_cons]

end Json

/-- What is looked up among entries whose values are changed is the changed value. -/
lemma lookup_map_value {α β : Type} (g : α → β) (es : List (String × α)) (key : String) :
    (es.map fun e => (e.1, g e.2)).lookup key = (es.lookup key).map g := by
  induction es with
  | nil => rfl
  | cons e es ih =>
    rw [List.map_cons, List.lookup_cons, List.lookup_cons, ih]
    cases key == e.1 <;> rfl

/-- What is looked up among entries is one of them. -/
lemma mem_of_lookup_eq_some {α : Type} {es : List (String × α)} {key : String} {a : α}
    (h : es.lookup key = some a) : (key, a) ∈ es := by
  obtain ⟨before, behind, rfl, -⟩ := List.lookup_eq_some_iff.mp h
  simp

/-- The loaded entry of a key is its value in the object, loaded. -/
lemma Entries.lookup_ofJson (es : List (String × Json)) (key : String) :
    (Entries.ofJson es).lookup key = (es.lookup key).map Value.ofJson? := by
  rw [Entries.ofJson_eq_map, lookup_map_value]

/-- The defects at a key are those of its value in the object. -/
lemma Json.lookup_entryDefects (es : List (String × Json)) (key : String) :
    (Json.entryDefects es).lookup key = (es.lookup key).map Json.defects := by
  rw [Json.entryDefects_eq_map, lookup_map_value]

/-! ## The first defect -/

/-- A reading succeeds if there is no defect, and otherwise fails with the first one. -/
def Reports {α : Type} (x : Except Fault α) (defects : List Fault) : Prop :=
  match x with
  | .ok _ => defects = []
  | .error e => defects.head? = some e

section

variable {α β : Type} {x : Except Fault α} {ds es : List Fault}

/-- A reading that fails reports its one defect. -/
lemma reports_error (e : Fault) : Reports (.error e : Except Fault α) [e] :=
  rfl

/-- One reading behind another reports the defects of the first and then its own. -/
lemma Reports.bind {f : α → Except Fault β} (hx : Reports x ds) (hf : ∀ a, Reports (f a) es) :
    Reports (x >>= f) (ds ++ es) := by
  cases x with
  | ok a =>
    obtain rfl : ds = [] := hx
    exact hf a
  | error e =>
    have hhead : ds.head? = some e := hx
    show (ds ++ es).head? = some e
    rw [List.head?_append, hhead, Option.some_or]

/-- What is made of a value behind its reading has no defects. -/
lemma reports_map_iff {f : α → β} : Reports (f <$> x) ds ↔ Reports x ds := by
  cases x <;> exact Iff.rfl

/-- A list read up to its first fault reports the defects of its members in turn. -/
lemma reports_mapM {f : α → Except Fault β} {defects : α → List Fault} {xs : List α}
    (h : ∀ a ∈ xs, Reports (f a) (defects a)) : Reports (xs.mapM f) (xs.flatMap defects) := by
  induction xs with
  | nil => exact (rfl : ([] : List Fault) = [])
  | cons a xs ih =>
    have hothers := ih fun b hb => h b (by simp [hb])
    rw [List.mapM_cons, List.flatMap_cons]
    refine (h a (by simp)).bind fun b => ?_
    rw [bind_pure_comp]
    exact reports_map_iff.mpr hothers

/-- Reading succeeds exactly when there is no defect. -/
lemma Reports.exists_ok_iff (h : Reports x ds) : (∃ a, x = .ok a) ↔ ds = [] := by
  cases x with
  | ok a =>
    have hnone : ds = [] := h
    simp [hnone]
  | error e =>
    have hhead : ds.head? = some e := h
    have hsome : ds ≠ [] := by
      rintro rfl
      cases hhead
    simp [hsome]

/-- Reading fails exactly with the first defect. -/
lemma Reports.eq_error_iff (h : Reports x ds) (e : Fault) :
    x = .error e ↔ ds.head? = some e := by
  cases x with
  | ok a =>
    have hnone : ds = [] := h
    simp [hnone]
  | error e' =>
    have hhead : ds.head? = some e' := h
    simp [hhead]

end

/-! ## Loading reports the first defect -/

/-- A field reports its defects if each entry does. -/
lemma Field.reports_read {es : List (String × Json)} {f : Field}
    (h : ∀ j, es.lookup f.key = some j → Reports (Value.ofJson? j) j.defects) (kind : Kind) :
    Reports (f.read kind (Entries.ofJson es)) (f.defects kind (Json.entryDefects es)) := by
  unfold Field.read Field.defects Entries.optional Entries.required
  rw [Entries.lookup_ofJson, Json.lookup_entryDefects]
  cases hj : es.lookup f.key with
  | some j => cases f.default? <;> exact h j hj
  | none =>
    cases f.default? with
    | some default => exact (rfl : ([] : List Fault) = [])
    | none => exact reports_error _

/-- A node is read by the kind that its type names, and fails if that names none. -/
lemma Node.ofType?_eq (es : Entries) (type : Json) :
    ofType? es type = match type.kind? with
      | some kind => ofEntries? es kind
      | none => .error (.unsupportedKind type.display) := by
  cases type <;> rfl

/-- An object of some type reports its defects if each entry does. -/
lemma Node.reports_ofType? {es : List (String × Json)}
    (h : ∀ key j, es.lookup key = some j → Reports (Value.ofJson? j) j.defects) (type : Json) :
    Reports (ofType? (Entries.ofJson es) type) (type.typedDefects (Json.entryDefects es)) := by
  rw [ofType?_eq, Json.typedDefects]
  cases type.kind? with
  | none => exact reports_error _
  | some kind =>
    have hfields : Reports (fields <$> ofEntries? (Entries.ofJson es) kind)
        (kind.fields.flatMap fun f => f.defects kind (Json.entryDefects es)) := by
      rw [map_fields_ofEntries?]
      exact reports_mapM fun f _ => reports_map_iff.mpr (Field.reports_read (h f.key) kind)
    exact reports_map_iff.mp hfields

/-- Loading a value succeeds if it has no defect, and otherwise fails with the first one. -/
theorem Value.reports_ofJson? (j : Json) : Reports (Value.ofJson? j) j.defects := by
  induction j using Json.inductionOn with
  | null | bool | int | float | str => exact (rfl : ([] : List Fault) = [])
  | list items ih =>
    rw [Value.ofJson?, Value.listOfJson?_eq_mapM, Json.defects, Json.defectsAll_eq_flatMap]
    exact reports_map_iff.mpr (reports_mapM ih)
  | object es ih =>
    have hentries : ∀ key j, es.lookup key = some j → Reports (Value.ofJson? j) j.defects :=
      fun key j hj => ih (key, j) (mem_of_lookup_eq_some hj)
    rw [Value.ofJson?, Json.defects]
    cases es.lookup "type" with
    | none => exact (rfl : ([] : List Fault) = [])
    | some type => exact reports_map_iff.mpr (Node.reports_ofType? hentries type)

/-- Loading an object as a node succeeds if it has no defect, and otherwise fails with the first
one. -/
theorem Node.reports_ofJson? (es : List (String × Json)) :
    Reports (Node.ofJson? (.object es)) (Json.nodeDefects es) :=
  reports_ofType? (fun _ j _ => Value.reports_ofJson? j) (Json.typeOf es)

end GlimmerFormat
