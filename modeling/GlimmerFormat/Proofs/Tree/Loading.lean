import GlimmerFormat.Proofs.Tree.Defects
import Mathlib.Data.List.Forall2

/-!
# Loading is exact

What a JSON value is loaded as can be said without loading it: a list as the list of what its items
are loaded as, an object without a type as it is, and an object with a type as the node of the kind
that the type names, each of whose fields holds what the value of its key is loaded as or, if the
key is absent, its default.

* `Json.LoadsAs`: what a value is loaded as; `Value.ofJson?_eq_ok_iff` says that loading finds it.
* `Json.modelled`: a value without the keys that no kind reads; `Value.ofJson?_modelled` says that
  it is loaded alike.
* `Node.ofJson?_object`: an object is loaded as a node exactly if it has no defect, and otherwise
  its first defect is reported.
-/

namespace GlimmerFormat

namespace Json

/-! ## What a value is loaded as -/

/-- What a JSON value is loaded as.  A null that is given stays null, and a default takes the place
of an absent key alone. -/
inductive LoadsAs : Json → Value → Prop
  | null : LoadsAs .null .null
  | bool (b : Bool) : LoadsAs (.bool b) (.bool b)
  | int (n : Int) : LoadsAs (.int n) (.int n)
  | float (x : Binary64) : LoadsAs (.float x) (.float x)
  | str (s : String) : LoadsAs (.str s) (.str s)
  | list {items : List Json} {vs : List Value} (h : List.Forall₂ LoadsAs items vs) :
    LoadsAs (.list items) (.list vs)
  | object {es : List (String × Json)} (htype : es.lookup "type" = none) :
    LoadsAs (.object es) (.object es)
  | node {es : List (String × Json)} {n : Node}
    (htype : es.lookup "type" = some (.str n.kind.name))
    (hpresent : ∀ f ∈ n.kind.fields, ∀ j v, es.lookup f.key = some j →
      n.field? f.name = some v → LoadsAs j v)
    (habsent : ∀ f ∈ n.kind.fields, es.lookup f.key = none → n.field? f.name = f.default?) :
    LoadsAs (.object es) (.node n)

end Json

/-- Reading a list succeeds exactly when each member is read as the result in its place. -/
lemma map_eq_map_ok_iff {α β : Type} {f : α → Except Fault β} {R : α → β → Prop} {xs : List α}
    {ys : List β} (h : ∀ x ∈ xs, ∀ y, f x = .ok y ↔ R x y) :
    xs.map f = ys.map .ok ↔ List.Forall₂ R xs ys := by
  induction xs generalizing ys with
  | nil => cases ys <;> simp
  | cons x xs ih =>
    cases ys with
    | nil => simp
    | cons y ys =>
      rw [List.map_cons, List.map_cons, List.cons.injEq, List.forall₂_cons, h x (by simp),
        ih fun a ha => h a (by simp [ha])]

/-- A field is read as a value exactly if its key is loaded as the value, or is absent and the value
is its default. -/
lemma Field.read_eq_ok_iff {es : List (String × Json)} {f : Field} {kind : Kind} {v : Value}
    (h : ∀ j, es.lookup f.key = some j → ∀ v, Value.ofJson? j = .ok v ↔ j.LoadsAs v) :
    f.read kind (Entries.ofJson es) = .ok v ↔
      (∀ j, es.lookup f.key = some j → j.LoadsAs v) ∧
        (es.lookup f.key = none → some v = f.default?) := by
  unfold Field.read Entries.optional Entries.required
  rw [Entries.lookup_ofJson]
  cases hj : es.lookup f.key with
  | some j => cases f.default? <;> simp [h j hj v]
  | none => cases f.default? <;> simp [eq_comm]

/-- An object of some type is loaded as a node exactly if the type names the kind of the node and
the fields of the node are loaded from their keys. -/
lemma Node.ofType?_eq_ok_iff {es : List (String × Json)} {type : Json} {n : Node}
    (h : ∀ key j, es.lookup key = some j → ∀ v, Value.ofJson? j = .ok v ↔ j.LoadsAs v)
    (htype : es.lookup "type" = some type) :
    ofType? (Entries.ofJson es) type = .ok n ↔ (Json.object es).LoadsAs (.node n) := by
  have hread (f : Field) (v : Value) : f.read n.kind (Entries.ofJson es) = .ok v ↔
      (∀ j, es.lookup f.key = some j → j.LoadsAs v) ∧
        (es.lookup f.key = none → some v = f.default?) :=
    Field.read_eq_ok_iff (h f.key)
  constructor
  · intro hn
    rw [ofType?_eq] at hn
    cases hkind : type.kind? with
    | none => rw [hkind] at hn; cases hn
    | some kind =>
      rw [hkind] at hn
      obtain ⟨rfl, hvalues⟩ := ofEntries?_eq_ok_iff.mp hn
      rw [Json.kind?_eq_some.mp hkind] at htype
      refine .node htype ?_ ?_
      · intro f hf j v hj hv
        obtain rfl : n.value f = v := Option.some.inj ((field?_eq_some hf).symm.trans hv)
        exact ((hread f _).mp (hvalues f hf)).1 j hj
      · intro f hf hnone
        rw [field?_eq_some hf]
        exact ((hread f _).mp (hvalues f hf)).2 hnone
  · intro hn
    cases hn with
    | node htype' hpresent habsent =>
      obtain rfl : type = .str n.kind.name := Option.some.inj (htype.symm.trans htype')
      rw [ofType?_eq, Json.kind?_eq_some.mpr rfl]
      refine ofEntries?_eq_ok_iff.mpr ⟨rfl, fun f hf => (hread f _).mpr ⟨?_, ?_⟩⟩
      · intro j hj
        exact hpresent f hf j _ hj (field?_eq_some hf)
      · intro hnone
        rw [← field?_eq_some hf]
        exact habsent f hf hnone

/-- Loading a value finds what it is loaded as, if there is such. -/
theorem Value.ofJson?_eq_ok_iff (j : Json) (v : Value) :
    Value.ofJson? j = .ok v ↔ j.LoadsAs v := by
  induction j using Json.inductionOn generalizing v with
  | null | bool b | int n | float x | str s =>
    rw [Value.ofJson?, Except.ok.injEq]
    constructor
    · rintro rfl
      constructor
    · rintro ⟨⟩
      rfl
  | list items ih =>
    rw [Value.ofJson?, Value.listOfJson?_eq_mapM]
    constructor
    · intro h
      cases hvs : items.mapM Value.ofJson? with
      | error e => rw [hvs] at h; cases h
      | ok vs =>
        rw [hvs] at h
        cases h
        exact .list ((map_eq_map_ok_iff fun j hj v => ih j hj v).mp (mapM_eq_ok_iff.mp hvs))
    · rintro ⟨⟩
      next vs h =>
        rw [mapM_eq_ok_iff.mpr ((map_eq_map_ok_iff fun j hj v => ih j hj v).mpr h)]
        rfl
  | object es ih =>
    -- Loading is known for the entries, which is all that a node is made from.
    have hentries : ∀ key j, es.lookup key = some j → ∀ v, Value.ofJson? j = .ok v ↔ j.LoadsAs v :=
      fun key j hj => ih (key, j) (mem_of_lookup_eq_some hj)
    rw [Value.ofJson?]
    cases htype : es.lookup "type" with
    | none =>
      constructor
      · intro h
        cases h
        exact .object htype
      · intro h
        cases h with
        | object => rfl
        | node htype' => cases htype.symm.trans htype'
    | some type =>
      constructor
      · intro h
        cases hn : Node.ofType? (Entries.ofJson es) type with
        | error e => simp [hn, Except.map] at h
        | ok n =>
          obtain rfl : Value.node n = v := by simpa [hn, Except.map] using h
          exact (Node.ofType?_eq_ok_iff hentries htype).mp hn
      · intro h
        cases h with
        | object htype' => cases htype.symm.trans htype'
        | @node _ n htype' hpresent habsent =>
          have hn := (Node.ofType?_eq_ok_iff hentries htype).mpr (.node htype' hpresent habsent)
          simp [hn, Except.map]

/-! ## Keys that no kind reads -/

namespace Json

/-- Whether the kind that a type names has a field that is read from a key. -/
def reads (type : Json) (key : String) : Bool :=
  type.kind?.any fun kind => kind.fields.any fun f => f.key == key

/-- An object of some type with no other entries than those that its kind reads. -/
def typedEntries (type : Json) (es : List (String × Json)) : List (String × Json) :=
  ("type", type) :: es.filter fun e => type.reads e.1

mutual

/-- A JSON value without the keys that no kind reads, at any depth. -/
def modelled : Json → Json
  | .list items => .list (modelledAll items)
  | .object es =>
    match es.lookup "type" with
    | some type => .object (typedEntries type (modelledEntries es))
    | none => .object es
  | j => j

/-- JSON values without the keys that no kind reads. -/
def modelledAll : List Json → List Json
  | [] => []
  | j :: js => j.modelled :: modelledAll js

/-- The entries of an object, each without the keys inside it that no kind reads. -/
def modelledEntries : List (String × Json) → List (String × Json)
  | [] => []
  | (key, j) :: es => (key, j.modelled) :: modelledEntries es

end

/-- The entries of an object that must be a node, without the keys that no kind reads. -/
def modelledNode (es : List (String × Json)) : List (String × Json) :=
  typedEntries (typeOf es) (modelledEntries es)

/-- In values in turn, keys that no kind reads are left out of each. -/
lemma modelledAll_eq_map (items : List Json) : modelledAll items = items.map modelled := by
  induction items with
  | nil => rfl
  | cons j items ih => rw [modelledAll, ih, List.map_cons]

/-- In the entries of an object, keys that no kind reads are left out of each value. -/
lemma modelledEntries_eq_map (es : List (String × Json)) :
    modelledEntries es = es.map fun e => (e.1, e.2.modelled) := by
  induction es with
  | nil => rfl
  | cons e es ih => rw [modelledEntries, ih, List.map_cons]

/-- The type is not read as a field. -/
lemma key_ne_type {kind : Kind} {f : Field} (hf : f ∈ kind.fields) : f.key ≠ "type" := by
  have hall : ∀ key ∈ kind.fields.map Field.key, key ≠ "type" := by
    cases kind <;> decide
  exact hall f.key (List.mem_map_of_mem hf)

/-- Where keys are left out, those that are kept are looked up as before. -/
lemma lookup_filter_key {es : List (String × Json)} {keep : String → Bool} {key : String}
    (h : keep key = true) : (es.filter fun e => keep e.1).lookup key = es.lookup key := by
  induction es with
  | nil => rfl
  | cons e es ih =>
    rw [List.filter_cons, List.lookup_cons]
    cases hkey : key == e.1 with
    | true =>
      obtain rfl : key = e.1 := eq_of_beq hkey
      rw [if_pos h]
      exact List.lookup_cons_self
    | false =>
      split
      · rw [List.lookup_cons, hkey, ih]
      · exact ih

/-- The keys that a kind reads are all kept. -/
lemma lookup_typedEntries {type : Json} {kind : Kind} (hkind : type.kind? = some kind) {f : Field}
    (hf : f ∈ kind.fields) (es : List (String × Json)) :
    (typedEntries type es).lookup f.key = es.lookup f.key := by
  have hne : (f.key == "type") = false := beq_false_of_ne (key_ne_type hf)
  have hreads : type.reads f.key = true := by
    rw [reads, hkind, Option.any_some, List.any_eq_true]
    exact ⟨f, hf, beq_self_eq_true _⟩
  rw [typedEntries, List.lookup_cons, hne]
  exact lookup_filter_key hreads

end Json

/-- An object of some type is loaded alike without the keys that its kind does not read. -/
lemma Node.ofType?_typedEntries {es : List (String × Json)}
    (h : ∀ key j, es.lookup key = some j → Value.ofJson? j.modelled = Value.ofJson? j)
    (type : Json) :
    ofType? (Entries.ofJson (Json.typedEntries type (Json.modelledEntries es))) type =
      ofType? (Entries.ofJson es) type := by
  rw [ofType?_eq, ofType?_eq]
  cases hkind : type.kind? with
  | none => rfl
  | some kind =>
    refine ofEntries?_congr fun f hf => ?_
    rw [Entries.lookup_ofJson, Entries.lookup_ofJson, Json.lookup_typedEntries hkind hf,
      Json.modelledEntries_eq_map, lookup_map_value, Option.map_map]
    exact Option.map_congr (h f.key)

/-- A value is loaded alike without the keys that no kind reads. -/
theorem Value.ofJson?_modelled (j : Json) : Value.ofJson? j.modelled = Value.ofJson? j := by
  induction j using Json.inductionOn with
  | null | bool b | int n | float x | str s => rfl
  | list items ih =>
    have hitems : items.mapM (Value.ofJson? ∘ Json.modelled) = items.mapM Value.ofJson? :=
      mapM_congr ih
    rw [Json.modelled, Value.ofJson?, Value.ofJson?, Value.listOfJson?_eq_mapM,
      Value.listOfJson?_eq_mapM, Json.modelledAll_eq_map, List.mapM_map, hitems]
  | object es ih =>
    have hentries : ∀ key j, es.lookup key = some j → Value.ofJson? j.modelled = Value.ofJson? j :=
      fun key j hj => ih (key, j) (mem_of_lookup_eq_some hj)
    rw [Json.modelled]
    cases htype : es.lookup "type" with
    | none => rfl
    | some type =>
      have hsame : (Json.typedEntries type (Json.modelledEntries es)).lookup "type" = some type :=
        List.lookup_cons_self
      simp only [Value.ofJson?, htype, hsame, Node.ofType?_typedEntries hentries]

/-! ## Whole trees -/

/-- An object is loaded as a node exactly if it has no defect; otherwise its first defect is
reported.  It is loaded as the node of its kind whose fields hold what the values of their keys are
loaded as, or their defaults where keys are absent.  The keys that no kind reads may be left out, at
any depth: whatever they hold, they change neither the node nor the fault. -/
theorem Node.ofJson?_object (es : List (String × Json)) :
    ((∃ n, ofJson? (.object es) = .ok n) ↔ Json.nodeDefects es = []) ∧
      (∀ e, ofJson? (.object es) = .error e ↔ (Json.nodeDefects es).head? = some e) ∧
      (∀ n, ofJson? (.object es) = .ok n ↔ (Json.object es).LoadsAs (.node n)) ∧
      ofJson? (.object (Json.modelledNode es)) = ofJson? (.object es) := by
  have hreports := Node.reports_ofJson? es
  refine ⟨hreports.exists_ok_iff, hreports.eq_error_iff, ?_, ?_⟩
  · intro n
    cases htype : es.lookup "type" with
    | some type =>
      rw [← Node.ofType?_eq_ok_iff (fun _ j _ => Value.ofJson?_eq_ok_iff j) htype, ofJson?, htype,
        Option.getD_some]
    | none =>
      -- Without a type an object stays an object.
      rw [ofJson?, htype]
      constructor
      · exact nofun
      · intro h
        cases h with
        | node htype' => cases htype.symm.trans htype'
  · have hsame : (Json.modelledNode es).lookup "type" = some (Json.typeOf es) :=
      List.lookup_cons_self
    rw [ofJson?, ofJson?, hsame]
    exact Node.ofType?_typedEntries (fun _ j _ => Value.ofJson?_modelled j) (Json.typeOf es)

/-- Fields are gone through in their order, not in the order of the keys, and what stands under
another key is not looked at. -/
example : Json.nodeDefects [("loc", .object [("type", .int 5)]),
    ("value", .list [.list [.object [("type", .null)]]]), ("type", .str "HashPair")] =
      [.missingKey "HashPair" "key", .unsupportedKind "None"] := by
  decide

end GlimmerFormat
