import GlimmerFormat.Tree.OfJson
import Mathlib.Tactic.Lemma

/-!
# Declared fields

The nodes of a kind have certain fields, in a certain order.  Each is read from the key that spells
its name in camel case, and some may be absent, in which case they hold a default.

`Kind.fields` says so once for all kinds, as a table.  Loading the entries of an object as a node
is reading the fields of the table one after the other:

* `Node.fields_eq_map`: the fields of a node are those declared for its kind.
* `Node.map_fields_ofEntries?`: loading reads the declared fields in order.
* `Node.ofEntries?_eq_ok_iff`: a node is loaded exactly when each of its fields is read.
-/

namespace GlimmerFormat

namespace Text

/-- A text in which underscores are left out, and the letters behind them capital. -/
def camelChars (capital : Bool) : List Char → List Char
  | [] => []
  | c :: cs =>
    if c = '_' then camelChars true cs
    else (if capital then c.toUpper else c) :: camelChars false cs

/-- A name of several words in camel case. -/
def camelCase (s : String) : String :=
  String.ofList (camelChars false s.toList)

end Text

/-- A field that is declared for a kind of nodes, with a default if it may be absent. -/
structure Field where
  name : String
  default? : Option Value

namespace Field

/-- A field that must be present. -/
def required (name : String) : Field :=
  ⟨name, none⟩

/-- A field that may be absent. -/
def optional (name : String) (default : Value) : Field :=
  ⟨name, some default⟩

/-- The key that a field is read from. -/
def key (f : Field) : String :=
  Text.camelCase f.name

/-- Reads a field of a node of some kind from the entries of its object. -/
def read (f : Field) (kind : Kind) (es : Entries) : Except Fault Value :=
  match f.default? with
  | some default => es.optional f.key default
  | none => es.required kind f.key

end Field

/-- The fields that are declared for a call. -/
def callFields : List Field :=
  [.required "path", .optional "params" (.list []), .optional "hash" Node.noPairs]

/-- The fields that are declared for a kind of nodes, in order. -/
def Kind.fields : Kind → List Field
  | .program => [.optional "body" (.list []), .optional "block_params" (.list [])]
  | .element =>
    [.required "tag", .optional "attributes" (.list []), .optional "modifiers" (.list []),
      .optional "children" (.list []), .optional "block_params" (.list [])]
  | .attr => [.required "name", .required "value"]
  | .text => [.required "chars"]
  | .mustache => callFields ++ [.optional "escaped" (.bool true)]
  | .block =>
    callFields ++ [.optional "program" Node.noContent, .optional "inverse" .null]
  | .modifier | .subexpression => callFields
  | .comment | .string | .number | .boolean => [.required "value"]
  | .path => [.required "original", .required "parts"]
  | .hash => [.optional "pairs" (.list [])]
  | .pair => [.required "key", .required "value"]
  | .concat => [.required "parts"]
  | .null => []

namespace Node

/-- The value that a node holds in a field, if it has the field. -/
def value (n : Node) (f : Field) : Value :=
  (n.field? f.name).getD .null

/-- The fields of a node are those declared for its kind. -/
theorem fields_eq_map (n : Node) : n.fields = n.kind.fields.map fun f => (f.name, n.value f) := by
  cases n <;> rfl

end Node

namespace Node

/-- Every declared field is there. -/
lemma field?_eq_some {n : Node} {f : Field} (hf : f ∈ n.kind.fields) :
    n.field? f.name = some (n.value f) := by
  have hmem : (f.name, n.value f) ∈ n.fields := by
    rw [fields_eq_map]
    exact List.mem_map_of_mem hf
  have hsome : (n.field? f.name).isSome := by
    rw [field?, List.lookup_isSome_iff]
    exact ⟨_, hmem, by simp⟩
  obtain ⟨v, hv⟩ := Option.isSome_iff_exists.mp hsome
  rw [value, hv, Option.getD_some]

/-- A node has a field exactly if the field is declared for its kind. -/
lemma field?_eq_some_iff {n : Node} {name : String} {v : Value} :
    n.field? name = some v ↔ ∃ f ∈ n.kind.fields, f.name = name ∧ n.value f = v := by
  constructor
  · intro h
    obtain ⟨before, behind, hfields, -⟩ := List.lookup_eq_some_iff.mp h
    have hmem : (name, v) ∈ n.fields := by simp [hfields]
    rw [fields_eq_map] at hmem
    obtain ⟨f, hf, heq⟩ := List.mem_map.mp hmem
    exact ⟨f, hf, Prod.mk.inj heq⟩
  · rintro ⟨f, hf, rfl, rfl⟩
    exact field?_eq_some hf

/-- Loading the declared fields of a node gives the node back. -/
lemma ofEntries?_fields (n : Node) :
    ofEntries? (n.kind.fields.map fun f => (f.key, .ok (n.value f))) n.kind = .ok n := by
  cases n <;> rfl

/-- A node is made of its kind and the values of its declared fields. -/
lemma eq_of_value_eq {n m : Node} (hkind : n.kind = m.kind)
    (hvalue : ∀ f ∈ n.kind.fields, n.value f = m.value f) : n = m := by
  have hentries : (n.kind.fields.map fun f => (f.key, (.ok (n.value f) : Except Fault Value))) =
      m.kind.fields.map fun f => (f.key, .ok (m.value f)) := by
    rw [← hkind]
    exact List.map_congr_left fun f hf => by rw [hvalue f hf]
  have hn := ofEntries?_fields n
  rw [hentries, hkind, ofEntries?_fields m] at hn
  exact (Except.ok.inj hn).symm

/-! ## Loading the fields of a kind -/

/-- Loading the entries of an object reads the declared fields in order. -/
theorem map_fields_ofEntries? (es : Entries) (kind : Kind) :
    fields <$> ofEntries? es kind =
      kind.fields.mapM fun f => (fun v => (f.name, v)) <$> f.read kind es := by
  cases kind <;>
    simp only [ofEntries?, Kind.fields, callFields, List.cons_append, List.nil_append,
      List.mapM_cons, List.mapM_nil, map_bind, bind_map_left, bind_assoc, pure_bind, map_pure] <;>
    rfl

/-- Entries loaded as a node of a kind give a node of that kind. -/
lemma kind_of_ofEntries? {es : Entries} {kind : Kind} {n : Node}
    (h : ofEntries? es kind = .ok n) : n.kind = kind := by
  have hkinds : Node.kind <$> ofEntries? es kind = (fun _ => kind) <$> ofEntries? es kind := by
    cases kind <;> simp only [ofEntries?, map_bind, map_pure] <;> rfl
  rw [h] at hkinds
  exact Except.ok.inj hkinds

end Node

/-- Reading a list up to the first fault succeeds exactly when each reading does. -/
lemma mapM_eq_ok_iff {α β : Type} {f : α → Except Fault β} {xs : List α} {ys : List β} :
    xs.mapM f = .ok ys ↔ xs.map f = ys.map .ok := by
  induction xs generalizing ys with
  | nil => cases ys <;> simp [pure, Except.pure]
  | cons x xs ih =>
    rw [List.mapM_cons]
    cases hx : f x with
    | error e => cases ys <;> simp [bind, Except.bind, hx]
    | ok y =>
      cases hxs : xs.mapM f with
      | error e => cases ys <;> simp [bind, Except.bind, hx, ← ih, hxs]
      | ok zs => cases ys <;> simp [bind, Except.bind, pure, Except.pure, hx, ← ih, hxs]

/-- Readings that agree on a list read it alike. -/
lemma mapM_congr {α β : Type} {f g : α → Except Fault β} {xs : List α}
    (h : ∀ x ∈ xs, f x = g x) : xs.mapM f = xs.mapM g := by
  have hmap : (xs.map f).mapM id = (xs.map g).mapM id := by
    rw [List.map_congr_left h]
  simpa only [List.mapM_map, Function.id_comp] using hmap

namespace Node

/-- A node is loaded exactly when each of its declared fields is read, and read as its value. -/
theorem ofEntries?_eq_ok_iff {es : Entries} {kind : Kind} {n : Node} :
    ofEntries? es kind = .ok n ↔
      n.kind = kind ∧ ∀ f ∈ kind.fields, f.read kind es = .ok (n.value f) := by
  have hread : ∀ m : Node, m.kind = kind → (fields <$> ofEntries? es kind = .ok m.fields ↔
      ∀ f ∈ kind.fields, f.read kind es = .ok (m.value f)) := by
    rintro m rfl
    rw [map_fields_ofEntries?, mapM_eq_ok_iff, fields_eq_map, List.map_map, List.map_inj_left]
    refine forall₂_congr fun f _ => ?_
    cases f.read m.kind es <;> simp [Functor.map, Except.map]
  constructor
  · intro h
    have hkind := kind_of_ofEntries? h
    exact ⟨hkind, (hread n hkind).mp (by rw [h]; rfl)⟩
  · rintro ⟨hkind, hvalues⟩
    have hfields := (hread n hkind).mpr hvalues
    cases hm : ofEntries? es kind with
    | error e => rw [hm] at hfields; cases hfields
    | ok m =>
      have hmkind := kind_of_ofEntries? hm
      have hmvalues := (hread m hmkind).mp (by rw [hm]; rfl)
      have heq : m = n := by
        refine eq_of_value_eq (hmkind.trans hkind.symm) fun f hf => ?_
        rw [hmkind] at hf
        exact Except.ok.inj ((hmvalues f hf).symm.trans (hvalues f hf))
      rw [heq]

/-- Which node is loaded depends on nothing but the entries that its kind reads. -/
lemma ofEntries?_congr {es es' : Entries} {kind : Kind}
    (h : ∀ f ∈ kind.fields, es.lookup f.key = es'.lookup f.key) :
    ofEntries? es kind = ofEntries? es' kind := by
  have hread : ∀ f ∈ kind.fields, f.read kind es = f.read kind es' := by
    intro f hf
    unfold Field.read
    cases f.default? with
    | some default => simp only [Entries.optional, h f hf]
    | none => simp only [Entries.required, h f hf]
  have hfields : fields <$> ofEntries? es kind = fields <$> ofEntries? es' kind := by
    rw [map_fields_ofEntries?, map_fields_ofEntries?]
    exact mapM_congr fun f hf => by rw [hread f hf]
  cases hn : ofEntries? es kind with
  | error e =>
    rw [hn] at hfields
    cases hm : ofEntries? es' kind with
    | error e' => simpa [hm, Functor.map, Except.map] using hfields
    | ok m => simp [hm, Functor.map, Except.map] at hfields
  | ok n =>
    obtain ⟨hkind, hvalues⟩ := ofEntries?_eq_ok_iff.mp hn
    symm
    exact ofEntries?_eq_ok_iff.mpr ⟨hkind, fun f hf => (hread f hf).symm.trans (hvalues f hf)⟩

end Node

end GlimmerFormat
