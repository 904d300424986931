import GlimmerFormat.Fault
import GlimmerFormat.Tree.Node

/-!
# Trees from JSON

An object with the key `type` is a node of the kind that the key names.  Each field of the kind
is read from the key of the same name in camel case, or has a default if the key is absent.
Keys that the kind does not read play no part, whatever they hold.

The fields are read in order, up to the first defect.
-/

namespace GlimmerFormat

/-- The entries of an object, each loaded on its own. -/
abbrev Entries := List (String × Except Fault Value)

namespace Entries

/-- The value of a key that must be present. -/
def required (es : Entries) (kind : Kind) (key : String) : Except Fault Value :=
  match es.lookup key with
  | some loaded => loaded
  | none => .error (.missingKey kind.name key)

/-- The value of a key that may be absent. -/
def optional (es : Entries) (key : String) (default : Value) : Except Fault Value :=
  match es.lookup key with
  | some loaded => loaded
  | none => .ok default

end Entries

namespace Node

/-- The parameters by name of a call that has none. -/
def noPairs : Value := .node (.hash (.list []))

/-- The content of a block that has none. -/
def noContent : Value := .node (.program (.list []) (.list []))

/-- A node of a kind from the entries of its object. -/
def ofEntries? (es : Entries) : Kind → Except Fault Node
  | .program => do
    let body ← es.optional "body" (.list [])
    let blockParams ← es.optional "blockParams" (.list [])
    return .program body blockParams
  | .element => do
    let tag ← es.required .element "tag"
    let attributes ← es.optional "attributes" (.list [])
    let modifiers ← es.optional "modifiers" (.list [])
    let children ← es.optional "children" (.list [])
    let blockParams ← es.optional "blockParams" (.list [])
    return .element tag attributes modifiers children blockParams
  | .attr => do
    let name ← es.required .attr "name"
    let value ← es.required .attr "value"
    return .attr name value
  | .text => do
    let chars ← es.required .text "chars"
    return .text chars
  | .mustache => do
    let callee ← es.required .mustache "path"
    let params ← es.optional "params" (.list [])
    let named ← es.optional "hash" noPairs
    let escaped ← es.optional "escaped" (.bool true)
    return .mustache callee params named escaped
  | .block => do
    let callee ← es.required .block "path"
    let params ← es.optional "params" (.list [])
    let named ← es.optional "hash" noPairs
    let content ← es.optional "program" noContent
    let inverse ← es.optional "inverse" .null
    return .block callee params named content inverse
  | .modifier => do
    let callee ← es.required .modifier "path"
    let params ← es.optional "params" (.list [])
    let named ← es.optional "hash" noPairs
    return .modifier callee params named
  | .comment => do
    let value ← es.required .comment "value"
    return .comment value
  | .subexpression => do
    let callee ← es.required .subexpression "path"
    let params ← es.optional "params" (.list [])
    let named ← es.optional "hash" noPairs
    return .subexpression callee params named
  | .path => do
    let whole ← es.required .path "original"
    let parts ← es.required .path "parts"
    return .path whole parts
  | .hash => do
    let pairs ← es.optional "pairs" (.list [])
    return .hash pairs
  | .pair => do
    let key ← es.required .pair "key"
    let value ← es.required .pair "value"
    return .pair key value
  | .concat => do
    let parts ← es.required .concat "parts"
    return .concat parts
  | .string => do
    let value ← es.required .string "value"
    return .string value
  | .number => do
    let value ← es.required .number "value"
    return .number value
  | .boolean => do
    let value ← es.required .boolean "value"
    return .boolean value
  | .null => .ok .null

/-- A node of the kind that a JSON value names. -/
def ofType? (es : Entries) (type : Json) : Except Fault Node :=
  let kind? : Option Kind := match type with
    | .str name => Kind.ofName? name
    | _ => none
  match kind? with
  | some kind => ofEntries? es kind
  | none => .error (.unsupportedKind type.display)

end Node

mutual

/-- The value of a field, or of an item of a list in a field. -/
def Value.ofJson? : Json → Except Fault Value
  | .null => .ok .null
  | .bool b => .ok (.bool b)
  | .int n => .ok (.int n)
  | .float x => .ok (.float x)
  | .str s => .ok (.str s)
  | .list items => (Value.listOfJson? items).map .list
  | .object entries =>
    match entries.lookup "type" with
    | some type => (Node.ofType? (Entries.ofJson entries) type).map .node
    | none => .ok (.object entries)

/-- The items of a list, up to the first defect. -/
def Value.listOfJson? : List Json → Except Fault (List Value)
  | [] => .ok []
  | v :: vs => do
    let first ← Value.ofJson? v
    let others ← Value.listOfJson? vs
    return first :: others

/-- The entries of an object, each loaded on its own. -/
def Entries.ofJson : List (String × Json) → Entries
  | [] => []
  | (key, v) :: es => (key, Value.ofJson? v) :: Entries.ofJson es

end

/-- A whole tree, which must be a node. -/
def Node.ofJson? : Json → Except Fault Node
  | .object entries =>
    Node.ofType? (Entries.ofJson entries) ((entries.lookup "type").getD .null)
  | v => .error (.lacksPart "get" v.typeName)

/-- The entries of an object are loaded each on its own. -/
theorem Entries.ofJson_eq_map (es : List (String × Json)) :
    Entries.ofJson es = es.map fun e => (e.1, Value.ofJson? e.2) := by
  induction es with
  | nil => rfl
  | cons e es ih => simp [Entries.ofJson, ih]

/-- The items of a list are loaded in order, up to the first defect. -/
theorem Value.listOfJson?_eq_mapM (vs : List Json) :
    Value.listOfJson? vs = vs.mapM Value.ofJson? := by
  induction vs with
  | nil => rfl
  | cons v vs ih => simp [Value.listOfJson?, ih]

end GlimmerFormat
