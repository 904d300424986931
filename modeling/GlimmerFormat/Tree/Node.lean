import GlimmerFormat.Tree.Json
import GlimmerFormat.Tree.Kind

/-!
# Syntax trees

A node has a kind and a value in each of the fields of its kind.  Nothing holds a field to
the type that templates need there, so a value may be of any JSON type, or again a node.
-/

namespace GlimmerFormat

mutual

/-- What a field of a node may hold.  An object that is no node keeps its JSON entries. -/
inductive Value where
  | null
  | bool (b : Bool)
  | int (n : Int)
  | float (x : Binary64)
  | str (s : String)
  | list (items : List Value)
  | object (entries : List (String × Json))
  | node (n : Node)

/-- A node of a template, with its fields in order.  The nodes that call something hold the
callee, the parameters by position and the parameters by name. -/
inductive Node where
  | path (whole parts : Value)
  | string (value : Value)
  | number (value : Value)
  | boolean (value : Value)
  | null
  | pair (key value : Value)
  | hash (pairs : Value)
  | subexpression (callee params named : Value)
  | text (chars : Value)
  | mustache (callee params named escaped : Value)
  | comment (value : Value)
  | modifier (callee params named : Value)
  | concat (parts : Value)
  | attr (name value : Value)
  | program (body blockParams : Value)
  | block (callee params named content inverse : Value)
  | element (tag attributes modifiers children blockParams : Value)

end

namespace Node

/-- The kind of a node. -/
def kind : Node → Kind
  | .path .. => .path
  | .string .. => .string
  | .number .. => .number
  | .boolean .. => .boolean
  | .null => .null
  | .pair .. => .pair
  | .hash .. => .hash
  | .subexpression .. => .subexpression
  | .text .. => .text
  | .mustache .. => .mustache
  | .comment .. => .comment
  | .modifier .. => .modifier
  | .concat .. => .concat
  | .attr .. => .attr
  | .program .. => .program
  | .block .. => .block
  | .element .. => .element

/-- The fields of a node with their names, in order. -/
def fields : Node → List (String × Value)
  | .path whole parts => [("original", whole), ("parts", parts)]
  | .string value => [("value", value)]
  | .number value => [("value", value)]
  | .boolean value => [("value", value)]
  | .null => []
  | .pair key value => [("key", key), ("value", value)]
  | .hash pairs => [("pairs", pairs)]
  | .subexpression callee params named =>
    [("path", callee), ("params", params), ("hash", named)]
  | .text chars => [("chars", chars)]
  | .mustache callee params named escaped =>
    [("path", callee), ("params", params), ("hash", named), ("escaped", escaped)]
  | .comment value => [("value", value)]
  | .modifier callee params named => [("path", callee), ("params", params), ("hash", named)]
  | .concat parts => [("parts", parts)]
  | .attr name value => [("name", name), ("value", value)]
  | .program body blockParams => [("body", body), ("block_params", blockParams)]
  | .block callee params named content inverse =>
    [("path", callee), ("params", params), ("hash", named), ("program", content),
     ("inverse", inverse)]
  | .element tag attributes modifiers children blockParams =>
    [("tag", tag), ("attributes", attributes), ("modifiers", modifiers),
     ("children", children), ("block_params", blockParams)]

/-- The value of a field, if nodes of this kind have it. -/
def field? (n : Node) (name : String) : Option Value :=
  n.fields.lookup name

end Node

namespace Value

/-- The name of the type of a value: of a node, its kind. -/
def typeName : Value → String
  | .null => "NoneType"
  | .bool _ => "bool"
  | .int _ => "int"
  | .float _ => "float"
  | .str _ => "str"
  | .list _ => "list"
  | .object _ => "dict"
  | .node n => n.kind.name

/-- Whether a value counts as true: nothing, zero and what is empty do not. -/
def isTruthy : Value → Bool
  | .null => false
  | .bool b => b
  | .int n => n != 0
  | .float x => !x.isZero
  | .str s => !s.isEmpty
  | .list items => !items.isEmpty
  | .object entries => !entries.isEmpty
  | .node _ => true

/-- The number of characters, items or entries of a value that has such. -/
def length? : Value → Option Nat
  | .str s => some s.length
  | .list items => some items.length
  | .object entries => some entries.length
  | _ => none

/-- What a value yields one by one: a text its characters, an object its keys. -/
def elements? : Value → Option (List Value)
  | .str s => some (s.toList.map fun c => .str (String.singleton c))
  | .list items => some items
  | .object entries => some (entries.map fun e => .str e.1)
  | _ => none

/-- A value that is a text. -/
def text? : Value → Option String
  | .str s => some s
  | _ => none

/-- Whether a value is a list. -/
def isList : Value → Bool
  | .list _ => true
  | _ => false

/-- The value of a field; only nodes have fields. -/
def field? (v : Value) (name : String) : Option Value :=
  match v with
  | .node n => n.field? name
  | _ => none

/-- Whether a value is a node of the kind of plain text. -/
def isTextNode : Value → Bool
  | .node (.text _) => true
  | _ => false

end Value

end GlimmerFormat
