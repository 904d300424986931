import GlimmerFormat.Number.Style
import GlimmerFormat.Text.Quoted

/-!
# JSON values

A template arrives as a JSON value.  Whole numbers have any size and are kept apart from
floating-point ones, and the entries of an object keep their order.
-/

namespace GlimmerFormat

/-- A JSON value. -/
inductive Json where
  | null
  | bool (b : Bool)
  | int (n : Int)
  | float (x : Binary64)
  | str (s : String)
  | list (items : List Json)
  | object (entries : List (String × Json))
deriving Inhabited

namespace Json

/-- The name of the type of a value, as messages give it. -/
def typeName : Json → String
  | .null => "NoneType"
  | .bool _ => "bool"
  | .int _ => "int"
  | .float _ => "float"
  | .str _ => "str"
  | .list _ => "list"
  | .object _ => "dict"

/-- The text of a truth value. -/
def boolText (b : Bool) : String :=
  if b then "True" else "False"

mutual

/-- The text of a value inside a list or an object, where texts stand between quotes. -/
def inner : Json → String
  | .null => "None"
  | .bool b => boolText b
  | .int n => toString n
  | .float x => plainStyle.write x
  | .str s => Text.quoted s
  | .list items => "[" ++ ", ".intercalate (innerList items) ++ "]"
  | .object entries => "\x7b" ++ ", ".intercalate (innerEntries entries) ++ "\x7d"

/-- The texts of the items of a list. -/
def innerList : List Json → List String
  | [] => []
  | v :: vs => v.inner :: innerList vs

/-- The texts of the entries of an object, with their keys. -/
def innerEntries : List (String × Json) → List String
  | [] => []
  | (k, v) :: es => (Text.quoted k ++ ": " ++ v.inner) :: innerEntries es

end

/-- The text of a value on its own; a text stands for itself. -/
def display : Json → String
  | .str s => s
  | v => v.inner

/-- The value of a key in an object; other values have no keys. -/
def get? (key : String) : Json → Option Json
  | .object entries => entries.lookup key
  | _ => none

end Json

end GlimmerFormat
