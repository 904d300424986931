import GlimmerFormat.Tree.Node

/-!
# Texts of values

Where a template holds a number, any value may stand; its text is then its display.  A node is
displayed as its kind with its fields in parentheses.
-/

namespace GlimmerFormat

/-- The display of a node from the displays of its fields. -/
def Node.displayFields (kind : Kind) (fields : List (String × String)) : String :=
  kind.name ++ "(" ++ ", ".intercalate (fields.map fun f => f.1 ++ "=" ++ f.2) ++ ")"

mutual

/-- The text of a value inside a list, an object or a node, where texts stand between quotes. -/
def Value.inner : Value → String
  | .null => Json.inner .null
  | .bool b => Json.inner (.bool b)
  | .int n => Json.inner (.int n)
  | .float x => Json.inner (.float x)
  | .str s => Json.inner (.str s)
  | .list items => "[" ++ ", ".intercalate (Value.innerList items) ++ "]"
  | .object entries => Json.inner (.object entries)
  | .node n => n.inner

/-- The texts of the items of a list. -/
def Value.innerList : List Value → List String
  | [] => []
  | v :: vs => v.inner :: Value.innerList vs

/-- The text of a node. -/
def Node.inner : Node → String
  | .path whole parts =>
    Node.displayFields .path [("original", whole.inner), ("parts", parts.inner)]
  | .string value => Node.displayFields .string [("value", value.inner)]
  | .number value => Node.displayFields .number [("value", value.inner)]
  | .boolean value => Node.displayFields .boolean [("value", value.inner)]
  | .null => Node.displayFields .null []
  | .pair key value => Node.displayFields .pair [("key", key.inner), ("value", value.inner)]
  | .hash pairs => Node.displayFields .hash [("pairs", pairs.inner)]
  | .subexpression callee params named =>
    Node.displayFields .subexpression
      [("path", callee.inner), ("params", params.inner), ("hash", named.inner)]
  | .text chars => Node.displayFields .text [("chars", chars.inner)]
  | .mustache callee params named escaped =>
    Node.displayFields .mustache
      [("path", callee.inner), ("params", params.inner), ("hash", named.inner),
       ("escaped", escaped.inner)]
  | .comment value => Node.displayFields .comment [("value", value.inner)]
  | .modifier callee params named =>
    Node.displayFields .modifier
      [("path", callee.inner), ("params", params.inner), ("hash", named.inner)]
  | .concat parts => Node.displayFields .concat [("parts", parts.inner)]
  | .attr name value =>
    Node.displayFields .attr [("name", name.inner), ("value", value.inner)]
  | .program body blockParams =>
    Node.displayFields .program [("body", body.inner), ("block_params", blockParams.inner)]
  | .block callee params named content inverse =>
    Node.displayFields .block
      [("path", callee.inner), ("params", params.inner), ("hash", named.inner),
       ("program", content.inner), ("inverse", inverse.inner)]
  | .element tag attributes modifiers children blockParams =>
    Node.displayFields .element
      [("tag", tag.inner), ("attributes", attributes.inner), ("modifiers", modifiers.inner),
       ("children", children.inner), ("block_params", blockParams.inner)]

end

/-- The text of a value on its own; a text stands for itself. -/
def Value.display : Value → String
  | .str s => s
  | v => v.inner

/-- The bound below which whole floating-point numbers are written as whole numbers. -/
def wholeLimit : Nat := Nat.pow 10 21

/-- The text of a number in a template.  A whole floating-point number of a magnitude below
`wholeLimit` is written as a whole number, without a sign for zero. -/
def Value.numberText : Value → String
  | .float x =>
    match x.wholeMagnitude? with
    | some m =>
      if m < wholeLimit then (if x.isNegative && m != 0 then "-" else "") ++ toString m
      else plainStyle.write x
    | none => plainStyle.write x
  | v => v.display

end GlimmerFormat
