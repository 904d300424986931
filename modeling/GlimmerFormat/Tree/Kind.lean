/-!
# Node kinds

A template is a tree of nodes of seventeen kinds.  The name of a kind is what the parser of
templates writes under the key `type`.
-/

namespace GlimmerFormat

/-- The kinds of nodes. -/
inductive Kind where
  | program
  | element
  | attr
  | text
  | mustache
  | block
  | modifier
  | comment
  | subexpression
  | path
  | hash
  | pair
  | concat
  | string
  | number
  | boolean
  | null
deriving DecidableEq

namespace Kind

/-- Every kind, from a whole template down to literals. -/
def all : List Kind :=
  [.program, .element, .attr, .text, .mustache, .block, .modifier, .comment,
   .subexpression, .path, .hash, .pair, .concat, .string, .number, .boolean, .null]

/-- The name of a kind. -/
def name : Kind → String
  | .program => "Program"
  | .element => "ElementNode"
  | .attr => "AttrNode"
  | .text => "TextNode"
  | .mustache => "MustacheStatement"
  | .block => "BlockStatement"
  | .modifier => "ElementModifierStatement"
  | .comment => "MustacheCommentStatement"
  | .subexpression => "SubExpression"
  | .path => "PathExpression"
  | .hash => "Hash"
  | .pair => "HashPair"
  | .concat => "ConcatStatement"
  | .string => "StringLiteral"
  | .number => "NumberLiteral"
  | .boolean => "BooleanLiteral"
  | .null => "NullLiteral"

/-- The kind of a given name. -/
def ofName? (s : String) : Option Kind :=
  all.find? fun k => k.name == s

/-- A kind is found by its own name. -/
@[simp] theorem ofName?_name (k : Kind) : ofName? k.name = some k := by
  cases k <;> rfl

/-- The kind that is found for a name has this name. -/
theorem name_of_ofName? {s : String} {k : Kind} (h : ofName? s = some k) : k.name = s := by
  simpa using List.find?_some h

end Kind

end GlimmerFormat
