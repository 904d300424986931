import GlimmerFormat.Fault
import GlimmerFormat.Tree.Display

/-!
# Integers in values

The display of a value writes every integer in it, however deep it stands.  One that cannot be
written is a fault, and there is no display.
-/

namespace GlimmerFormat

namespace Json

mutual

/-- The integers in a JSON value, in order. -/
def integers : Json → List Int
  | .int n => [n]
  | .list items => integersAll items
  | .object entries => integersOf entries
  | _ => []

/-- The integers in several values, in order. -/
def integersAll : List Json → List Int
  | [] => []
  | v :: vs => v.integers ++ integersAll vs

/-- The integers in the entries of an object, in order. -/
def integersOf : List (String × Json) → List Int
  | [] => []
  | (_, v) :: es => v.integers ++ integersOf es

end

end Json

mutual

/-- The integers in a value, in order. -/
def Value.integers : Value → List Int
  | .int n => [n]
  | .list items => Value.integersAll items
  | .object entries => Json.integersOf entries
  | .node n => n.integers
  | _ => []

/-- The integers in several values, in order. -/
def Value.integersAll : List Value → List Int
  | [] => []
  | v :: vs => v.integers ++ Value.integersAll vs

/-- The integers in the fields of a node, in order. -/
def Node.integers : Node → List Int
  | .path whole parts => whole.integers ++ parts.integers
  | .string value | .number value | .boolean value | .comment value => value.integers
  | .null => []
  | .pair key value => key.integers ++ value.integers
  | .hash pairs => pairs.integers
  | .subexpression callee params named | .modifier callee params named =>
    callee.integers ++ params.integers ++ named.integers
  | .text chars => chars.integers
  | .mustache callee params named escaped =>
    callee.integers ++ params.integers ++ named.integers ++ escaped.integers
  | .concat parts => parts.integers
  | .attr name value => name.integers ++ value.integers
  | .program body blockParams => body.integers ++ blockParams.integers
  | .block callee params named content inverse =>
    callee.integers ++ params.integers ++ named.integers ++ content.integers ++ inverse.integers
  | .element tag attributes modifiers children blockParams =>
    tag.integers ++ attributes.integers ++ modifiers.integers ++ children.integers ++
      blockParams.integers

end

namespace Value

/-- A value whose integers can all be written. -/
def IsWritable (v : Value) : Prop :=
  ∀ n ∈ v.integers, GlimmerFormat.IsWritable n

instance (v : Value) : Decidable v.IsWritable :=
  inferInstanceAs (Decidable (∀ n ∈ v.integers, GlimmerFormat.IsWritable n))

/-- Nothing, if a value can be written. -/
def written (v : Value) : Except Fault Unit :=
  if v.IsWritable then .ok () else .error .unwritable

/-- The text of a number in a template, if it can be written. -/
def numberText? (v : Value) : Except Fault String := do
  v.written
  return v.numberText

/-- The fault at a value that stands among documents and is none.  It tells the display of the
value, which must be written for that. -/
def strayFault (v : Value) : Fault :=
  if v.IsWritable then .strayDocument v.inner else .unwritable

end Value

/-- A tree whose integers can all be written. -/
def Node.IsWritable (n : Node) : Prop :=
  ∀ i ∈ n.integers, GlimmerFormat.IsWritable i

instance (n : Node) : Decidable n.IsWritable :=
  inferInstanceAs (Decidable (∀ i ∈ n.integers, GlimmerFormat.IsWritable i))

end GlimmerFormat
