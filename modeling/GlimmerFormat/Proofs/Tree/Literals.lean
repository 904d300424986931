import GlimmerFormat.Printing.Reading
import GlimmerFormat.Proofs.Tree.Tokens

/-!
# The literals of a tree

The string literals of a tree that hold no quotes of their own, in the order in which they are
printed.  They are what the quote style matters for.  A block names its callee again at its end,
so the literals in the callee stand there twice.

Where nothing is printed because there is nothing to print, there are no literals:
`Value.literals_of_count`, `Value.literals_of_pairCount` and so on.
-/

namespace GlimmerFormat

/-- The string that stands between quotes for a literal, if it holds no quotes itself. -/
def Value.quotable : Value → List String
  | .str s => if Text.holdsQuote s then [] else [s]
  | _ => []

mutual

/-- The literals without quotes in a value. -/
def Value.literals : Value → List String
  | .list items => Value.literalsAll items
  | .node n => n.literals
  | _ => []

/-- The literals without quotes in several values. -/
def Value.literalsAll : List Value → List String
  | [] => []
  | v :: vs => v.literals ++ Value.literalsAll vs

/-- The literals without quotes in a node. -/
def Node.literals : Node → List String
  | .string value => value.quotable
  | .pair _ value => value.literals
  | .hash pairs => pairs.literals
  | .subexpression callee params named | .mustache callee params named _
  | .modifier callee params named => callee.literals ++ params.literals ++ named.literals
  | .concat parts => parts.literals
  | .attr _ value => value.literals
  | .program body _ => body.literals
  | .block callee params named content inverse =>
    callee.literals ++ params.literals ++ named.literals ++ content.literals ++
      inverse.literals ++ callee.literals
  | .element _ attributes modifiers children _ =>
    attributes.literals ++ modifiers.literals ++ children.literals
  | .path .. | .number _ | .boolean _ | .null | .text _ | .comment _ => []

end

namespace Value

/-! ## Values without literals -/

/-- What has no items holds no literals. -/
lemma literals_of_count {v : Value} (h : v.count = .ok 0) : v.literals = [] := by
  cases v with
  | list items =>
    have hlength : items.length = 0 := by simpa [count, length?] using h
    obtain rfl := List.length_eq_zero_iff.mp hlength
    rfl
  | node n => cases h
  | _ => rfl

/-- Without parameters by name there are no literals in them. -/
lemma literals_of_pairCount {v : Value} (h : v.pairCount = .ok 0) : v.literals = [] := by
  cases v with
  | node n =>
    cases n with
    | hash pairs =>
      have hnone : pairs.count = .ok 0 := h
      have hliterals := literals_of_count hnone
      exact hliterals
    | _ => cases h
  | _ => cases h

/-- Without statements there are no literals in a body. -/
lemma literals_of_bodyCount {v : Value} (h : v.bodyCount = .ok 0) : v.literals = [] := by
  cases v with
  | node n =>
    cases n with
    | program body names =>
      have hnone : body.count = .ok 0 := h
      have hliterals := literals_of_count hnone
      exact hliterals
    | _ => cases h
  | _ => cases h

/-- A blank text holds no literals. -/
lemma literals_of_isBlankNode {v : Value} (h : v.isBlankNode = .ok true) : v.literals = [] := by
  cases v with
  | node n =>
    cases n with
    | text chars => rfl
    | _ => cases h
  | _ => cases h

/-- Where no value is more than blank text, there are no literals. -/
lemma literals_of_anyPresent {vs : List Value} (h : anyPresent vs = .ok false) :
    literalsAll vs = [] := by
  induction vs with
  | nil => rfl
  | cons v vs ih =>
    rw [anyPresent] at h
    cases hblank : v.isBlankNode with
    | error e =>
      rw [hblank] at h
      cases h
    | ok blank =>
      rw [hblank] at h
      cases blank with
      | false => cases h
      | true => rw [literalsAll, literals_of_isBlankNode hblank, ih h, List.nil_append]

/-- Without content there are no literals among children. -/
lemma literals_of_hasContent {v : Value} (h : v.hasContent = .ok false) : v.literals = [] := by
  cases v with
  | list items =>
    have hnone : anyPresent items = .ok false := h
    exact literals_of_anyPresent hnone
  | node n => cases h
  | _ => rfl

end Value

end GlimmerFormat
