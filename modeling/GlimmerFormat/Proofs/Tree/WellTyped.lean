import GlimmerFormat.Tree.Node
import Mathlib.Tactic.Lemma

/-!
# Well-typed trees

A syntax tree may hold any value in any field.  It is well-typed if each field holds what is
declared for it: texts, numbers and truth values where these belong, and nodes of the declared
kinds where nodes belong.

`Node.WellTyped` is an inductive predicate with one rule for each kind of node, so a proof about
well-typed trees is an induction over its rules.  `Node.WellTyped.exists_path`,
`Node.WellTyped.exists_hash` and `Node.WellTyped.exists_program` say what a well-typed node of one
of these kinds looks like.
-/

namespace GlimmerFormat

namespace Kind

/-- The kinds of nodes that may stand as a parameter or as the value of a pair. -/
def isExpression : Kind → Bool
  | .path | .subexpression | .string | .number | .boolean | .null => true
  | _ => false

/-- The kinds of nodes that may stand in the body of a program or among the children of an
element. -/
def isStatement : Kind → Bool
  | .element | .block | .mustache | .comment | .text => true
  | _ => false

/-- The kinds of nodes that may stand between quotes. -/
def isQuotable : Kind → Bool
  | .text | .mustache => true
  | _ => false

/-- The kinds of nodes that may stand as the value of an attribute. -/
def isAttributeValue : Kind → Bool
  | .text | .mustache | .concat => true
  | _ => false

end Kind

/-- Whether a value counts as a number.  Truth values do. -/
def Value.isNumber : Value → Bool
  | .int _ | .float _ | .bool _ => true
  | _ => false

namespace Node

/-- The nodes of a call are of the kinds declared for its callee, its parameters by position and
its parameters by name. -/
structure CallKinds (callee : Node) (params : List Node) (named : Node) : Prop where
  callee : callee.kind = .path
  params : ∀ p ∈ params, p.kind.isExpression = true
  named : named.kind = .hash

/-- A node each of whose fields holds what is declared for it, and so for the nodes inside. -/
inductive WellTyped : Node → Prop
  | path (whole : String) (parts : List String) :
    WellTyped (.path (.str whole) (.list (parts.map .str)))
  | string (s : String) : WellTyped (.string (.str s))
  | number {v : Value} (h : v.isNumber = true) : WellTyped (.number v)
  | boolean (b : Bool) : WellTyped (.boolean (.bool b))
  | null : WellTyped .null
  | pair (key : String) {value : Node} (hkind : value.kind.isExpression = true)
    (hvalue : WellTyped value) : WellTyped (.pair (.str key) (.node value))
  | hash {pairs : List Node} (hkinds : ∀ p ∈ pairs, p.kind = .pair)
    (hpairs : ∀ p ∈ pairs, WellTyped p) : WellTyped (.hash (.list (pairs.map .node)))
  | subexpression {callee named : Node} {params : List Node}
    (hkinds : CallKinds callee params named) (hcallee : WellTyped callee)
    (hparams : ∀ p ∈ params, WellTyped p) (hnamed : WellTyped named) :
    WellTyped (.subexpression (.node callee) (.list (params.map .node)) (.node named))
  | text (chars : String) : WellTyped (.text (.str chars))
  | mustache {callee named : Node} {params : List Node}
    (hkinds : CallKinds callee params named) (hcallee : WellTyped callee)
    (hparams : ∀ p ∈ params, WellTyped p) (hnamed : WellTyped named) (escaped : Bool) :
    WellTyped (.mustache (.node callee) (.list (params.map .node)) (.node named) (.bool escaped))
  | comment (text : String) : WellTyped (.comment (.str text))
  | modifier {callee named : Node} {params : List Node}
    (hkinds : CallKinds callee params named) (hcallee : WellTyped callee)
    (hparams : ∀ p ∈ params, WellTyped p) (hnamed : WellTyped named) :
    WellTyped (.modifier (.node callee) (.list (params.map .node)) (.node named))
  | concat {parts : List Node} (hkinds : ∀ p ∈ parts, p.kind.isQuotable = true)
    (hparts : ∀ p ∈ parts, WellTyped p) : WellTyped (.concat (.list (parts.map .node)))
  | attr (name : String) {value : Node} (hkind : value.kind.isAttributeValue = true)
    (hvalue : WellTyped value) : WellTyped (.attr (.str name) (.node value))
  | program {body : List Node} (hkinds : ∀ n ∈ body, n.kind.isStatement = true)
    (hbody : ∀ n ∈ body, WellTyped n) (blockParams : List String) :
    WellTyped (.program (.list (body.map .node)) (.list (blockParams.map .str)))
  | block {callee named content : Node} {params : List Node} {inverse : Option Node}
    (hkinds : CallKinds callee params named) (hcallee : WellTyped callee)
    (hparams : ∀ p ∈ params, WellTyped p) (hnamed : WellTyped named)
    (hcontentKind : content.kind = .program) (hcontent : WellTyped content)
    (hinverseKind : ∀ n ∈ inverse, n.kind = .program)
    (hinverse : ∀ n ∈ inverse, WellTyped n) :
    WellTyped (.block (.node callee) (.list (params.map .node)) (.node named) (.node content)
      (inverse.elim .null .node))
  | element (tag : String) {attributes modifiers children : List Node}
    (hattributeKinds : ∀ n ∈ attributes, n.kind = .attr)
    (hattributes : ∀ n ∈ attributes, WellTyped n)
    (hmodifierKinds : ∀ n ∈ modifiers, n.kind = .modifier)
    (hmodifiers : ∀ n ∈ modifiers, WellTyped n)
    (hchildKinds : ∀ n ∈ children, n.kind.isStatement = true)
    (hchildren : ∀ n ∈ children, WellTyped n) (blockParams : List String) :
    WellTyped (.element (.str tag) (.list (attributes.map .node)) (.list (modifiers.map .node))
      (.list (children.map .node)) (.list (blockParams.map .str)))

namespace WellTyped

/-- A well-typed path holds a text and a list of its parts. -/
lemma exists_path {n : Node} (h : n.WellTyped) (hkind : n.kind = .path) :
    ∃ (whole : String) (parts : List String),
      n = .path (.str whole) (.list (parts.map .str)) := by
  cases h with
  | path whole parts => exact ⟨whole, parts, rfl⟩
  | _ => cases hkind

/-- A well-typed hash holds a list of pairs. -/
lemma exists_hash {n : Node} (h : n.WellTyped) (hkind : n.kind = .hash) :
    ∃ pairs : List Node, n = .hash (.list (pairs.map .node)) := by
  cases h with
  | @hash pairs hkinds hpairs => exact ⟨pairs, rfl⟩
  | _ => cases hkind

/-- A well-typed program holds a list of statements and a list of names. -/
lemma exists_program {n : Node} (h : n.WellTyped) (hkind : n.kind = .program) :
    ∃ (body : List Node) (blockParams : List String),
      n = .program (.list (body.map .node)) (.list (blockParams.map .str)) := by
  cases h with
  | @program body hkinds hbody blockParams => exact ⟨body, blockParams, rfl⟩
  | _ => cases hkind

end WellTyped

/-- A node that may stand in the body of a program, and that is well-typed. -/
structure IsStatement (n : Node) : Prop where
  wellTyped : n.WellTyped
  kind : n.kind.isStatement = true

end Node

end GlimmerFormat
