import GlimmerFormat.Log
import GlimmerFormat.Printing.Markup
import GlimmerFormat.Printing.Reading

/-!
# Printing nodes

A node is printed as a document by the rule of its kind.  The rules go down the tree and count
the depth: a field is one level below its node, and an item of a list two.

Whatever stands in a field where a node belongs is printed as well: nothing as nothing, and a
value that is no node is a fault.  The order in which a rule reads the fields of its node
decides which of several faults stops it.
-/

namespace GlimmerFormat

open Markup (QuoteStyle)

/-- What something printed is, if there is something to print, and nothing otherwise. -/
def Logged.ifAny (count : Except Fault Nat) (printed : Logged Document) : Logged Document := do
  if 0 < (← Traced.ofExcept count) then printed else return .empty

/-- A call, from what its parts are printed as. -/
def callDocument (callee : Logged Part) (params : Value) (printedParams : Logged (List Part))
    (named : Value) (printedNamed : Logged Part) : Logged Document := do
  let head ← callee
  let positional ← Logged.ifAny params.count do
    return Markup.positional ((← printedParams).map Part.document)
  let byName ← match named with
    | .null => pure .empty
    | _ => Logged.ifAny named.pairCount do return Markup.named (← printedNamed)
  return Markup.call head positional byName

/-- A block, from what its parts are printed as.  The callee is printed twice. -/
def blockDocument (callee : Logged Part) (call : Logged Document) (content inverse : Value)
    (printedContent printedInverse : Logged Part) : Logged Document := do
  let blockParams ← Traced.ofExcept content.blockParams
  let call ← call
  let clause ← Logged.ifAny blockParams.count do
    return Markup.blockParams ((← Traced.ofExcept blockParams.elements).map Value.document)
  let body ← Logged.ifAny content.bodyCount do return Markup.blockBody (← printedContent)
  let otherwise ← match inverse with
    | .null => pure .empty
    | _ => Markup.blockInverse <$>
      Logged.ifAny inverse.bodyCount do return Markup.blockBody (← printedInverse)
  let closing ← callee
  return Markup.block (Markup.blockHeader call clause) body otherwise closing

/-- An element, from what its parts are printed as. -/
def elementDocument (tag attributes : Value) (printedAttributes : Logged (List Part))
    (modifiers : Value) (printedModifiers : Logged (List Part))
    (children : Value) (printedChildren : Logged Document) : Logged Document := do
  let selfCloses ← Traced.ofExcept (tag.selfCloses children)
  let attributesDoc ← Logged.ifAny attributes.count do
    return Markup.attributes ((← printedAttributes).map Part.document)
  let modifiersDoc ← Logged.ifAny modifiers.count do
    return Markup.modifiers attributes.isTruthy ((← printedModifiers).map Part.document)
  let name ← Traced.ofExcept (tag.text .length)
  let hasContent ← Traced.ofExcept children.hasContent
  let content ← if hasContent then Markup.children <$> printedChildren else pure .empty
  return Markup.element (Markup.startTag name attributesDoc modifiersDoc selfCloses) content
    (if selfCloses then .empty else Markup.endTag name)

mutual

/-- Prints a value where a node belongs, at a depth. -/
def Value.print (style : QuoteStyle) (depth : Nat) : Value → Logged Part
  | .null => pure (.doc .empty)
  | .node n => do
    Traced.note (.visiting depth (.node n))
    n.print style depth
  | v => do
    Traced.note (.visiting depth v)
    Traced.note .unsupported
    Traced.fail (.unsupportedKind v.typeName)

/-- Prints a node at a depth. -/
def Node.print (style : QuoteStyle) (depth : Nat) : Node → Logged Part
  | .path _ parts => Part.str <$> Traced.ofExcept parts.dotted
  | .string value => Traced.ofExcept (value.quotedLiteral style.mark)
  | .number value => pure (.str value.numberText)
  | .boolean value => pure (.str (if value.isTruthy then "true" else "false"))
  | .null => pure (.str "null")
  | .pair key value => do
    let printed ← value.print style (depth + 1)
    return .doc (Markup.pair key.document printed)
  | .hash pairs => do
    let printed ← pairs.printItems style (depth + 2) .hash "pairs"
    return .doc (Markup.pairs (printed.map Part.document))
  | .subexpression callee params named => do
    let call ← callDocument (callee.print style (depth + 1))
      params (params.printItems style (depth + 2) .subexpression "params")
      named (named.print style (depth + 1))
    return .doc (Markup.subexpression call)
  | .text chars => pure chars.part
  | .mustache callee params named escaped => do
    let call ← callDocument (callee.print style (depth + 1))
      params (params.printItems style (depth + 2) .mustache "params")
      named (named.print style (depth + 1))
    return .doc (Markup.mustache escaped.isTruthy call)
  | .comment value => do
    let text ← Traced.ofExcept (value.text .words)
    return .doc (Markup.comment text)
  | .modifier callee params named => do
    let call ← callDocument (callee.print style (depth + 1))
      params (params.printItems style (depth + 2) .modifier "params")
      named (named.print style (depth + 1))
    return .doc (Markup.modifier call)
  | .concat parts => do
    let printed ← parts.printItems style (depth + 2) .concat "parts"
    return .doc (Markup.concat (printed.map Part.document))
  | .attr name value => do
    let printed ← value.print style (depth + 1)
    return .doc (Markup.attr name.document value.isTextNode printed)
  | .program body _ => do
    let printed ← body.printStatements style (depth + 2) .program "body"
    return .doc printed
  | .block callee params named content inverse => do
    let printedCallee := callee.print style (depth + 1)
    let call := callDocument printedCallee
      params (params.printItems style (depth + 2) .block "params")
      named (named.print style (depth + 1))
    let printed ← blockDocument printedCallee call content inverse
      (content.print style (depth + 1)) (inverse.print style (depth + 1))
    return .doc printed
  | .element tag attributes modifiers children _ => do
    let printed ← elementDocument tag
      attributes (attributes.printItems style (depth + 2) .element "attributes")
      modifiers (modifiers.printItems style (depth + 2) .element "modifiers")
      children (children.printStatements style (depth + 2) .element "children")
    return .doc printed

/-- Prints each item of the list in a field of a kind. -/
def Value.printItems (style : QuoteStyle) (depth : Nat) (kind : Kind) (field : String) :
    Value → Logged (List Part)
  | .list items => Value.printAll style depth items
  | v => Traced.fail (.notAList kind.name field v.typeName)

/-- Prints values in order. -/
def Value.printAll (style : QuoteStyle) (depth : Nat) : List Value → Logged (List Part)
  | [] => return []
  | v :: vs => do
    let printed ← v.print style depth
    let others ← Value.printAll style depth vs
    return printed :: others

/-- Prints the statements in the list in a field of a kind.  Blank text is left out, and other
text is reflowed. -/
def Value.printStatements (style : QuoteStyle) (depth : Nat) (kind : Kind) (field : String) :
    Value → Logged Document
  | .list items => Document.ofList <$> Value.printBody style depth false items
  | v => Traced.fail (.notAList kind.name field v.typeName)

/-- Prints statements in order, with a separator before each but the first of all. -/
def Value.printBody (style : QuoteStyle) (depth : Nat) (after : Bool) :
    List Value → Logged (List Document)
  | [] => return []
  | v :: vs => do
    if ← Traced.ofExcept v.isBlankNode then
      Value.printBody style depth after vs
    else
      let printed ← match v with
        | .node (.text (.str s)) => pure (Document.paragraph s)
        | _ => Part.document <$> v.print style depth
      let others ← Value.printBody style depth true vs
      return (if after then [Markup.separator v.isTextNode] else []) ++ printed :: others

end

namespace Node

/-- The statements in a field of a node by themselves. -/
def statementsDocument (style : QuoteStyle) (n : Node) (field : String) : Logged Document :=
  match n.field? field with
  | some v => v.printStatements style 2 n.kind field
  | none => do
    Traced.note .missingField
    Traced.fail (.missingField n.kind.name field)

/-- The call that a node makes by itself. -/
def callDocument (style : QuoteStyle) : Node → Logged Document
  | n@(.subexpression callee params named) | n@(.mustache callee params named _)
  | n@(.modifier callee params named) | n@(.block callee params named _ _) =>
    GlimmerFormat.callDocument (callee.print style 1)
      params (params.printItems style 2 n.kind "params") named (named.print style 1)
  | n => do
    Traced.note .missingField
    Traced.fail (.missingField n.kind.name "path")

end Node

end GlimmerFormat
