import GlimmerFormat.Document.Paragraph
import GlimmerFormat.Tree.Integers

/-!
# Reading values

Printing reads texts, lists and nodes out of fields that may hold anything.  Each way of
reading a value says which values it accepts and what it makes of the others.
-/

namespace GlimmerFormat.Value

/-- A value where something printed belongs: nothing, a text, or what is no document. -/
def part : Value → Part
  | .null => .doc .empty
  | .str s => .str s
  | v => .doc (.stray v.strayFault)

/-- A value among documents. -/
def document (v : Value) : Document :=
  v.part.document

/-- The number of characters, items or entries of a value. -/
def count (v : Value) : Except Fault Nat :=
  match v.length? with
  | some n => .ok n
  | none => .error (.illTyped .length v.typeName)

/-- What a value yields one by one. -/
def elements (v : Value) : Except Fault (List Value) :=
  match v.elements? with
  | some vs => .ok vs
  | none => .error (.illTyped .elements v.typeName)

/-- A value that must be a text, and what it is needed for. -/
def text (need : Need) (v : Value) : Except Fault String :=
  match v.text? with
  | some s => .ok s
  | none => .error (.illTyped need v.typeName)

/-- The number of the parameters by name. -/
def pairCount : Value → Except Fault Nat
  | .node (.hash pairs) => pairs.count
  | v => .error (.lacksPart "pairs" v.typeName)

/-- The number of the statements of a program. -/
def bodyCount : Value → Except Fault Nat
  | .node (.program body _) => body.count
  | v => .error (.lacksPart "body" v.typeName)

/-- The block parameters of a program or an element. -/
def blockParams : Value → Except Fault Value
  | .node (.program _ blockParams) => .ok blockParams
  | .node (.element _ _ _ _ blockParams) => .ok blockParams
  | v => .error (.lacksPart "block_params" v.typeName)

/-- Whether a value is a text node that holds only blanks.  Only a text can be asked that. -/
def isBlankNode : Value → Except Fault Bool
  | .node (.text (.str s)) => .ok (Text.isBlankText s)
  | .node (.text chars) => .error (.lacksPart "strip" chars.typeName)
  | _ => .ok false

/-- Whether some value is not a blank text node; none is looked at behind the first of these. -/
def anyPresent : List Value → Except Fault Bool
  | [] => .ok false
  | v :: vs => do
    if ← v.isBlankNode then anyPresent vs else return true

/-- Whether some child is not a blank text node. -/
def hasContent (children : Value) : Except Fault Bool := do
  anyPresent (← children.elements)

/-- Values that must be texts, as the parts of a path from an index on. -/
def partTexts (index : Nat) : List Value → Except Fault (List String)
  | [] => .ok []
  | v :: vs => do
    let s ← v.text (.part index)
    let others ← partTexts (index + 1) vs
    return s :: others

/-- The parts of a path with points between them. -/
def dotted (parts : Value) : Except Fault String :=
  match parts.elements? with
  | some vs => (".".intercalate ·) <$> partTexts 0 vs
  | none => .error (.illTyped .parts parts.typeName)

/-- Whether a value contains a quote, as a text, as an item or as a key. -/
def containsQuote : Value → Except Fault Bool
  | .str s => .ok (s.toList.any isQuote)
  | .list items => .ok (items.any fun
    | .str s => isQuoteText s
    | _ => false)
  | .object entries => .ok (entries.any fun e => isQuoteText e.1)
  | v => .error (.illTyped .container v.typeName)
where
  isQuote (c : Char) : Bool := c == '"' || c == '\''
  isQuoteText (s : String) : Bool := s == "\"" || s == "'"

/-- A string literal between quotes.  One that contains a quote itself stands as it is. -/
def quotedLiteral (quote : String) (v : Value) : Except Fault Part := do
  if ← v.containsQuote then
    match v with
    | .str s => return .str s
    | _ => return .doc (.stray v.strayFault)
  else
    let s ← v.text .quotable
    return .str (quote ++ s ++ quote)

/-- The name of an element, if it is a text; a list, an object or a node cannot be looked up. -/
def tagName? : Value → Except Fault (Option String)
  | v@(.list _) | v@(.object _) | v@(.node _) => .error (.illTyped .key v.typeName)
  | v => .ok v.text?

/-- The names of the elements that have no end tag. -/
def voidElements : List String :=
  ["area", "base", "br", "col", "embed", "hr", "img", "input", "link", "meta", "param",
   "source", "track", "wbr"]

/-- Whether an element closes itself: it has no end tag and no children. -/
def selfCloses (tag children : Value) : Except Fault Bool := do
  match ← tag.tagName? with
  | some name =>
    if name ∈ voidElements then return (← children.count) == 0 else return false
  | none => return false

end GlimmerFormat.Value
