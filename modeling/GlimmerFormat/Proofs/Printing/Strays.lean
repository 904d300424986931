import GlimmerFormat.Printing.Markup
import GlimmerFormat.Proofs.Document.Strays
import GlimmerFormat.Proofs.Printing.Outcomes
import GlimmerFormat.Proofs.Tree.Integers

/-!
# Strays in what is printed

Printing puts a value that is neither nothing nor a text among documents without looking at it, and
there it is a stray.  A construct has the strays of its parts, in the order in which they stand, and
adds none.

* `Document.strays_call`, `Document.strays_block` and so on: the strays of each construct.
* `Value.eq_strayFault_of_mem`: what a value adds to them.
-/

namespace GlimmerFormat

/-! ## Constructs -/

namespace Document

/-- Parameters by position have the strays of each of them. -/
@[simp] lemma strays_positional (params : List Document) :
    (Markup.positional params).strays = params.flatMap strays := by
  simp [Markup.positional]

/-- Parameters by name have the strays of their pairs. -/
@[simp] lemma strays_named (pairs : Document) : (Markup.named pairs).strays = pairs.strays := by
  simp [Markup.named]

/-- A call has the strays of its callee and of its parameters. -/
@[simp] lemma strays_call (callee positional named : Document) :
    (Markup.call callee positional named).strays =
      callee.strays ++ (positional.strays ++ named.strays) := by
  simp [Markup.call]

/-- A pair has the strays of its key and of its value. -/
@[simp] lemma strays_pair (key value : Document) :
    (Markup.pair key value).strays = key.strays ++ value.strays := by
  simp [Markup.pair]

/-- Pairs have the strays of each of them. -/
@[simp] lemma strays_pairs (docs : List Document) :
    (Markup.pairs docs).strays = docs.flatMap strays := by
  simp [Markup.pairs]

/-- A call inside another has the strays of the call. -/
@[simp] lemma strays_subexpression (call : Document) :
    (Markup.subexpression call).strays = call.strays := by
  simp [Markup.subexpression]

/-- An inserted value has the strays of its call, escaped or not. -/
@[simp] lemma strays_mustache (escaped : Bool) (call : Document) :
    (Markup.mustache escaped call).strays = call.strays := by
  cases escaped <;> simp [Markup.mustache]

/-- A modifier has the strays of its call. -/
@[simp] lemma strays_modifier (call : Document) :
    (Markup.modifier call).strays = call.strays := by
  simp [Markup.modifier]

/-- A comment holds no strays. -/
@[simp] lemma strays_comment (text : String) : (Markup.comment text).strays = [] := by
  simp [Markup.comment]

/-- A quoted value has the strays of its parts. -/
@[simp] lemma strays_concat (parts : List Document) :
    (Markup.concat parts).strays = parts.flatMap strays := by
  simp [Markup.concat, Markup.quote]

/-- An attribute has the strays of its name and of its value, quoted or not. -/
@[simp] lemma strays_attr (name : Document) (quoted : Bool) (value : Document) :
    (Markup.attr name quoted value).strays = name.strays ++ value.strays := by
  cases quoted <;> simp [Markup.attr, Markup.quote]

/-- The clause of a block has the strays of its names. -/
@[simp] lemma strays_blockParams (names : List Document) :
    (Markup.blockParams names).strays = names.flatMap strays := by
  simp [Markup.blockParams]

/-- The header of a block has the strays of its call and of its clause. -/
@[simp] lemma strays_blockHeader (call blockParams : Document) :
    (Markup.blockHeader call blockParams).strays = call.strays ++ blockParams.strays := by
  simp [Markup.blockHeader]

/-- The body of a block has the strays of its statements. -/
@[simp] lemma strays_blockBody (statements : Document) :
    (Markup.blockBody statements).strays = statements.strays := by
  simp [Markup.blockBody]

/-- The inverse of a block has the strays of its body. -/
@[simp] lemma strays_blockInverse (body : Document) :
    (Markup.blockInverse body).strays = body.strays := by
  simp [Markup.blockInverse]

/-- A block has the strays of its parts. -/
@[simp] lemma strays_block (header body inverse callee : Document) :
    (Markup.block header body inverse callee).strays =
      header.strays ++ (body.strays ++ (inverse.strays ++ callee.strays)) := by
  simp [Markup.block]

/-- Attributes have the strays of each of them. -/
@[simp] lemma strays_attributes (docs : List Document) :
    (Markup.attributes docs).strays = docs.flatMap strays := by
  simp [Markup.attributes]

/-- Modifiers have the strays of each of them, behind attributes or as the first. -/
@[simp] lemma strays_modifiers (afterAttributes : Bool) (docs : List Document) :
    (Markup.modifiers afterAttributes docs).strays = docs.flatMap strays := by
  cases afterAttributes <;> simp [Markup.modifiers]

/-- A start tag has the strays of its attributes and of its modifiers. -/
@[simp] lemma strays_startTag (name : String) (attributes modifiers : Document)
    (selfCloses : Bool) :
    (Markup.startTag name attributes modifiers selfCloses).strays =
      attributes.strays ++ modifiers.strays := by
  cases selfCloses <;> simp [Markup.startTag]

/-- Children have the strays of the statements. -/
@[simp] lemma strays_children (statements : Document) :
    (Markup.children statements).strays = statements.strays := by
  simp [Markup.children]

/-- An end tag holds no strays. -/
@[simp] lemma strays_endTag (name : String) : (Markup.endTag name).strays = [] := by
  simp [Markup.endTag]

/-- An element has the strays of its parts. -/
@[simp] lemma strays_element (startTag children endTag : Document) :
    (Markup.element startTag children endTag).strays =
      startTag.strays ++ (children.strays ++ endTag.strays) := by
  simp [Markup.element]

/-- What stands between two statements holds no strays. -/
@[simp] lemma strays_separator (isText : Bool) : (Markup.separator isText).strays = [] := by
  cases isText <;> rfl

end Document

/-! ## Values -/

/-- The strays in what something is printed as. -/
def Part.strays (part : Part) : List Fault :=
  part.document.strays

/-- A text holds no strays. -/
@[simp] lemma Part.strays_str (s : String) : (Part.str s).strays = [] :=
  Document.strays_ofString s

/-- A document by itself has its own strays. -/
@[simp] lemma Part.strays_doc (d : Document) : (Part.doc d).strays = d.strays := rfl

namespace Value

variable {v : Value} {e : Fault}

/-- The only stray that a value can be among documents is the value itself. -/
lemma eq_strayFault_of_mem (he : e ∈ v.part.strays) : e = v.strayFault := by
  cases v with
  | null => cases he
  | str s => simp [part] at he
  | _ => exact List.mem_singleton.mp he

/-- The only stray that a literal can be printed as is its value. -/
lemma eq_strayFault_of_quotedLiteral {quote : String} {part : Part}
    (h : v.quotedLiteral quote = .ok part) (he : e ∈ part.strays) : e = v.strayFault := by
  rcases quotedLiteral_cases h with ⟨s, rfl⟩ | rfl
  · simp at he
  · exact List.mem_singleton.mp he

end Value

end GlimmerFormat
