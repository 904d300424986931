import GlimmerFormat.Printing.Markup
import GlimmerFormat.Printing.Reading
import Mathlib.Tactic.Lemma

/-!
# The tokens of a tree

What a template says, written out from its tree without any layout: the texts, names, quotes and
braces of each node in order, with no spaces between them but those inside texts.
`Node.tokens` is a plain recursion over the tree with one equation for each kind of node.

It is meant for well-typed trees.  Where a field holds something else than is declared for it, what
it says there is of no importance.
-/

namespace GlimmerFormat

open Markup (QuoteStyle)

/-- Whether a text holds a quote, single or double. -/
def Text.holdsQuote (s : String) : Bool :=
  s.toList.any fun c => c == '"' || c == '\''

/-- A string between the preferred quotes. -/
def Markup.QuoteStyle.around (style : QuoteStyle) (s : String) : String :=
  style.mark ++ s ++ style.mark

/-- A string literal: as it is if it holds a quote, and otherwise between the preferred ones. -/
def Markup.QuoteStyle.literal (style : QuoteStyle) (s : String) : String :=
  if Text.holdsQuote s then s else style.around s

/-- A value that is a text. -/
def Value.string : Value → String
  | .str s => s
  | _ => ""

/-- The texts in a list. -/
def Value.texts : Value → List String
  | .list items => items.filterMap Value.text?
  | _ => []

/-- The names that a program gives to what is passed on to it, if there are any. -/
def Value.blockNames : Value → String
  | .node (.program _ names) =>
    if names.texts.isEmpty then "" else "as|" ++ String.join names.texts ++ "|"
  | _ => ""

/-- Whether an element closes itself: it has no end tag, and nothing stands between its tags. -/
def Value.closesItself (tag : String) (children : Value) : Bool :=
  voidElements.contains tag && !children.isTruthy

mutual

/-- What a value says: a node, or the items of a list one after the other. -/
def Value.tokens (style : QuoteStyle) : Value → String
  | .list items => Value.tokensAll style items
  | .node n => n.tokens style
  | _ => ""

/-- What values say one after the other. -/
def Value.tokensAll (style : QuoteStyle) : List Value → String
  | [] => ""
  | v :: vs => v.tokens style ++ Value.tokensAll style vs

/-- What a node says. -/
def Node.tokens (style : QuoteStyle) : Node → String
  | .path _ parts => ".".intercalate parts.texts
  | .string value => style.literal value.string
  | .number value => value.numberText
  | .boolean value => if value.isTruthy then "true" else "false"
  | .null => "null"
  | .pair key value => key.string ++ "=" ++ value.tokens style
  | .hash pairs => pairs.tokens style
  | .subexpression callee params named =>
    "(" ++ callee.tokens style ++ params.tokens style ++ named.tokens style ++ ")"
  | .text chars => chars.string
  | .mustache callee params named escaped =>
    let call := callee.tokens style ++ params.tokens style ++ named.tokens style
    if escaped.isTruthy then "\x7b\x7b" ++ call ++ "\x7d\x7d"
    else "\x7b\x7b\x7b" ++ call ++ "\x7d\x7d\x7d"
  | .comment value => "\x7b\x7b!" ++ value.string ++ "\x7d\x7d"
  | .modifier callee params named =>
    "\x7b\x7b" ++ callee.tokens style ++ params.tokens style ++ named.tokens style ++ "\x7d\x7d"
  | .concat parts => "\"" ++ parts.tokens style ++ "\""
  | .attr name value =>
    name.string ++ "=" ++
      if value.isTextNode then "\"" ++ value.tokens style ++ "\"" else value.tokens style
  | .program body _ => body.tokens style
  | .block callee params named content inverse =>
    "\x7b\x7b#" ++ callee.tokens style ++ params.tokens style ++ named.tokens style ++
      content.blockNames ++ "\x7d\x7d" ++ content.tokens style ++
      (match inverse with
        | .null => ""
        | _ => "\x7b\x7belse\x7d\x7d" ++ inverse.tokens style) ++
      "\x7b\x7b/" ++ callee.tokens style ++ "\x7d\x7d"
  | .element tag attributes modifiers children _ =>
    "<" ++ tag.string ++ attributes.tokens style ++ modifiers.tokens style ++
      if Value.closesItself tag.string children then "/>"
      else ">" ++ children.tokens style ++ "</" ++ tag.string ++ ">"

end

namespace Markup.QuoteStyle

/-- Both quotes are one character long. -/
lemma length_around (style : QuoteStyle) (s : String) : (style.around s).length = s.length + 2 := by
  have hmark : style.mark.length = 1 := by cases style <;> rfl
  simp only [QuoteStyle.around, String.length_append, hmark]
  omega

/-- A string between quotes is not empty, even if the string is. -/
lemma around_ne_empty (style : QuoteStyle) (s : String) : style.around s ≠ "" := by
  intro h
  have hlength := length_around style s
  rw [h] at hlength
  simp at hlength

end Markup.QuoteStyle

/-- The texts in a list of texts are these. -/
@[simp] lemma Value.texts_map_str (names : List String) :
    (Value.list (names.map .str)).texts = names := by
  simp [texts, List.filterMap_map, Function.comp_def, text?]

end GlimmerFormat
