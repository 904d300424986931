import GlimmerFormat.Document.Paragraph

/-!
# Markup

The documents of the constructs of a template, given the documents of their parts.  What may
break stands in a group of its own: a call, the header of a block, the start tag of an
element, and each construct as a whole.
-/

namespace GlimmerFormat.Markup

open Document

/-- How strings are quoted. -/
inductive QuoteStyle where
  | single
  | double
deriving DecidableEq

/-- The preferred quote. -/
def QuoteStyle.mark : QuoteStyle → String
  | .single => "'"
  | .double => "\""

/-- Parameters by position, each on a line of its own or all on one. -/
def positional (params : List Document) : Document :=
  grouped (ofList [line, joined line params])

/-- Parameters by name, behind those by position. -/
def named (pairs : Document) : Document :=
  ofList [line, pairs]

/-- A callee with its parameters. -/
def call (callee positional named : Document) : Document :=
  grouped (ofList [callee, positional, named])

/-- One parameter by name. -/
def pair (key value : Document) : Document :=
  ofList [key, "=", value]

/-- All parameters by name. -/
def pairs (docs : List Document) : Document :=
  joined line docs

/-- A call inside another call. -/
def subexpression (call : Document) : Document :=
  grouped (ofList ["(", indented call, softline, ")"])

/-- A call whose value is inserted, escaped or as it is. -/
def mustache (escaped : Bool) (call : Document) : Document :=
  if escaped then grouped (ofList ["\x7b\x7b", indented call, "\x7d\x7d"])
  else grouped (ofList ["\x7b\x7b\x7b", indented call, "\x7d\x7d\x7d"])

/-- A call among the attributes of an element. -/
def modifier (call : Document) : Document :=
  grouped (ofList ["\x7b\x7b", call, "\x7d\x7d"])

/-- A comment; its words are reflowed. -/
def comment (text : String) : Document :=
  grouped (ofList ["\x7b\x7b!", indented (ofList [line, paragraph text]), line, "\x7d\x7d"])

/-- The quote around the texts of attributes. -/
def quote : Document := .text "\""

/-- The parts of a quoted value. -/
def concat (parts : List Document) : Document :=
  grouped (ofList ([quote] ++ parts ++ [quote]))

/-- An attribute, with quotes around a value that is plain text. -/
def attr (name : Document) (quoted : Bool) (value : Document) : Document :=
  if quoted then ofList [name, "=", quote, value, quote] else ofList [name, "=", value]

/-- The names that a block gives to what it passes on. -/
def blockParams (names : List Document) : Document :=
  ofList [line, "as |", joined line names, "|"]

/-- The line that opens a block. -/
def blockHeader (call blockParams : Document) : Document :=
  grouped (ofList ["\x7b\x7b#", indented (ofList [call, blockParams]), softline, "\x7d\x7d"])

/-- The content of a block, on lines of its own. -/
def blockBody (statements : Document) : Document :=
  indented (ofList [.hardline, statements])

/-- What a block shows otherwise. -/
def blockInverse (body : Document) : Document :=
  ofList [.hardline, "\x7b\x7belse\x7d\x7d", body]

/-- A block between its header and its end, which names the callee again. -/
def block (header body inverse callee : Document) : Document :=
  grouped (ofList [header, body, inverse, .hardline, "\x7b\x7b/", callee, "\x7d\x7d"])

/-- The attributes of an element. -/
def attributes (docs : List Document) : Document :=
  ofList [" ", joined line docs]

/-- The modifiers of an element, behind attributes or as the first. -/
def modifiers (afterAttributes : Bool) (docs : List Document) : Document :=
  ofList [if afterAttributes then line else " ", joined line docs]

/-- A start tag.  Attributes on lines of their own stand under the first one. -/
def startTag (name : String) (attributes modifiers : Document) (selfCloses : Bool) : Document :=
  grouped (ofList ["<", name, aligned (name.length + 2) (ofList [attributes, modifiers]),
    if selfCloses then " />" else ">"])

/-- The children of an element, which may share its line. -/
def children (statements : Document) : Document :=
  indented (ofList [softline, statements])

/-- An end tag, which may share the line of the children. -/
def endTag (name : String) : Document :=
  ofList [softline, "</", name, ">"]

/-- An element with what it holds. -/
def element (startTag children endTag : Document) : Document :=
  grouped (ofList [startTag, children, endTag])

/-- A statement behind others: text may share their line, all else starts a line. -/
def separator (isText : Bool) : Document :=
  if isText then softline else .hardline

end GlimmerFormat.Markup
