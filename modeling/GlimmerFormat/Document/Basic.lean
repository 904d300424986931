import GlimmerFormat.Fault

/-!
# Documents

A document describes a text whose line breaks are still open.  Laying it out decides, group by
group, which breaks become newlines.
-/

namespace GlimmerFormat

/-- A text whose line breaks are open. -/
inductive Document where
  /-- Nothing. -/
  | empty
  /-- A text that is never broken. -/
  | text (s : String)
  /-- Documents one after the other. -/
  | concat (docs : List Document)
  /-- A break: a newline in a broken group, the given text in a flat one. -/
  | newline (flat : String)
  /-- A newline in every group; a group around it cannot be flat. -/
  | hardline
  /-- One more level of indentation at the newlines inside. -/
  | indent (doc : Document)
  /-- More spaces at the newlines inside; a negative amount adds none. -/
  | align (amount : Int) (doc : Document)
  /-- A unit that is laid out flat if it fits and broken otherwise. -/
  | group (doc : Document)
  /-- Contents and separators in turn; each separator breaks on its own, only when the
  content behind it does not fit. -/
  | fill (parts : List Document)
  /-- One document in a broken group, another in a flat one. -/
  | ifBreak (broken flat : Document)
  /-- Something that is no document.  It has no layout, but the fault that it is met with. -/
  | stray (fault : Fault)
deriving Inhabited

namespace Document

/-- A break that is a space when flat. -/
def line : Document := .newline " "

/-- A break that is nothing when flat. -/
def softline : Document := .newline ""

/-- A string as a document; the empty string is nothing. -/
def ofString (s : String) : Document :=
  if s = "" then .empty else .text s

instance : Coe String Document := ⟨ofString⟩

/-- The empty string is the empty document. -/
@[simp] theorem ofString_empty : ofString "" = .empty := rfl

/-- Any other string is a text. -/
theorem ofString_of_ne {s : String} (h : s ≠ "") : ofString s = .text s := by
  simp [ofString, h]

end Document

/-- What printing yields: a string as it is, or a document. -/
inductive Part where
  | str (s : String)
  | doc (d : Document)

namespace Part

/-- A part among documents. -/
def document : Part → Document
  | .str s => .ofString s
  | .doc d => d

/-- A part where strings are kept, the empty one included. -/
def verbatim : Part → Document
  | .str s => .text s
  | .doc d => d

instance : Coe Part Document := ⟨document⟩

/-- A string among documents is made a document. -/
@[simp] theorem document_str (s : String) : (Part.str s).document = .ofString s := rfl

/-- A document among documents stands as it is. -/
@[simp] theorem document_doc (d : Document) : (Part.doc d).document = d := rfl

end Part

end GlimmerFormat
