import GlimmerFormat.Layout.Page
import GlimmerFormat.Settings
import GlimmerFormat.Printing.Node

/-!
# Formatting

A tree is formatted by printing it as a document and laying the document out on the page that
the settings describe.

Integers and tab widths are of any size in `Node.format`.  Formatting runs into their limits:
`Node.formatChecked` stops where a number cannot be written, where a level of indentation cannot be
written out, and where an indentation cannot be measured.
-/

namespace GlimmerFormat

namespace Settings

/-- The page that the settings describe. -/
def page (s : Settings) : Page where
  width := s.printWidth
  unit := s.unit
  tabWidth := s.tabWidth

/-- The page that the settings describe, if there can be a level of indentation. -/
def page? (s : Settings) : Except Fault Page :=
  s.unit?.map fun unit => ⟨s.printWidth, unit, s.tabWidth⟩

/-- How the settings have strings quoted. -/
def style (s : Settings) : Markup.QuoteStyle :=
  if s.singleQuote then .single else .double

end Settings

/-- What the log keeps of an event of the layout. -/
def LayoutEvent.row? : LayoutEvent → Option LogRow
  | .emitted _ => none
  | .broke column => some (.breaking column)

namespace Node

/-- The part that a whole tree is printed as. -/
def printed (s : Settings) (n : Node) : Logged Part :=
  (Value.node n).print s.style 0

/-- The document of a whole tree. -/
def toDocument (s : Settings) (n : Node) : Logged Document := do
  let part ← n.printed s
  return .ofList [part.document]

/-- The text of a whole tree. -/
def format (s : Settings) (n : Node) : Logged String := do
  let d ← n.toDocument s
  let laid := d.layOut s.page
  ⟨laid.log.filterMap LayoutEvent.row?, laid.text⟩

/-- The document of a whole tree, as far as numbers can be written. -/
def toDocumentChecked (s : Settings) (n : Node) : Logged Document :=
  (n.toDocument s).checked LogRow.check

/-- The text of a whole tree, as far as the limits of integers allow. -/
def formatChecked (s : Settings) (n : Node) : Logged String := do
  let d ← n.toDocumentChecked s
  let page ← Traced.ofExcept s.page?
  let laid := d.layOutChecked page
  ⟨laid.log.filterMap LayoutEvent.row?, laid.text⟩

end Node

end GlimmerFormat
