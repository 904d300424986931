import GlimmerFormat.Layout.Room
import GlimmerFormat.Layout.Segment
import GlimmerFormat.Text.TabStop
import GlimmerFormat.Traced

/-!
# Laying out

A document is laid out on a page from left to right.  A group is flat if it fits together with
what follows it on its line; inside a flat group every group is flat.  A fill decides for each
separator whether the content behind it still fits.

`Document.layOut` takes tabs of any width.  Measuring the indentation behind a newline does not, so
the layout stops at its first newline if the tab width cannot be measured with:
`Document.layOutChecked` and what is read off it.
-/

namespace GlimmerFormat

/-- Where documents are laid out: the width of a line, the text of one level of indentation
and the width of a tab. -/
structure Page where
  width : Int
  unit : String
  tabWidth : Int

/-- What happens while a document is laid out. -/
inductive LayoutEvent where
  | emitted (segment : Segment)
  /-- A group that starts at a column does not fit. -/
  | broke (column : Nat)
deriving DecidableEq

/-- The column after some layout, and what happened on the way. -/
abbrev Laying := Traced LayoutEvent Fault

/-- What an event adds to the text. -/
def LayoutEvent.segment? : LayoutEvent → Option Segment
  | .emitted segment => some segment
  | .broke _ => none

/-- The segments that were emitted. -/
def LayoutEvent.segments (log : List LayoutEvent) : List Segment :=
  log.filterMap LayoutEvent.segment?

/-- The segments that were emitted, with every line but the last trimmed. -/
def Laying.segments {α : Type} (laid : Laying α) : Except Fault (List Segment) :=
  laid.outcome.map fun _ => Segment.settle (LayoutEvent.segments laid.log)

/-- The text that was emitted, with every line but the last trimmed. -/
def Laying.text {α : Type} (laid : Laying α) : Except Fault String :=
  laid.segments.map Segment.joined

namespace LayoutEvent

/-- Where nothing happened nothing was emitted. -/
@[simp] theorem segments_nil : segments [] = [] := rfl

/-- An emitted segment comes before what is emitted later. -/
@[simp] theorem segments_emitted (s : Segment) (log : List LayoutEvent) :
    segments (.emitted s :: log) = s :: segments log := rfl

/-- A group that breaks emits nothing by itself. -/
@[simp] theorem segments_broke (column : Nat) (log : List LayoutEvent) :
    segments (.broke column :: log) = segments log := rfl

/-- Of two records in turn, what the first one emits comes first. -/
@[simp] theorem segments_append (first second : List LayoutEvent) :
    segments (first ++ second) = segments first ++ segments second :=
  List.filterMap_append

/-- A record of emitted segments alone emits just these. -/
@[simp] theorem segments_map_emitted (ss : List Segment) : segments (ss.map emitted) = ss := by
  induction ss with
  | nil => rfl
  | cons s ss ih => simp [ih]

end LayoutEvent

namespace Page

/-- Emits a text at a column. -/
def emitText (s : String) (column : Nat) : Laying Nat :=
  ⟨[.emitted (.text s)], .ok (column + s.length)⟩

/-- Emits what stands for a break that stays on its line. -/
def emitFlatBreak (s : String) (column : Nat) : Laying Nat :=
  ⟨[.emitted (.flatBreak s)], .ok (column + s.length)⟩

/-- Emits a newline with its indentation. -/
def emitNewline (page : Page) (indentation : String) : Laying Nat :=
  ⟨[.emitted (.newline indentation)], .ok (Text.columns page.tabWidth indentation)⟩

/-- Whether an event can happen on a page: the indentation of a newline is measured. -/
def check (page : Page) : LayoutEvent → Except Fault Unit
  | .emitted (.newline indentation) =>
    (Text.columns? page.tabWidth indentation).map fun _ => ()
  | _ => .ok ()

/-- Whether a document that starts at a column fits flat before what follows it. -/
def fitsFlat (page : Page) (d : Document) (rest : List Pending) (column : Nat) : Laying Bool :=
  .ofExcept (Pending.allFit (⟨.flat, d⟩ :: rest) (page.width - column))

/-- The mode of a group that starts at a column; a group that breaks is noted. -/
def groupMode (page : Page) (d : Document) (rest : List Pending) (column : Nat) :
    Laying Mode := do
  if ← page.fitsFlat d rest column then
    return .flat
  else
    Traced.note (.broke column)
    return .broken

/-- The modes of a separator and of the content before it, when a content comes behind.  The
separator is flat if both contents fit on the line. -/
def pairModes (page : Page) (content separator next : Document) (column : Nat) :
    Laying (Mode × Mode) := do
  let contentFits ← page.fitsFlat content [] column
  if ← page.fitsFlat (.concat [content, separator, next]) [] column then
    return (.flat, .flat)
  else if contentFits then
    return (.flat, .broken)
  else
    return (.broken, .broken)

/-- The mode of a content with no other content behind it. -/
def lastMode (page : Page) (content : Document) (column : Nat) : Laying Mode := do
  if ← page.fitsFlat content [] column then
    return .flat
  else
    return .broken

end Page

namespace Document

/-- The indentation of an alignment. -/
def spaces (amount : Int) : String :=
  String.ofList (List.replicate amount.toNat ' ')

mutual

/-- Lays out a document at an indentation and in a mode, before what follows it, from a column
on, and gives the column behind it. -/
def lay (page : Page) (indentation : String) (mode : Mode) :
    Document → List Pending → Nat → Laying Nat
  | .empty, _, column => pure column
  | .text s, _, column => Page.emitText s column
  | .newline flat, _, column =>
    match mode with
    | .flat => Page.emitFlatBreak flat column
    | .broken => page.emitNewline indentation
  | .hardline, _, _ => page.emitNewline indentation
  | .concat docs, rest, column => layAll page indentation mode docs rest column
  | .indent d, rest, column => lay page (indentation ++ page.unit) mode d rest column
  | .align amount d, rest, column =>
    lay page (indentation ++ spaces amount) mode d rest column
  | .group d, rest, column =>
    match mode with
    | .flat => lay page indentation .flat d rest column
    | .broken => do
      let groupMode ← page.groupMode d rest column
      lay page indentation groupMode d rest column
  | .fill parts, rest, column => layFill page indentation mode parts rest column
  | .ifBreak broken flat, rest, column =>
    match mode with
    | .flat => lay page indentation mode flat rest column
    | .broken => lay page indentation mode broken rest column
  | .stray fault, _, _ => .fail fault

/-- Lays out documents one after the other. -/
def layAll (page : Page) (indentation : String) (mode : Mode) :
    List Document → List Pending → Nat → Laying Nat
  | [], _, column => pure column
  | d :: ds, rest, column => do
    let column ← lay page indentation mode d (⟨mode, .concat ds⟩ :: rest) column
    layAll page indentation mode ds rest column

/-- Lays out contents and separators in turn.  Each is measured with nothing behind it. -/
def layFill (page : Page) (indentation : String) (mode : Mode) :
    List Document → List Pending → Nat → Laying Nat
  | [], _, column => pure column
  | [content], rest, column => do
    let lastMode ← page.lastMode content column
    lay page indentation lastMode content rest column
  | [content, separator], rest, column => do
    let lastMode ← page.lastMode content column
    let column ← lay page indentation lastMode content (⟨lastMode, separator⟩ :: rest) column
    lay page indentation lastMode separator rest column
  | content :: separator :: next :: parts, rest, column => do
    let modes ← page.pairModes content separator next column
    let behind := ⟨mode, .fill (next :: parts)⟩ :: rest
    let column ←
      lay page indentation modes.1 content (⟨modes.2, separator⟩ :: behind) column
    let column ← lay page indentation modes.2 separator behind column
    layFill page indentation mode (next :: parts) rest column

end

/-- Before the last content of a fill, a content and its separator are laid out in modes of their
own. -/
theorem layFill_pair (page : Page) (indentation : String) (mode : Mode)
    (content separator next : Document) (parts : List Document) (rest : List Pending)
    (column : Nat) :
    layFill page indentation mode (content :: separator :: next :: parts) rest column = (do
      let modes ← page.pairModes content separator next column
      let column ← lay page indentation modes.1 content
        (⟨modes.2, separator⟩ :: ⟨mode, .fill (next :: parts)⟩ :: rest) column
      let column ← lay page indentation modes.2 separator
        (⟨mode, .fill (next :: parts)⟩ :: rest) column
      layFill page indentation mode (next :: parts) rest column) := by
  rw [layFill]

/-- Lays out a whole document. -/
def layOut (page : Page) (d : Document) : Laying Nat :=
  d.lay page "" .broken [] 0

/-- Lays out a whole document, as far as indentations can be measured. -/
def layOutChecked (page : Page) (d : Document) : Laying Nat :=
  (d.layOut page).checked page.check

/-- The segments of a laid-out document. -/
def segments (page : Page) (d : Document) : Except Fault (List Segment) :=
  (d.layOut page).segments

/-- The text of a laid-out document. -/
def layout (page : Page) (d : Document) : Except Fault String :=
  (d.layOut page).text

/-- The segments of a document that is laid out as far as indentations can be measured. -/
def segmentsChecked (page : Page) (d : Document) : Except Fault (List Segment) :=
  (d.layOutChecked page).segments

/-- The text of a document that is laid out as far as indentations can be measured. -/
def layoutChecked (page : Page) (d : Document) : Except Fault String :=
  (d.layOutChecked page).text

end Document

end GlimmerFormat
