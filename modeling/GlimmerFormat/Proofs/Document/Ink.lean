import GlimmerFormat.Proofs.Document.Parts

/-!
# Ink

A layout may choose where lines break and how they are indented, but not what is written on them.
The ink of a text are its characters that are not blank, and the ink of a document is the ink of
its texts, in order.  What counts as blank is left open: it may be every blank character, or the
spaces, tabs and newlines that a layout itself emits.

* `Text.flatten_words`: the words of a text hold its ink.
* `Document.ink_ofList`, `Document.ink_grouped` and so on: builders keep the ink of their parts.
* `Document.ink_paragraph`: reflowing a text keeps its ink.
* `Document.IsSteady`: documents whose ink is the same in every layout.
-/

namespace GlimmerFormat

namespace Text

/-- The characters of a text that are not blank. -/
def ink (blank : Char → Bool) (s : String) : List Char :=
  s.toList.filter fun c => !blank c

/-- Whether the characters that a layout adds and drops count as blank. -/
structure CoversSpacing (blank : Char → Bool) : Prop where
  space : blank ' ' = true
  tab : blank '\t' = true
  newline : blank '\n' = true

variable {blank : Char → Bool}

/-- The empty text has no ink. -/
@[simp] lemma ink_empty : ink blank "" = [] := rfl

/-- The ink of a text is that of its parts in order. -/
@[simp] lemma ink_append (s t : String) : ink blank (s ++ t) = ink blank s ++ ink blank t := by
  simp [ink]

/-- The ink of characters is what remains of them when the blank ones are left out. -/
@[simp] lemma ink_ofList (cs : List Char) :
    ink blank (String.ofList cs) = cs.filter fun c => !blank c := by
  simp [ink]

/-- A text has no ink exactly if all its characters are blank. -/
lemma ink_eq_nil_iff {s : String} : ink blank s = [] ↔ ∀ c ∈ s.toList, blank c = true := by
  simp [ink]

/-! ## Words -/

/-- A character in front of the first word is the first of all characters of the words. -/
lemma flatten_consFirst (c : Char) (ws : List (List Char)) :
    (consFirst c ws).flatten = c :: ws.flatten := by
  cases ws <;> rfl

/-- The words of a text hold its characters that are not blank. -/
theorem flatten_words (cs : List Char) : (words cs).flatten = cs.filter fun c => !isBlank c := by
  induction cs with
  | nil => rfl
  | cons c cs ih =>
    rw [words]
    by_cases hc : isBlank c = true
    · rw [if_pos hc, ih]
      simp [hc]
    · rw [if_neg hc]
      cases endsWord cs <;> simp [flatten_consFirst, ih, hc]

end Text

namespace Document

mutual

/-- The characters of the texts in a document that are not blank.  Breaks leave no ink. -/
def ink (blank : Char → Bool) : Document → List Char
  | .empty => []
  | .text s => Text.ink blank s
  | .concat docs => inkAll blank docs
  | .newline _ => []
  | .hardline => []
  | .indent d => ink blank d
  | .align _ d => ink blank d
  | .group d => ink blank d
  | .fill parts => inkAll blank parts
  | .ifBreak broken _ => ink blank broken
  | .stray _ => []

/-- The characters of the texts in several documents that are not blank. -/
def inkAll (blank : Char → Bool) : List Document → List Char
  | [] => []
  | d :: ds => ink blank d ++ inkAll blank ds

end

variable {blank : Char → Bool}

/-! ## Builders -/

/-- No documents have no ink. -/
@[simp] lemma inkAll_nil : inkAll blank [] = [] := rfl

/-- The ink of the first document comes first. -/
@[simp] lemma inkAll_cons (d : Document) (ds : List Document) :
    inkAll blank (d :: ds) = d.ink blank ++ inkAll blank ds := rfl

/-- The ink of documents put together is their ink put together. -/
@[simp] lemma inkAll_append (xs ys : List Document) :
    inkAll blank (xs ++ ys) = inkAll blank xs ++ inkAll blank ys := by
  induction xs with
  | nil => rfl
  | cons x xs ih => simp [ih]

/-- The empty document has no ink. -/
@[simp] lemma ink_empty : ink blank .empty = [] := rfl

/-- A text among documents has the ink of the text. -/
@[simp] lemma ink_text (s : String) : ink blank (.text s) = Text.ink blank s := rfl

/-- A space that may become a newline has no ink. -/
@[simp] lemma ink_line : ink blank line = [] := rfl

/-- What is nothing or a newline has no ink. -/
@[simp] lemma ink_softline : ink blank softline = [] := rfl

/-- A newline has no ink. -/
@[simp] lemma ink_hardline : ink blank .hardline = [] := rfl

/-- The ink of a fill is that of its parts. -/
lemma ink_fill (parts : List Document) : ink blank (.fill parts) = inkAll blank parts := rfl

/-- A document has the ink of what it adds to a concatenation. -/
lemma inkAll_pieces (d : Document) : inkAll blank d.pieces = d.ink blank := by
  cases d with
  | empty | concat docs => rfl
  | _ => exact List.append_nil _

/-- Splicing concatenations and dropping what is empty loses no ink. -/
@[simp] lemma ink_ofList (ds : List Document) : (ofList ds).ink blank = inkAll blank ds := by
  have hpieces : inkAll blank (ds.flatMap pieces) = inkAll blank ds := by
    induction ds with
    | nil => rfl
    | cons d ds ih => rw [List.flatMap_cons, inkAll_append, ih, inkAll_pieces, inkAll_cons]
  rw [← hpieces, ofList]
  split
  · next h => rw [h]; rfl
  · next d h => rw [h]; simp
  · rfl

/-- A string made a document keeps its ink, also if it is empty. -/
@[simp] lemma ink_ofString (s : String) : (ofString s).ink blank = Text.ink blank s := by
  unfold ofString
  split
  · next h => rw [h]; rfl
  · rfl

/-- Grouping leaves no ink and takes none away. -/
@[simp] lemma ink_grouped (d : Document) : d.grouped.ink blank = d.ink blank := by
  cases d <;> rfl

/-- Indenting leaves no ink and takes none away. -/
@[simp] lemma ink_indented (d : Document) : d.indented.ink blank = d.ink blank := by
  cases d <;> rfl

/-- Aligning leaves no ink and takes none away. -/
@[simp] lemma ink_aligned (amount : Int) (d : Document) :
    (d.aligned amount).ink blank = d.ink blank := by
  cases d <;> rfl

/-- Separators without ink add none. -/
lemma inkAll_intersperse {separator : Document} (h : separator.ink blank = [])
    (ds : List Document) : inkAll blank (ds.intersperse separator) = inkAll blank ds := by
  induction ds with
  | nil => rfl
  | cons d ds ih =>
    cases ds with
    | nil => rfl
    | cons e es =>
      rw [List.intersperse_cons_cons, inkAll_cons, inkAll_cons, h, ih]
      rfl

/-- Lines between documents leave no ink. -/
@[simp] lemma ink_joined_line (ds : List Document) :
    (joined line ds).ink blank = inkAll blank ds := by
  rw [joined, ink_ofList, inkAll_intersperse ink_line]

/-- A reflowed text keeps its characters, but for the blanks between its words. -/
@[simp] theorem ink_paragraph (s : String) :
    (paragraph s).ink Text.isBlank = Text.ink Text.isBlank s := by
  have hwords : ∀ ws : List (List Char),
      inkAll Text.isBlank (ws.map fun w => .text (String.ofList w)) =
        ws.flatten.filter fun c => !Text.isBlank c := by
    intro ws
    induction ws with
    | nil => rfl
    | cons w ws ih => simp [ih]
  rw [paragraph, ink_fill, inkAll_intersperse ink_line, wordTexts, hwords, Text.flatten_words,
    List.filter_filter]
  simp [Text.ink]

/-! ## Steady documents -/

/-- Whether a document, if it is a break, stands for nothing or a space, and does not depend on
whether a group breaks. -/
def Steady : Document → Prop
  | .newline flat => flat = "" ∨ flat = " "
  | .ifBreak _ _ => False
  | _ => True

/-- A document whose layouts differ in their blanks alone. -/
abbrev IsSteady : Document → Prop := Everywhere Steady

/-- A document that is built of others is steady exactly when they are. -/
lemma isSteady_ofList {ds : List Document} : (ofList ds).IsSteady ↔ ∀ d ∈ ds, d.IsSteady :=
  everywhere_ofList trivial fun _ => trivial

/-- A group is steady exactly if what it groups is. -/
lemma isSteady_grouped {d : Document} : d.grouped.IsSteady ↔ d.IsSteady := by
  cases d <;> simp [grouped, Everywhere, Steady]

end Document

end GlimmerFormat
