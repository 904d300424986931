import GlimmerFormat.Proofs.Document.Parts
import GlimmerFormat.Proofs.Layout.Rendering
import GlimmerFormat.Proofs.Layout.Sequence

/-!
# What a layout ends in

A layout that ends in a text whose last character is no space and no tab loses nothing when a
newline is put behind it.  Whether a document ends so does not depend on the page: breaks are the
only pieces that a page decides on.

* `Document.endsFirm_ofList` and so on: what documents that are built end in.
* `Document.endsFirm_of_isRendering`: all legal renderings of a document that ends firm leave a line
  that does so.
* `Document.trimmed_of_layout`: the layout of a document that ends firm is trimmed as it is.
-/

namespace GlimmerFormat

namespace Text

/-- Whether a text has a last character and this is neither a space nor a tab. -/
def endsFirm (s : String) : Bool :=
  s.toList.getLast?.any fun c => !isTrailing c

/-- The empty text does not end firm. -/
@[simp] lemma endsFirm_empty : endsFirm "" = false := rfl

/-- A text ends like the last part of it that is not empty. -/
lemma endsFirm_append (s t : String) :
    endsFirm (s ++ t) = if t = "" then endsFirm s else endsFirm t := by
  by_cases ht : t = ""
  · simp [ht]
  · have hlist : t.toList ≠ [] := by simpa using ht
    have hlast : t.toList.getLast? ≠ none := by simpa using hlist
    obtain ⟨c, hc⟩ := Option.ne_none_iff_exists'.mp hlast
    simp [endsFirm, ht, hc]

/-- A text that ends firm loses nothing at the end of a line. -/
lemma trimmed_of_endsFirm {s : String} (h : endsFirm s = true) : trimmed s = s := by
  apply String.toList_injective
  rw [toList_trimmed, List.rdropWhile_eq_self_iff]
  intro hs
  rw [endsFirm, List.getLast?_eq_some_getLast hs] at h
  simpa using h

end Text

/-- Lines below each other are trimmed exactly when the last of them is. -/
lemma trimmed_intercalate_eq_iff (ls : List String) (l : String) :
    trimmed ("\n".intercalate (ls ++ [l])) = "\n".intercalate (ls ++ [l]) ↔ trimmed l = l := by
  rw [trimmed_intercalate]
  by_cases hls : ls = []
  · rw [hls, List.nil_append, List.nil_append, String.intercalate_singleton,
      String.intercalate_singleton]
  · rw [String.intercalate_append_of_ne_nil hls (by simp),
      String.intercalate_append_of_ne_nil hls (by simp), String.intercalate_singleton,
      String.intercalate_singleton]
    constructor
    · intro h
      have hlist := congrArg String.toList h
      exact String.toList_injective (by simpa using hlist)
    · intro h
      rw [h]

namespace Document

mutual

/-- Whether a document ends in a text that ends firm.  What is empty ends like what stands before
it. -/
def endsFirm (before : Bool) : Document → Bool
  | .empty => before
  | .text s => if s = "" then before else Text.endsFirm s
  | .concat docs => endFirm before docs
  | .newline _ => false
  | .hardline => false
  | .indent d => endsFirm before d
  | .align _ d => endsFirm before d
  | .group d => endsFirm before d
  | .fill parts => endFirm before parts
  | .ifBreak broken flat => endsFirm before broken && endsFirm before flat
  | .stray _ => false

/-- Whether documents one after the other end in a text that ends firm. -/
def endFirm (before : Bool) : List Document → Bool
  | [] => before
  | d :: ds => endFirm (endsFirm before d) ds

end

variable {before : Bool}

/-! ## Builders -/

/-- No documents end like what stands before them. -/
@[simp] lemma endFirm_nil : endFirm before [] = before := rfl

/-- Behind the first document the others go on from how it ends. -/
@[simp] lemma endFirm_cons (d : Document) (ds : List Document) :
    endFirm before (d :: ds) = endFirm (d.endsFirm before) ds := rfl

/-- Documents end like the latter ones, which the former stand before. -/
lemma endFirm_append (xs ys : List Document) :
    endFirm before (xs ++ ys) = endFirm (endFirm before xs) ys := by
  induction xs generalizing before with
  | nil => rfl
  | cons x xs ih => exact ih

/-- The empty document ends like what stands before it. -/
@[simp] lemma endsFirm_empty : endsFirm before .empty = before := rfl

/-- A string ends as its text does, unless it is empty. -/
@[simp] lemma endsFirm_ofString (s : String) :
    (ofString s).endsFirm before = if s = "" then before else Text.endsFirm s := by
  unfold ofString
  split
  · rfl
  · next h => simp [endsFirm, h]

/-- The pieces of a document end as it does. -/
lemma endFirm_pieces (d : Document) : endFirm before d.pieces = d.endsFirm before := by
  cases d <;> rfl

/-- Documents put together end as they do one after the other. -/
@[simp] lemma endsFirm_ofList (ds : List Document) :
    (ofList ds).endsFirm before = endFirm before ds := by
  have hpieces : endFirm before (ds.flatMap pieces) = endFirm before ds := by
    induction ds generalizing before with
    | nil => rfl
    | cons d ds ih => rw [List.flatMap_cons, endFirm_append, ih, endFirm_pieces, endFirm_cons]
  rw [← hpieces, ofList]
  split
  · next h => rw [h]; rfl
  · next d h => rw [h]; rfl
  · rfl

/-- A group ends like what it groups. -/
@[simp] lemma endsFirm_grouped (d : Document) : d.grouped.endsFirm before = d.endsFirm before := by
  cases d <;> rfl

/-! ## Renderings -/

variable {unit indentation : String}

/-- Whatever a document is laid out as behind a line, the line that is open in the end ends firm. -/
def KeepsFirm (unit indentation : String) (d : Document) : Prop :=
  ∀ {before : Bool} {mode : Mode} {segments : List Segment} {l : Line},
    d.endsFirm before = true → d.IsRendering unit indentation mode segments →
    (before = true → Text.endsFirm l.text = true) →
    Text.endsFirm (l.openLine segments).text = true

/-- Documents that keep a line firm keep it firm one after the other. -/
lemma endFirm_of_areRenderings {ds : List Document} (h : ∀ d ∈ ds, KeepsFirm unit indentation d)
    {before : Bool} {mode : Mode} {segments : List Segment} {l : Line}
    (hds : endFirm before ds = true) (hsegments : AreRenderings unit indentation mode ds segments)
    (hl : before = true → Text.endsFirm l.text = true) :
    Text.endsFirm (l.openLine segments).text = true := by
  induction ds generalizing before segments l with
  | nil =>
    rw [AreRenderings] at hsegments
    rw [hsegments]
    exact hl hds
  | cons d ds ih =>
    obtain ⟨first, others, hfirst, hothers, rfl⟩ := hsegments
    rw [Line.openLine_append]
    exact ih (fun e he => h e (by simp [he])) hds hothers fun hd => h d (by simp) hd hfirst hl

/-- The parts of a fill that keep a line firm keep it firm one after the other. -/
lemma endFirm_of_arePartRenderings {parts : List Document}
    (h : ∀ d ∈ parts, KeepsFirm unit indentation d) {before : Bool} {segments : List Segment}
    {l : Line} (hparts : endFirm before parts = true)
    (hsegments : ArePartRenderings unit indentation parts segments)
    (hl : before = true → Text.endsFirm l.text = true) :
    Text.endsFirm (l.openLine segments).text = true := by
  induction parts generalizing before segments l with
  | nil =>
    rw [ArePartRenderings] at hsegments
    rw [hsegments]
    exact hl hparts
  | cons d ds ih =>
    obtain ⟨first, others, hfirst, hothers, rfl⟩ := hsegments
    rw [Line.openLine_append]
    refine ih (fun e he => h e (by simp [he])) hparts hothers fun hd => ?_
    rcases hfirst with hfirst | hfirst
    · exact h d (by simp) hd hfirst hl
    · exact h d (by simp) hd hfirst hl

/-- All legal renderings of a document that ends firm leave a line that ends firm. -/
theorem endsFirm_of_isRendering (d : Document) : KeepsFirm unit indentation d := by
  induction d using inductionOn generalizing indentation with
  | empty =>
    intro before mode segments l hd hsegments hl
    obtain rfl : segments = [] := hsegments
    exact hl hd
  | text t =>
    intro before mode segments l hd hsegments hl
    obtain rfl : segments = [.text t] := hsegments
    have htext : (l.openLine [.text t]).text = l.text ++ t := by
      simp [Line.next, Line.text, Segment.render, String.append_assoc]
    rw [endsFirm] at hd
    rw [htext, Text.endsFirm_append]
    split
    · next ht => exact hl (by simpa [ht] using hd)
    · next ht => simpa [ht] using hd
  | newline flat | hardline | stray =>
    intro before mode segments l hd
    cases hd
  | concat docs ih =>
    intro before mode segments l hd hsegments hl
    exact endFirm_of_areRenderings (fun d hmem => @ih d hmem indentation) hd hsegments hl
  | fill parts ih =>
    intro before mode segments l hd hsegments hl
    exact endFirm_of_arePartRenderings (fun d hmem => @ih d hmem indentation) hd hsegments hl
  | indent d ih | align amount d ih =>
    intro before mode segments l hd hsegments hl
    exact ih hd hsegments hl
  | group d ih =>
    intro before mode segments l hd hsegments hl
    cases mode with
    | flat => exact ih hd hsegments hl
    | broken =>
      rcases hsegments with hsegments | hsegments
      · exact ih hd hsegments hl
      · exact ih hd hsegments hl
  | ifBreak broken flat ihb ihf =>
    intro before mode segments l hd hsegments hl
    rw [endsFirm, Bool.and_eq_true] at hd
    cases mode with
    | flat => exact ihf hd.2 hsegments hl
    | broken => exact ihb hd.1 hsegments hl

/-! ## Layouts -/

/-- The last line of what a document that ends firm is laid out as ends firm. -/
lemma endsFirm_openLine {page : Page} {d : Document} (hd : d.endsFirm false = true)
    {log : List LayoutEvent} {column : Nat} (h : d.layOut page = ⟨log, .ok column⟩) :
    Text.endsFirm (Line.first.openLine (LayoutEvent.segments log)).text = true := by
  have hrendering : d.IsRendering page.unit "" .broken (LayoutEvent.segments log) :=
    isRendering_of_lay h
  exact endsFirm_of_isRendering d hd hrendering (by simp)

/-- The layout of a document that ends firm is trimmed as it is. -/
theorem trimmed_of_layout {page : Page} {d : Document} (hd : d.endsFirm false = true)
    {text : String} (h : d.layout page = .ok text) : trimmed text = text := by
  obtain ⟨log, column, hlay, rfl⟩ := layout_eq_ok.mp h
  have hfirm := Text.trimmed_of_endsFirm (endsFirm_openLine hd hlay)
  rw [Segment.joined_settle, trimmed_intercalate_eq_iff, hfirm]

end Document

end GlimmerFormat
