import GlimmerFormat.Proofs.Layout.Measuring
import Mathlib.Data.List.Induction

/-!
# Flat layout

The flat text of a document is what measuring counts and what laying out emits.  Measuring and
laying out go through a document on their own, and a fill measures its parts again when it is
laid out; the room that the first measure has found is what makes all these measures agree.

* `Document.spend_flat_leaves`: a flat measure leaves the room less the length of the flat text.
* `Document.lay_flat`: a document that is measured flat within the line is laid out as its flat
  text, without newlines, and nothing inside breaks.
-/

namespace GlimmerFormat

namespace Document

/-! ## The flat text -/

mutual

/-- What a document is laid out as when every break inside stays on its line. -/
def flatPieces : Document → List Segment
  | .empty => []
  | .text s => [.text s]
  | .newline flat => [.flatBreak flat]
  | .hardline => []
  | .concat docs => flatPiecesAll docs
  | .indent d => flatPieces d
  | .align _ d => flatPieces d
  | .group d => flatPieces d
  | .fill parts => flatPiecesAll parts
  | .ifBreak _ flat => flatPieces flat
  | .stray _ => []

/-- What documents one after the other are laid out as when every break stays on its line. -/
def flatPiecesAll : List Document → List Segment
  | [] => []
  | d :: ds => flatPieces d ++ flatPiecesAll ds

end

/-- The text of a document whose breaks all stay on their line. -/
def flatText (d : Document) : String :=
  Segment.joined d.flatPieces

/-- Flat documents one after the other are laid out each by itself. -/
lemma flatPiecesAll_eq_flatMap (ds : List Document) : flatPiecesAll ds = ds.flatMap flatPieces := by
  induction ds with
  | nil => rfl
  | cons d ds ih => rw [flatPiecesAll, ih, List.flatMap_cons]

/-- Documents put together are flat what they are one after the other. -/
@[simp] lemma flatPieces_ofList (ds : List Document) :
    (ofList ds).flatPieces = ds.flatMap flatPieces :=
  flatMap_ofList rfl flatPiecesAll_eq_flatMap ds

/-- A group is flat what it groups. -/
@[simp] lemma flatPieces_grouped (d : Document) : d.grouped.flatPieces = d.flatPieces := by
  cases d <;> rfl

/-- An alignment does not show in what is flat. -/
@[simp] lemma flatPieces_aligned (amount : Int) (d : Document) :
    (d.aligned amount).flatPieces = d.flatPieces := by
  cases d <;> rfl

/-- A string made a document has its own text. -/
lemma joined_flatPieces_ofString (s : String) :
    Segment.joined (ofString s).flatPieces = s := by
  unfold ofString
  split
  · next h => exact h.symm
  · simp [flatPieces, Segment.render]

/-- No piece of a flat layout is a newline. -/
theorem isNewline_of_mem_flatPieces {d : Document} {s : Segment} (hs : s ∈ d.flatPieces) :
    s.isNewline = false := by
  induction d using inductionOn with
  | empty | hardline | stray => simp [flatPieces] at hs
  | text t | newline t =>
    obtain rfl : s = _ := by simpa [flatPieces] using hs
    rfl
  | concat docs ih | fill docs ih =>
    rw [flatPieces] at hs
    induction docs with
    | nil => simp [flatPiecesAll] at hs
    | cons d ds ihds =>
      rcases List.mem_append.mp hs with hd | hds
      · exact ih d (by simp) hd
      · exact ihds (fun e he => ih e (by simp [he])) hds
  | indent d ih | align amount d ih | group d ih => exact ih hs
  | ifBreak broken flat ihb ihf => exact ihf hs

/-- No newline is among the flat pieces of documents. -/
lemma isNewline_of_mem_flatMap_flatPieces {ds : List Document} {s : Segment}
    (hs : s ∈ ds.flatMap flatPieces) : s.isNewline = false := by
  obtain ⟨d, -, hd⟩ := List.mem_flatMap.mp hs
  exact isNewline_of_mem_flatPieces hd

/-! ## Measuring a flat document -/

/-- Flat documents measured in turn leave the room less the length of their flat texts. -/
lemma spendAll_flat_leaves {ds : List Document}
    (h : ∀ d ∈ ds, ∀ {room r}, d.spend .flat room = .leaves r → r = room - d.flatText.length)
    {room r : Int} (hr : spendAll .flat ds room = .leaves r) :
    r = room - (Segment.joined (flatPiecesAll ds)).length := by
  induction ds generalizing room with
  | nil =>
    have : room = r := by simpa [spendAll] using hr
    simp [flatPiecesAll, this]
  | cons d ds ih =>
    obtain ⟨s, hs, hr⟩ := Measure.andThen_eq_leaves.mp hr
    have hd := h d (by simp) hs
    have hds := ih (fun e he => h e (by simp [he])) hr
    simp only [flatText] at hd
    simp only [flatPiecesAll, Segment.joined_append, String.length_append]
    omega

/-- A flat measure leaves the room less the length of the flat text. -/
theorem spend_flat_leaves {d : Document} {room r : Int} (hr : d.spend .flat room = .leaves r) :
    r = room - d.flatText.length := by
  induction d using inductionOn generalizing room r with
  | empty =>
    have := Measure.ofRoom_eq_leaves.mp hr
    simp only [flatText, flatPieces, Segment.joined_nil, String.length_empty]
    omega
  | text s | newline s =>
    have := Measure.ofRoom_eq_leaves.mp hr
    simp only [flatText, flatPieces, Segment.joined_cons, Segment.joined_nil, Segment.render,
      String.append_empty]
    omega
  | hardline | stray => cases hr
  | concat docs ih | fill docs ih =>
    obtain ⟨-, hr⟩ := Measure.ofRoom_andThen_eq_leaves.mp hr
    exact spendAll_flat_leaves (fun d hd => ih d hd) hr
  | indent d ih | align amount d ih | group d ih =>
    obtain ⟨-, hr⟩ := Measure.ofRoom_andThen_eq_leaves.mp hr
    exact ih hr
  | ifBreak broken flat ihb ihf =>
    obtain ⟨-, hr⟩ := Measure.ofRoom_andThen_eq_leaves.mp hr
    exact ihf hr

end Document

/-! ## Decisions on a line with enough room -/

namespace Page

open Document

/-- A document whose measure leaves room fits before nothing. -/
lemma fitsFlat_nil {page : Page} {d : Document} {column : Nat} {r : Int}
    (h : d.spend .flat (page.width - column) = .leaves r) :
    page.fitsFlat d [] column = ⟨[], .ok true⟩ := by
  have hfit : Pending.allFit [⟨.flat, d⟩] (page.width - column) = .ok true :=
    Pending.allFit_flat_cons.mpr ⟨r, h, rfl⟩
  rw [fitsFlat, hfit]
  rfl

/-- The last content of a fill stays flat where it is measured within the line. -/
lemma lastMode_eq_flat {page : Page} {content : Document} {column : Nat} {r : Int}
    (h : content.spend .flat (page.width - column) = .leaves r) :
    page.lastMode content column = ⟨[], .ok .flat⟩ := by
  rw [lastMode, fitsFlat_nil h]
  rfl

/-- A separator of a fill stays flat where it is measured within the line together with the
contents on both sides. -/
lemma pairModes_eq_flat {page : Page} {content separator next : Document} {column : Nat} {r : Int}
    (h : spendAll .flat [content, separator, next] (page.width - column) = .leaves r) :
    page.pairModes content separator next column = ⟨[], .ok (.flat, .flat)⟩ := by
  obtain ⟨s, hs, -⟩ := Measure.andThen_eq_leaves.mp h
  have hroom : 0 ≤ page.width - column := by
    have := spend_leaves_bounds hs
    omega
  have hall : (Document.concat [content, separator, next]).spend .flat (page.width - column) =
      .leaves r := by
    rw [spend_concat .flat hroom, h]
  rw [pairModes, fitsFlat_nil hs, fitsFlat_nil hall]
  rfl

end Page

/-! ## Laying out a flat document -/

namespace Document

variable {page : Page} {indentation : String}

/-- Flat documents that are measured within the line are laid out as their flat texts. -/
lemma layAll_flat {ds : List Document}
    (h : ∀ d ∈ ds, ∀ {rest : List Pending} {column : Nat} {r : Int},
      d.spend .flat (page.width - column) = .leaves r →
      d.lay page indentation .flat rest column =
        ⟨d.flatPieces.map .emitted, .ok (column + d.flatText.length)⟩)
    {rest : List Pending} {column : Nat} {r : Int}
    (hr : spendAll .flat ds (page.width - column) = .leaves r) :
    layAll page indentation .flat ds rest column =
      ⟨(flatPiecesAll ds).map .emitted,
        .ok (column + (Segment.joined (flatPiecesAll ds)).length)⟩ := by
  induction ds generalizing column with
  | nil => rfl
  | cons d ds ih =>
    obtain ⟨s, hs, hr⟩ := Measure.andThen_eq_leaves.mp hr
    have hd := @h d (by simp) (⟨.flat, .concat ds⟩ :: rest) column s hs
    have hroom : s = page.width - (column + d.flatText.length : Nat) := by
      have := spend_flat_leaves hs
      push_cast
      omega
    have hds := ih (fun e he => h e (by simp [he])) (hroom ▸ hr)
    rw [layAll, hd, Traced.ok_bind, hds]
    simp [flatPiecesAll, flatText, Nat.add_assoc]

/-- A flat fill that is measured within the line is laid out as its flat text. -/
lemma layFill_flat {mode : Mode} {parts : List Document}
    (h : ∀ d ∈ parts, ∀ {rest : List Pending} {column : Nat} {r : Int},
      d.spend .flat (page.width - column) = .leaves r →
      d.lay page indentation .flat rest column =
        ⟨d.flatPieces.map .emitted, .ok (column + d.flatText.length)⟩)
    (hodd : parts = [] ∨ parts.length % 2 = 1)
    {rest : List Pending} {column : Nat} {r : Int}
    (hr : spendAll .flat parts (page.width - column) = .leaves r) :
    layFill page indentation mode parts rest column =
      ⟨(flatPiecesAll parts).map .emitted,
        .ok (column + (Segment.joined (flatPiecesAll parts)).length)⟩ := by
  induction parts using List.twoStepInduction generalizing column with
  | nil => rfl
  | singleton content =>
    obtain ⟨s, hs, -⟩ := Measure.andThen_eq_leaves.mp hr
    rw [layFill, Page.lastMode_eq_flat hs, Traced.ok_bind_of_nil, h content (by simp) hs]
    simp [flatPiecesAll, flatText]
  | cons_cons content separator parts ih _ =>
    cases parts with
    | nil => simp at hodd
    | cons next parts =>
      obtain ⟨r₁, h₁, hr⟩ := Measure.andThen_eq_leaves.mp hr
      obtain ⟨r₂, h₂, hr⟩ := Measure.andThen_eq_leaves.mp hr
      obtain ⟨r₃, h₃, -⟩ := Measure.andThen_eq_leaves.mp hr
      have hpair : spendAll .flat [content, separator, next] (page.width - column) =
          .leaves r₃ := by
        simp [spendAll, h₁, h₂, h₃]
      -- What measuring leaves of the room is what laying out leaves of the line.
      have hroom₁ : r₁ = page.width - (column + content.flatText.length : Nat) := by
        have := spend_flat_leaves h₁
        push_cast
        omega
      have hroom₂ : r₂ = page.width -
          (column + content.flatText.length + separator.flatText.length : Nat) := by
        have := spend_flat_leaves h₂
        push_cast
        omega
      have hodd' : (next :: parts).length % 2 = 1 := by
        simp only [List.length_cons, reduceCtorEq, false_or] at hodd ⊢
        omega
      have hparts := ih (fun e he => h e (by simp [he])) (.inr hodd') (hroom₂ ▸ hr)
      rw [layFill_pair, Page.pairModes_eq_flat hpair, Traced.ok_bind_of_nil,
        h content (by simp) h₁, Traced.ok_bind,
        h separator (by simp) (hroom₁ ▸ h₂), Traced.ok_bind, hparts]
      simp [flatPiecesAll, flatText, Nat.add_assoc]

/-- A document that is measured flat within the line is laid out as its flat text: without
newlines, and with every group and every separator inside flat. -/
theorem lay_flat {d : Document} (hd : d.HasOddFills) {rest : List Pending} {column : Nat}
    {r : Int} (hr : d.spend .flat (page.width - column) = .leaves r) :
    d.lay page indentation .flat rest column =
      ⟨d.flatPieces.map .emitted, .ok (column + d.flatText.length)⟩ := by
  induction d using inductionOn generalizing indentation rest column r with
  | empty => rfl
  | text s | newline s =>
    simp [lay, Page.emitText, Page.emitFlatBreak, flatText, flatPieces, Segment.render]
  | hardline | stray => cases hr
  | concat docs ih =>
    obtain ⟨-, hr⟩ := Measure.ofRoom_andThen_eq_leaves.mp hr
    have hall := everywhereAll_iff.mp hd.2
    exact layAll_flat (fun d hmem _ _ _ => ih d hmem (hall d hmem)) hr
  | fill parts ih =>
    obtain ⟨-, hr⟩ := Measure.ofRoom_andThen_eq_leaves.mp hr
    have hall := everywhereAll_iff.mp hd.2
    exact layFill_flat (fun d hmem _ _ _ => ih d hmem (hall d hmem)) hd.1 hr
  | indent d ih | align amount d ih | group d ih =>
    obtain ⟨-, hr⟩ := Measure.ofRoom_andThen_eq_leaves.mp hr
    exact ih hd.2 hr
  | ifBreak broken flat ihb ihf =>
    obtain ⟨-, hr⟩ := Measure.ofRoom_andThen_eq_leaves.mp hr
    exact ihf hd.2.2 hr

end Document

end GlimmerFormat
