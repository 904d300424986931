import GlimmerFormat.Proofs.Layout.Endings
import GlimmerFormat.Proofs.Layout.Fitting
import GlimmerFormat.Proofs.Layout.Flat
import GlimmerFormat.Proofs.Layout.Spread

/-!
# A group by itself

A group that nothing follows has two layouts.  It is its flat text if this is no longer than the
line, and what its content is laid out as if not.  A content without groups and fills has only one
layout of its own, the spread one, and the text of that is known as soon as its lines end firm.

* `Document.allFit_of_isSoft`: a soft document fits exactly if its flat text is not too long.
* `Document.layout_grouped_of_isSoft`: the two layouts of a group.
* `Document.layout_of_isRigid`: a document without groups and fills is laid out spread.
* `Document.layout_strings`: strings one after the other are laid out as they are.
* `Segment.joined_settle_of_firm`: segments whose lines end firm keep all their text.
-/

namespace GlimmerFormat

/-! ## Text that is kept -/

namespace Segment

/-- Segments keep all their text if nothing can be dropped at the end of a line. -/
lemma joined_settle_of_firm {ss : List Segment}
    (h : ∀ l ∈ Line.first.closedLines ss, trimmed l.text = l.text) :
    joined (settle ss) = joined ss := by
  have htexts : (Line.first.closedLines ss).map (fun l => l.trim.text) =
      (Line.first.closedLines ss).map Line.text := by
    refine List.map_congr_left fun l hl => ?_
    rw [Line.text_trim (Line.isInline_of_mem_closedLines (by simp [Line.IsInline, Line.first]) hl),
      h l hl]
  have hlines := Line.intercalate_text .first ss
  rw [List.map_append, List.map_singleton, ← htexts, ← joined_settle] at hlines
  rw [hlines]
  simp [Line.first, Line.text]

/-- Segments without newlines keep all their text. -/
lemma joined_settle_of_inline {ss : List Segment} (h : ∀ s ∈ ss, s.isNewline = false) :
    joined (settle ss) = joined ss :=
  joined_settle_of_firm (by simp [Line.closedLines_of_inline _ h])

end Segment

/-! ## Items of a flat text -/

/-- Items without newlines fit in a room exactly if their texts together are no longer. -/
lemma Item.fitIn_map_columns {ss : List Segment} {room : Int} :
    FitIn (ss.map fun s => .columns s.render.length) room ↔
      ((Segment.joined ss).length : Int) ≤ room := by
  induction ss generalizing room with
  | nil => simp [FitIn]
  | cons s ss ih =>
    rw [List.map_cons, fitIn_columns_iff, ih, Segment.joined_cons, String.length_append]
    omega

namespace Document

variable {page : Page} {d : Document}

/-- The flat items of soft documents are the columns of their flat pieces. -/
lemma itemsAll_flat_of_isSoft {ds : List Document}
    (h : ∀ d ∈ ds, d.items .flat = d.flatPieces.map fun s => .columns s.render.length) :
    itemsAll .flat ds = (flatPiecesAll ds).map fun s => .columns s.render.length := by
  induction ds with
  | nil => rfl
  | cons d ds ih =>
    rw [itemsAll, flatPiecesAll, List.map_append, h d (by simp), ih fun e he => h e (by simp [he])]

/-- The items of a soft document that is flat are those of its flat text. -/
lemma items_flat_of_isSoft (hd : d.IsSoft) :
    d.items .flat = d.flatPieces.map fun s => .columns s.render.length := by
  induction d using inductionOn with
  | empty | text s | newline s => rfl
  | hardline | stray => exact hd.elim
  | ifBreak broken flat => exact hd.1.elim
  | concat docs ih | fill docs ih =>
    have hall := everywhereAll_iff.mp hd.2
    exact itemsAll_flat_of_isSoft fun d hmem => ih d hmem (hall d hmem)
  | indent d ih | align amount d ih | group d ih => exact ih hd.2

/-- A soft document fits exactly if its flat text is not too long. -/
theorem allFit_of_isSoft (hd : d.IsSoft) (room : Int) :
    Pending.allFit [⟨.flat, d⟩] room = .ok (decide ((d.flatText.length : Int) ≤ room)) := by
  have hproper : Pending.AllProper [⟨.flat, d⟩] := by
    simpa [Pending.AllProper] using hd.isStraight.isProper
  by_cases hroom : 0 ≤ room
  · have hitems : Pending.items [⟨.flat, d⟩] = d.flatPieces.map fun s => .columns s.render.length :=
      (List.append_nil _).trans (items_flat_of_isSoft hd)
    rw [Pending.allFit_eq_decide hproper hroom, hitems, flatText,
      decide_eq_decide.mpr Item.fitIn_map_columns]
  · have hstray := hd.isStraight.isProper.ne_stray
    rw [Pending.allFit_cons, spend_flat_of_neg hstray (by omega), decide_eq_false (by omega)]
    rfl

/-! ## The two layouts of a group -/

/-- A group of a soft document is its flat text if this is no longer than the line, and is laid out
like the document if it is longer. -/
theorem layout_group_of_isSoft (hd : d.IsSoft) :
    (group d).layout page =
      if (d.flatText.length : Int) ≤ page.width then .ok d.flatText else d.layout page := by
  have hfits := allFit_of_isSoft hd (page.width - (0 : Nat))
  split
  · next hwidth =>
    rw [decide_eq_true (by simpa using hwidth)] at hfits
    obtain ⟨r, hr, -⟩ := Pending.allFit_flat_cons.mp hfits
    have hflat : d.lay page "" .flat [] 0 = _ := lay_flat hd.isStraight.hasOddFills hr
    refine layout_eq_ok.mpr ⟨_, _, lay_group_eq_ok.mpr (.inl ⟨hfits, hflat⟩), ?_⟩
    rw [LayoutEvent.segments_map_emitted,
      Segment.joined_settle_of_inline fun s hs => isNewline_of_mem_flatPieces hs]
    rfl
  · next hwidth =>
    rw [decide_eq_false (by simpa using hwidth)] at hfits
    obtain ⟨log, column, hlay⟩ := exists_layOut page hd.isStraight.isProper
    have hbroken : (group d).layOut page = ⟨.broke 0 :: log, .ok column⟩ :=
      lay_group_eq_ok.mpr (.inr ⟨hfits, log, hlay, rfl⟩)
    rw [layout, layout, hbroken, hlay]
    rfl

/-- A document that is grouped where it may break is laid out like a group. -/
theorem layout_grouped_of_isSoft (hd : d.IsSoft) :
    d.grouped.layout page =
      if (d.flatText.length : Int) ≤ page.width then .ok d.flatText else d.layout page := by
  cases d with
  | empty | text s =>
    split
    · exact layout_eq_ok.mpr ⟨_, _, rfl, rfl⟩
    · rfl
  | _ => exact layout_group_of_isSoft hd

/-! ## Documents without groups and fills -/

/-- Whether a document is neither a group nor a fill. -/
def Rigid : Document → Prop
  | .group _ => False
  | .fill _ => False
  | _ => True

/-- A document in which nothing is decided. -/
abbrev IsRigid : Document → Prop := Everywhere Rigid

/-- A rigid document that is broken is laid out as it is when everything is. -/
lemma segments_of_lay_of_isRigid {indentation : String} (hd : d.IsRigid) {rest : List Pending}
    {column column' : Nat} {log : List LayoutEvent}
    (hlay : d.lay page indentation .broken rest column = ⟨log, .ok column'⟩) :
    LayoutEvent.segments log = d.spread page.unit indentation := by
  induction d using inductionOn generalizing indentation rest column column' log with
  | empty | text s | newline flat | hardline =>
    obtain ⟨rfl, -⟩ := Traced.eq_of_ok hlay
    rfl
  | stray => cases hlay
  | group d | fill parts => exact hd.1.elim
  | concat docs ih =>
    have hall := everywhereAll_iff.mp hd.2
    exact segments_of_layAll_broken (fun d hmem _ _ _ _ => ih d hmem (hall d hmem)) hlay
  | indent d ih | align amount d ih => exact ih hd.2 hlay
  | ifBreak broken flat ihb ihf => exact ihb hd.2.1 hlay

/-- A document without groups and fills is laid out spread on every page. -/
theorem layout_of_isRigid (hproper : d.IsProper) (hd : d.IsRigid) :
    d.layout page = .ok (Segment.joined (Segment.settle (d.spread page.unit ""))) := by
  obtain ⟨log, column, hlay⟩ := exists_layOut page hproper
  rw [← segments_of_lay_of_isRigid hd hlay]
  exact layout_eq_ok.mpr ⟨log, column, hlay, rfl⟩

/-! ## Strings -/

/-- A string is laid out alike flat and broken. -/
lemma spread_ofString (unit indentation s : String) :
    (ofString s).spread unit indentation = (ofString s).flatPieces := by
  unfold ofString
  split <;> rfl

/-- The flat texts of strings one after the other are the strings put together. -/
lemma joined_flatMap_flatPieces_ofString (ss : List String) :
    Segment.joined ((ss.map ofString).flatMap flatPieces) = String.join ss := by
  induction ss with
  | nil => rfl
  | cons s ss ih =>
    rw [List.map_cons, List.flatMap_cons, Segment.joined_append, joined_flatPieces_ofString, ih,
      String.join_cons]

/-- Strings one after the other are laid out as they are. -/
lemma layout_strings (page : Page) (ss : List String) :
    (concat (ss.map ofString)).layout page = .ok (String.join ss) := by
  have hproper : (concat (ss.map ofString)).IsProper :=
    ⟨trivial, everywhereAll_iff.mpr (List.forall_mem_map.mpr
      fun _ _ => everywhere_ofString trivial trivial)⟩
  have hrigid : (concat (ss.map ofString)).IsRigid :=
    ⟨trivial, everywhereAll_iff.mpr (List.forall_mem_map.mpr
      fun _ _ => everywhere_ofString trivial trivial)⟩
  have hspread : (concat (ss.map ofString)).spread page.unit "" =
      (ss.map ofString).flatMap flatPieces := by
    simp only [spread, spreadAll_eq_flatMap, List.flatMap_map, spread_ofString]
  rw [layout_of_isRigid hproper hrigid, hspread,
    Segment.joined_settle_of_inline fun _ hs => isNewline_of_mem_flatMap_flatPieces hs,
    joined_flatMap_flatPieces_ofString]

end Document

end GlimmerFormat
