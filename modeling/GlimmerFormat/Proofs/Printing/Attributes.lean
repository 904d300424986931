import GlimmerFormat.Proofs.Layout.Choice
import GlimmerFormat.Proofs.Layout.OwnLines
import GlimmerFormat.Proofs.Printing.Markup

/-!
# Elements with attributes

The attributes of an element share the line of its tag, or each of them stands on a line of its own
under the first.  Which it is shows from the length of the tag alone, since nothing else in the tag
is decided.  The end tag shares the line if there is room for it too.

* `Document.IsWord`: documents that are one and the same text wherever they stand.
* `Markup.layout_startTag`: the two layouts of a start tag with attributes.
* `Markup.layout_element_void`, `Markup.layout_element`: the layouts of elements without content.
-/

namespace GlimmerFormat

open Document

/-! ## Words -/

/-- A document that is written alike wherever it stands, as a text that ends firm. -/
structure Document.IsWord (d : Document) : Prop where
  soft : d.IsSoft
  rigid : d.IsRigid
  spread_eq : ∀ unit indentation, d.spread unit indentation = d.flatPieces
  firm : Text.endsFirm d.flatText = true

namespace Document

variable {d : Document} {ds : List Document} {unit indentation : String}

/-- No newline is among the flat pieces of a document and others that are none. -/
lemma isNewline_of_mem_flatPieces_append {after : List Segment}
    (hafter : ∀ s ∈ after, s.isNewline = false) :
    ∀ s ∈ d.flatPieces ++ after, s.isNewline = false :=
  List.forall_mem_append.mpr ⟨fun _ hs => isNewline_of_mem_flatPieces hs, hafter⟩

/-- Pieces with others between any two are written as their texts with another between any two. -/
lemma joined_flatMap_intersperse (f : Document → List Segment) (separator : Document)
    (ds : List Document) :
    Segment.joined ((ds.intersperse separator).flatMap f) =
      (Segment.joined (f separator)).intercalate (ds.map fun d => Segment.joined (f d)) := by
  induction ds with
  | nil => rfl
  | cons d ds ih =>
    cases ds with
    | nil => simp
    | cons e es =>
      have hcons : (Segment.joined (f separator)).intercalate
          ((d :: e :: es).map fun d => Segment.joined (f d)) =
          Segment.joined (f d) ++ Segment.joined (f separator) ++
            (Segment.joined (f separator)).intercalate
              ((e :: es).map fun d => Segment.joined (f d)) :=
        String.intercalate_cons_of_ne_nil (by simp)
      rw [hcons, ← ih, List.intersperse_cons_cons, List.flatMap_cons, List.flatMap_cons,
        Segment.joined_append, Segment.joined_append, String.append_assoc]

/-- Words on lines of their own end their lines firm. -/
lemma trimmed_of_mem_closedLines {l : Line} (h : ∀ d ∈ ds, d.IsWord) {after : List Segment}
    (hafter : ∀ s ∈ after, s.isNewline = false) :
    ∀ k ∈ l.closedLines ((ds.intersperse line).flatMap (spread unit indentation) ++ after),
      trimmed k.text = k.text := by
  induction ds generalizing l with
  | nil => simp [Line.closedLines_of_inline l hafter]
  | cons d ds ih =>
    have hd := h d (by simp)
    cases ds with
    | nil =>
      have hinline := isNewline_of_mem_flatPieces_append (d := d) hafter
      simp [hd.spread_eq, Line.closedLines_of_inline l hinline]
    | cons e es =>
      have hinline : ∀ s ∈ d.flatPieces, s.isNewline = false :=
        fun s hs => isNewline_of_mem_flatPieces hs
      have hfirm : trimmed (l.openLine d.flatPieces).text = (l.openLine d.flatPieces).text := by
        rw [Line.openLine_of_inline l hinline, Line.text, Segment.joined_append,
          ← String.append_assoc]
        refine Text.trimmed_of_endsFirm ?_
        rw [Text.endsFirm_append, if_neg]
        · exact hd.firm
        · intro hempty
          have hfirm : Text.endsFirm "" = true := hempty ▸ hd.firm
          exact absurd hfirm (by decide)
      have hothers := @ih ⟨indentation, []⟩ fun f hf => h f (by simp [hf])
      intro k hk
      rw [List.intersperse_cons_cons, List.flatMap_cons, List.flatMap_cons, hd.spread_eq,
        List.append_assoc, List.append_assoc, Line.closedLines_append,
        Line.closedLines_of_inline l hinline, List.nil_append] at hk
      rcases List.mem_cons.mp hk with rfl | hk
      · exact hfirm
      · exact hothers k hk

end Document

namespace Markup

/-! ## Start tags -/

/-- A start tag up to its end, with its attributes on its line. -/
def flatTag (tag : String) (attributes : List String) : String :=
  "<" ++ tag ++ " " ++ " ".intercalate attributes

/-- A start tag up to its end, with each of its attributes on a line of its own, under the first. -/
def tallTag (tag : String) (attributes : List String) : String :=
  "<" ++ tag ++ " " ++
    ("\n" ++ String.ofList (List.replicate (tag.length + 2) ' ')).intercalate attributes

/-- The end of a start tag. -/
def tagEnd (selfCloses : Bool) : String :=
  if selfCloses then " />" else ">"

/-- What a start tag with attributes groups. -/
def tagContent (tag : String) (docs : List Document) (selfCloses : Bool) : Document :=
  ofList ["<", tag, aligned (tag.length + 2) (ofList [attributes docs, .empty]),
    tagEnd selfCloses]

variable {page : Page} {tag : String} {docs : List Document} {selfCloses : Bool}

/-- A start tag with attributes is the group of its content. -/
lemma startTag_eq_grouped (tag : String) (docs : List Document) (selfCloses : Bool) :
    startTag tag (attributes docs) .empty selfCloses =
      (tagContent tag docs selfCloses).grouped := by
  cases selfCloses <;> rfl

/-- What holds of all that a start tag adds, and in its attributes, holds everywhere in it. -/
lemma everywhere_tagContent {p : Document → Prop} (hempty : p .empty)
    (hconcat : ∀ ds, p (.concat ds)) (htext : ∀ s, p (.text s)) (hline : p line)
    (halign : ∀ amount d, p (.align amount d)) (hdocs : ∀ d ∈ docs, Everywhere p d) :
    Everywhere p (tagContent tag docs selfCloses) := by
  have hstring : ∀ s, Everywhere p (ofString s) :=
    fun s => everywhere_ofString hempty (htext s)
  have hjoined : Everywhere p (joined line docs) := by
    refine (everywhere_ofList hempty hconcat).mpr fun d hd => ?_
    rcases eq_or_mem_of_mem_intersperse hd with rfl | hd
    · exact hline
    · exact hdocs d hd
  have hattributes : Everywhere p (attributes docs) :=
    (everywhere_ofList hempty hconcat).mpr (by simp [hstring, hjoined])
  have hinside : Everywhere p (aligned (tag.length + 2) (ofList [attributes docs, .empty])) :=
    everywhere_aligned halign ((everywhere_ofList hempty hconcat).mpr
      (by simp [hattributes, Everywhere, hempty]))
  exact (everywhere_ofList hempty hconcat).mpr (by simp [hstring, hinside])

/-- The content of a start tag is soft if the attributes are words. -/
lemma isSoft_tagContent (h : ∀ d ∈ docs, d.IsWord) : (tagContent tag docs selfCloses).IsSoft :=
  everywhere_tagContent trivial (fun _ => trivial) (fun _ => trivial) trivial
    (fun _ _ => trivial) fun d hd => (h d hd).soft

/-- Nothing is decided in the content of a start tag if the attributes are words. -/
lemma isRigid_tagContent (h : ∀ d ∈ docs, d.IsWord) : (tagContent tag docs selfCloses).IsRigid :=
  everywhere_tagContent trivial (fun _ => trivial) (fun _ => trivial) trivial
    (fun _ _ => trivial) fun d hd => (h d hd).rigid

/-- The flat content of a start tag has its attributes on one line. -/
lemma flatText_tagContent (tag : String) (docs : List Document) (selfCloses : Bool) :
    (tagContent tag docs selfCloses).flatText =
      flatTag tag (docs.map flatText) ++ tagEnd selfCloses := by
  have hjoined : Segment.joined ((docs.intersperse line).flatMap flatPieces) =
      " ".intercalate (docs.map flatText) := joined_flatMap_intersperse flatPieces line docs
  simp [flatText, tagContent, attributes, joined, joined_flatPieces_ofString, hjoined, flatTag,
    flatPieces, String.append_assoc]

/-- Spread, a start tag is the pieces before its attributes, these with newlines between them, and
those behind. -/
lemma spread_tagContent (unit tag : String) (docs : List Document) (selfCloses : Bool) :
    (tagContent tag docs selfCloses).spread unit "" =
      (["<", tag, " "].map ofString).flatMap flatPieces ++
        ((docs.intersperse line).flatMap (spread unit (spaces (tag.length + 2))) ++
          (ofString (tagEnd selfCloses)).flatPieces) := by
  simp [tagContent, attributes, joined, spread_ofString, spread, List.append_assoc]

/-- Spread, a start tag is written with each attribute on a line of its own. -/
lemma joined_spread_tagContent (unit tag : String) (h : ∀ d ∈ docs, d.IsWord)
    (selfCloses : Bool) :
    Segment.joined ((tagContent tag docs selfCloses).spread unit "") =
      tallTag tag (docs.map flatText) ++ tagEnd selfCloses := by
  have hwords : docs.map (fun d => Segment.joined (d.spread unit (spaces (tag.length + 2)))) =
      docs.map flatText := by
    refine List.map_congr_left fun d hd => ?_
    rw [(h d hd).spread_eq, flatText]
  have hjoined := joined_flatMap_intersperse (spread unit (spaces (tag.length + 2))) line docs
  rw [hwords] at hjoined
  have hbreak : Segment.joined (line.spread unit (spaces (tag.length + 2))) =
      "\n" ++ String.ofList (List.replicate (tag.length + 2) ' ') := by
    have hamount : ((tag.length : Int) + 2).toNat = tag.length + 2 := by omega
    simp [line, spread, Segment.render, spaces, hamount]
  rw [spread_tagContent, Segment.joined_append, Segment.joined_append, hjoined, hbreak]
  simp [joined_flatPieces_ofString, tallTag, String.append_assoc]

/-- The lines of a spread start tag end firm. -/
lemma trimmed_of_spread_tagContent (unit tag : String) (h : ∀ d ∈ docs, d.IsWord)
    (selfCloses : Bool) :
    ∀ l ∈ Line.first.closedLines ((tagContent tag docs selfCloses).spread unit ""),
      trimmed l.text = l.text := by
  have hbefore : ∀ s ∈ (["<", tag, " "].map ofString).flatMap flatPieces, s.isNewline = false :=
    fun s hs => isNewline_of_mem_flatMap_flatPieces hs
  rw [spread_tagContent, Line.closedLines_append, Line.closedLines_of_inline _ hbefore,
    List.nil_append]
  exact trimmed_of_mem_closedLines h fun s hs => isNewline_of_mem_flatPieces hs

/-- A start tag whose attributes are words has them all on its line if this is no longer than the
page is wide, and each on a line of its own if it is longer. -/
theorem layout_startTag (h : ∀ d ∈ docs, d.IsWord) :
    (startTag tag (attributes docs) .empty selfCloses).layout page = .ok
      (if ((flatTag tag (docs.map flatText) ++ tagEnd selfCloses).length : Int) ≤ page.width
        then flatTag tag (docs.map flatText) ++ tagEnd selfCloses
        else tallTag tag (docs.map flatText) ++ tagEnd selfCloses) := by
  have hsoft : (tagContent tag docs selfCloses).IsSoft := isSoft_tagContent h
  have hspread : (tagContent tag docs selfCloses).layout page =
      .ok (tallTag tag (docs.map flatText) ++ tagEnd selfCloses) := by
    rw [layout_of_isRigid hsoft.isStraight.isProper (isRigid_tagContent h),
      Segment.joined_settle_of_firm (trimmed_of_spread_tagContent page.unit tag h selfCloses),
      joined_spread_tagContent page.unit tag h]
  rw [startTag_eq_grouped, layout_grouped_of_isSoft hsoft, flatText_tagContent, hspread]
  split <;> rfl

/-! ## Elements without content -/

/-- A start tag is soft if its attributes are words. -/
lemma isSoft_startTag (h : ∀ d ∈ docs, d.IsWord) :
    (startTag tag (attributes docs) .empty selfCloses).IsSoft := by
  rw [startTag_eq_grouped]
  exact everywhere_grouped (fun _ => trivial) (isSoft_tagContent h)

/-- A flat start tag has its attributes on one line. -/
lemma flatText_startTag (tag : String) (docs : List Document) (selfCloses : Bool) :
    (startTag tag (attributes docs) .empty selfCloses).flatText =
      flatTag tag (docs.map flatText) ++ tagEnd selfCloses := by
  rw [startTag_eq_grouped, flatText, flatPieces_grouped, ← flatText, flatText_tagContent]

/-- An element that closes itself is laid out like its tag. -/
theorem layout_element_void (h : ∀ d ∈ docs, d.IsWord) :
    (element (startTag tag (attributes docs) .empty true) .empty .empty).layout page =
      (startTag tag (attributes docs) .empty true).layout page := by
  have hlist : ofList [startTag tag (attributes docs) .empty true, .empty, .empty] =
      ofList [startTag tag (attributes docs) .empty true] := ofList_congr (by simp)
  have hsoft : (ofList [startTag tag (attributes docs) .empty true]).IsSoft :=
    (everywhere_ofList trivial fun _ => trivial).mpr (by simpa using isSoft_startTag h)
  have hflat : (ofList [startTag tag (attributes docs) .empty true]).flatText =
      flatTag tag (docs.map flatText) ++ tagEnd true := by
    rw [← flatText_startTag, flatText, flatText, flatPieces_ofList, List.flatMap_singleton]
  rw [element, hlist, layout_grouped_of_isSoft hsoft, layout_ofList_singleton, layout_startTag h,
    hflat]
  split <;> rfl

/-- An end tag adds a softline and its three texts to a concatenation. -/
lemma pieces_endTag (tag : String) :
    (endTag tag).pieces = (softline :: ["</", tag, ">"].map ofString).flatMap pieces := rfl

/-- The end of a start tag is not trimmed, nor what is before it. -/
lemma trimmed_append_tagEnd (s : String) (selfCloses : Bool) :
    trimmed (s ++ tagEnd selfCloses) = s ++ tagEnd selfCloses := by
  refine Text.trimmed_of_endsFirm ?_
  cases selfCloses <;> exact Text.endsFirm_append s _

/-- An element without content has its end tag on the line of its start tag if there is room for
both, and below it if not. -/
theorem layout_element (h : ∀ d ∈ docs, d.IsWord) :
    (element (startTag tag (attributes docs) .empty false) .empty (endTag tag)).layout page = .ok
      (if ((flatTag tag (docs.map flatText) ++ "></" ++ tag ++ ">").length : Int) ≤ page.width
        then flatTag tag (docs.map flatText) ++ "></" ++ tag ++ ">"
        else if ((flatTag tag (docs.map flatText) ++ ">").length : Int) ≤ page.width
        then flatTag tag (docs.map flatText) ++ ">\n</" ++ tag ++ ">"
        else tallTag tag (docs.map flatText) ++ ">\n</" ++ tag ++ ">") := by
  have hlist : ofList [startTag tag (attributes docs) .empty false, .empty, endTag tag] =
      ofList ([startTag tag (attributes docs) .empty false] ++
        softline :: ["</", tag, ">"].map ofString) := ofList_congr (by simp [pieces_endTag])
  have hsoft : (ofList ([startTag tag (attributes docs) .empty false] ++
      softline :: ["</", tag, ">"].map ofString)).IsSoft := by
    have hbreak : softline.IsSoft := trivial
    have hstring : ∀ s, (ofString s).IsSoft := fun s => everywhere_ofString trivial trivial
    refine (everywhere_ofList trivial fun _ => trivial).mpr ?_
    simp [hstring, hbreak, isSoft_startTag h]
  have hflat : (ofList ([startTag tag (attributes docs) .empty false] ++
      softline :: ["</", tag, ">"].map ofString)).flatText =
      flatTag tag (docs.map flatText) ++ "></" ++ tag ++ ">" := by
    have hstart := flatText_startTag tag docs false
    have hmarks : ∀ s : String, ">" ++ ("</" ++ s) = "></" ++ s :=
      fun s => (String.append_assoc ..).symm
    rw [flatText] at hstart
    simp [flatText, hstart, joined_flatPieces_ofString, softline, flatPieces, Segment.render,
      tagEnd, String.append_assoc, hmarks]
  -- Broken, the end tag stands below the start tag, which is laid out by itself.
  have hbelow := layout_append_break page (b := softline) trivial
    [startTag tag (attributes docs) .empty false] (["</", tag, ">"].map ofString)
  rw [layout_concat_singleton, layout_startTag h, layout_strings] at hbelow
  have hend : ∀ s : String, s ++ tagEnd false ++ "\n" ++ String.join ["</", tag, ">"] =
      s ++ ">\n</" ++ tag ++ ">" := by
    intro s
    have hmarks : ∀ t : String, ">\n" ++ ("</" ++ t) = ">\n</" ++ t :=
      fun t => (String.append_assoc ..).symm
    simp [tagEnd, String.join_cons, String.append_assoc, hmarks]
  rw [element, hlist, layout_grouped_of_isSoft hsoft, layout_ofList, hbelow, hflat]
  split
  · rfl
  · simp only [bind, Except.bind, pure, Except.pure]
    split
    · next hstart =>
      rw [trimmed_append_tagEnd, hend]
      exact congrArg Except.ok (if_pos hstart).symm
    · next hstart =>
      rw [trimmed_append_tagEnd, hend]
      exact congrArg Except.ok (if_neg hstart).symm

end Markup

end GlimmerFormat
