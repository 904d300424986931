import GlimmerFormat.Proofs.Layout.Plain
import GlimmerFormat.Proofs.Layout.Sequence

/-!
# Layouts further to the right

An indented document that starts on a line of its own is laid out like the document by itself on a
page that is so much narrower: measuring depends on the room behind the column alone, and one more
unit of indentation moves every newline's column by the columns of the unit, tabs and all.

* `Text.columns_unit_append`: one more unit in front of an indentation takes its columns.
* `Document.lay_shifted`: two layouts, with columns that differ by the columns of the unit, decide
  everything alike.
* `Segment.joined_settle_shifted`: with the unit in front of every newline's indentation, the text
  of segments is indented.
* `Document.layOut_indented`: an indented document is laid out as its lines on the narrower page,
  with the unit in front of each.
-/

namespace GlimmerFormat

/-! ## Indentations -/

namespace Text

/-- A unit of indentation with the columns that it takes: some spaces, or a tab. -/
inductive IsUnit (tabWidth : Int) : String → Nat → Prop
  | spaces (k : Nat) : IsUnit tabWidth (String.ofList (List.replicate k ' ')) k
  | tab : IsUnit tabWidth "\t" tabWidth.toNat

/-- An indentation that is made of units and of the spaces of alignments. -/
inductive IsIndentation (unit : String) : String → Prop
  | empty : IsIndentation unit ""
  | unit {s : String} (h : IsIndentation unit s) : IsIndentation unit (s ++ unit)
  | spaces {s : String} (h : IsIndentation unit s) (amount : Int) :
    IsIndentation unit (s ++ Document.spaces amount)

variable {tabWidth : Int} {unit s : String} {k : Nat}

/-- An indentation has the characters of its units, and spaces. -/
lemma IsIndentation.forall_mem (h : IsIndentation unit s) {p : Char → Prop}
    (hunit : ∀ c ∈ unit.toList, p c) (hspace : p ' ') : ∀ c ∈ s.toList, p c := by
  induction h with
  | empty => simp
  | unit h ih =>
    intro c hc
    rw [String.toList_append, List.mem_append] at hc
    exact hc.elim (ih c) (hunit c)
  | spaces h amount ih =>
    intro c hc
    rw [String.toList_append, List.mem_append, Document.spaces, String.toList_ofList] at hc
    rcases hc with hc | hc
    · exact ih c hc
    · exact List.eq_of_mem_replicate hc ▸ hspace

/-- A tab stop further to the right the columns are counted the same. -/
lemma columnsFrom_add_tabWidth (tabWidth : Int) (column : Nat) (cs : List Char) :
    columnsFrom tabWidth (column + tabWidth.toNat) cs = columnsFrom tabWidth column cs := by
  induction cs generalizing column with
  | nil => rfl
  | cons c cs ih =>
    have hroom : tabRoom tabWidth (column + tabWidth.toNat) = tabRoom tabWidth column := by
      rw [tabRoom, tabRoom, Nat.add_mod_right]
    have hbehind : ∀ n, columnsFrom tabWidth (column + tabWidth.toNat + n) cs =
        columnsFrom tabWidth (column + n) cs := by
      intro n
      rw [Nat.add_right_comm, ih]
    simp only [columnsFrom, hroom, hbehind]

/-- A tab that starts a line takes the width of a tab, and what stands behind it is counted like at
the start. -/
lemma columns_tab_append (tabWidth : Int) (s : String) :
    columns tabWidth ("\t" ++ s) = tabWidth.toNat + columns tabWidth s := by
  have hroom : tabRoom tabWidth 0 = tabWidth.toNat := by
    rw [tabRoom]
    split
    · simp
    · omega
  have hbehind := columnsFrom_add_tabWidth tabWidth 0 s.toList
  have hlist : ("\t" ++ s).toList = '\t' :: s.toList := by simp
  rw [columns, columns, hlist, columnsFrom, if_pos rfl, hroom, hbehind]

/-- One more unit in front of an indentation takes its columns. -/
lemma columns_unit_append (hunit : IsUnit tabWidth unit k) (hs : IsIndentation unit s) :
    columns tabWidth (unit ++ s) = k + columns tabWidth s := by
  cases hunit with
  | tab => exact columns_tab_append tabWidth s
  | spaces k =>
    have hspace : ∀ c : Char, c = ' ' → c ≠ '\t' ∧ c ≠ '\n' ∧ c ≠ '\r' := by
      rintro c rfl
      decide
    have hchars : ∀ c ∈ s.toList, c = ' ' := hs.forall_mem (by simp) rfl
    have hall : ∀ c ∈ (String.ofList (List.replicate k ' ') ++ s).toList, c = ' ' := by
      intro c hc
      rw [String.toList_append, List.mem_append, String.toList_ofList] at hc
      exact hc.elim List.eq_of_mem_replicate (hchars c)
    rw [columns, columns, columnsFrom_eq_length _ _ _ fun c hc => hspace c (hall c hc),
      columnsFrom_eq_length _ _ _ fun c hc => hspace c (hchars c hc)]
    simp

/-- A unit of indentation holds no newline character. -/
lemma IsUnit.isOneLine (h : IsUnit tabWidth unit k) : IsOneLine unit := by
  cases h <;> simp [IsOneLine]

end Text

/-! ## What happens further to the right -/

/-- A segment with a unit of indentation in front of each newline's indentation. -/
def Segment.shifted (unit : String) : Segment → Segment
  | .newline indentation => .newline (unit ++ indentation)
  | s => s

/-- An event so many columns further to the right, where newlines have one more unit of
indentation. -/
def LayoutEvent.shifted (unit : String) (k : Nat) : LayoutEvent → LayoutEvent
  | .emitted s => .emitted (s.shifted unit)
  | .broke column => .broke (k + column)

/-- What shifted events emit is shifted. -/
lemma LayoutEvent.segments_map_shifted (unit : String) (k : Nat) (log : List LayoutEvent) :
    segments (log.map (shifted unit k)) = (segments log).map (Segment.shifted unit) := by
  induction log with
  | nil => rfl
  | cons event log ih => cases event <;> simp [shifted, ih]

namespace Laying

variable {α β α' β' : Type} {unit : String} {k : Nat}

/-- A layout all of whose events happen further to the right. -/
def shifted (unit : String) (k : Nat) (f : α → α') (x : Laying α) : Laying α' :=
  ⟨x.log.map (LayoutEvent.shifted unit k), x.outcome.map f⟩

/-- One layout after another, further to the right. -/
lemma shifted_bind (f : α → α') {g : β → β'} (x : Laying α) {h : α → Laying β}
    {h' : α' → Laying β'} (hh : ∀ a, h' (f a) = (h a).shifted unit k g) :
    x.shifted unit k f >>= h' = (x >>= h).shifted unit k g := by
  obtain ⟨log, outcome⟩ := x
  cases outcome with
  | error e => rfl
  | ok a => simp [shifted, Except.map, hh]

end Laying

namespace Page

/-- A page with less room. -/
def narrowed (page : Page) (k : Nat) : Page :=
  { page with width := page.width - k }

variable {page : Page} {k : Nat}

/-! ## Decisions -/

/-- Measuring depends on nothing but the room behind the column. -/
lemma fitsFlat_shifted (unit : String) (d : Document) (rest : List Pending) (column : Nat) :
    page.fitsFlat d rest (k + column) =
      ((page.narrowed k).fitsFlat d rest column).shifted unit k id := by
  have hroom : page.width - (k + column : Nat) = (page.narrowed k).width - column := by
    simp only [narrowed]
    omega
  rw [fitsFlat, fitsFlat, hroom]
  cases Pending.allFit (⟨.flat, d⟩ :: rest) ((page.narrowed k).width - column) <;> rfl

/-- Further to the right a group is of the mode that it has on the narrowed page. -/
lemma groupMode_shifted (unit : String) (d : Document) (rest : List Pending) (column : Nat) :
    page.groupMode d rest (k + column) =
      ((page.narrowed k).groupMode d rest column).shifted unit k id := by
  rw [groupMode, groupMode, fitsFlat_shifted unit]
  refine Laying.shifted_bind id _ fun fits => ?_
  cases fits <;> rfl

/-- Further to the right a last content is of the mode that it has on the narrowed page. -/
lemma lastMode_shifted (unit : String) (content : Document) (column : Nat) :
    page.lastMode content (k + column) =
      ((page.narrowed k).lastMode content column).shifted unit k id := by
  rw [lastMode, lastMode, fitsFlat_shifted unit]
  refine Laying.shifted_bind id _ fun fits => ?_
  cases fits <;> rfl

/-- Further to the right a content and its separator are of their modes on the narrowed page. -/
lemma pairModes_shifted (unit : String) (content separator next : Document) (column : Nat) :
    page.pairModes content separator next (k + column) =
      ((page.narrowed k).pairModes content separator next column).shifted unit k id := by
  rw [pairModes, pairModes, fitsFlat_shifted unit]
  refine Laying.shifted_bind id _ fun contentFits => ?_
  rw [fitsFlat_shifted unit]
  refine Laying.shifted_bind id _ fun allFit => ?_
  cases allFit <;> cases contentFits <;> rfl

end Page

namespace Document

variable {page : Page} {k : Nat} {indentation : String} {mode : Mode}

/-! ## Simulation -/

/-- A document is laid out alike further to the right. -/
def ShiftsOn (page : Page) (k : Nat) (d : Document) : Prop :=
  ∀ indentation, Text.IsIndentation page.unit indentation →
    ∀ mode rest column, d.lay page (page.unit ++ indentation) mode rest (k + column) =
      (d.lay (page.narrowed k) indentation mode rest column).shifted page.unit k (k + ·)

/-- Documents that shift are shifted one after the other. -/
lemma layAll_shifted {ds : List Document} (h : ∀ d ∈ ds, d.ShiftsOn page k)
    (hindentation : Text.IsIndentation page.unit indentation) (rest : List Pending)
    (column : Nat) :
    layAll page (page.unit ++ indentation) mode ds rest (k + column) =
      (layAll (page.narrowed k) indentation mode ds rest column).shifted page.unit k (k + ·) := by
  induction ds generalizing column with
  | nil => rfl
  | cons d ds ih =>
    have hd := h d (by simp) indentation hindentation mode (⟨mode, .concat ds⟩ :: rest) column
    rw [layAll, layAll, hd]
    exact Laying.shifted_bind (k + ·) _ fun column => ih (fun e he => h e (by simp [he])) column

/-- A fill is shifted if its parts shift. -/
lemma layFill_shifted {parts : List Document} (h : ∀ d ∈ parts, d.ShiftsOn page k)
    (hindentation : Text.IsIndentation page.unit indentation) (rest : List Pending)
    (column : Nat) :
    layFill page (page.unit ++ indentation) mode parts rest (k + column) =
      (layFill (page.narrowed k) indentation mode parts rest column).shifted page.unit k
        (k + ·) := by
  induction parts using List.twoStepInduction generalizing column with
  | nil => rfl
  | singleton content =>
    rw [layFill, layFill, Page.lastMode_shifted page.unit]
    refine Laying.shifted_bind id _ fun last => ?_
    exact h content (by simp) indentation hindentation last rest column
  | cons_cons content separator parts ih _ =>
    have hcontent := h content (by simp) indentation hindentation
    have hseparator := h separator (by simp) indentation hindentation
    cases parts with
    | nil =>
      rw [layFill, layFill, Page.lastMode_shifted page.unit]
      refine Laying.shifted_bind id _ fun last => ?_
      rw [id, hcontent]
      exact Laying.shifted_bind (k + ·) _ fun column => hseparator last rest column
    | cons next parts =>
      rw [layFill_pair, layFill_pair, Page.pairModes_shifted page.unit]
      refine Laying.shifted_bind id _ fun modes => ?_
      rw [id, hcontent]
      refine Laying.shifted_bind (k + ·) _ fun column => ?_
      rw [hseparator]
      exact Laying.shifted_bind (k + ·) _ fun column =>
        ih (fun d hd => h d (by simp [hd])) column

/-- So many columns further to the right, on a page with so much more room, every document is laid
out alike. -/
theorem lay_shifted (hunit : Text.IsUnit page.tabWidth page.unit k) (d : Document) :
    d.ShiftsOn page k := by
  -- Where a line starts is the one place that looks at the indentation.
  have hnewline : ∀ indentation, Text.IsIndentation page.unit indentation →
      page.emitNewline (page.unit ++ indentation) =
        ((page.narrowed k).emitNewline indentation).shifted page.unit k (k + ·) := by
    intro indentation hindentation
    rw [Page.emitNewline, Text.columns_unit_append hunit hindentation]
    rfl
  induction d using inductionOn with
  | empty | stray => exact fun _ _ _ _ _ => rfl
  | text s =>
    intro _ _ _ _ column
    rw [lay, lay, Page.emitText, Nat.add_assoc]
    rfl
  | newline flat =>
    intro indentation hindentation mode _ column
    cases mode with
    | broken => exact hnewline indentation hindentation
    | flat =>
      simp only [lay, Page.emitFlatBreak, Nat.add_assoc]
      rfl
  | hardline => exact fun indentation hindentation _ _ _ => hnewline indentation hindentation
  | concat docs ih =>
    exact fun indentation hindentation _ rest column => layAll_shifted ih hindentation rest column
  | fill parts ih =>
    exact fun indentation hindentation _ rest column => layFill_shifted ih hindentation rest column
  | indent d ih =>
    intro indentation hindentation mode rest column
    have hd := ih _ hindentation.unit mode rest column
    rw [← String.append_assoc] at hd
    exact hd
  | align amount d ih =>
    intro indentation hindentation mode rest column
    have hd := ih _ (hindentation.spaces amount) mode rest column
    rw [← String.append_assoc] at hd
    exact hd
  | group d ih =>
    intro indentation hindentation mode rest column
    cases mode with
    | flat => exact ih indentation hindentation .flat rest column
    | broken =>
      simp only [lay]
      rw [Page.groupMode_shifted page.unit]
      exact Laying.shifted_bind id _ fun mode => ih indentation hindentation mode rest column
  | ifBreak broken flat ihb ihf =>
    intro indentation hindentation mode rest column
    cases mode with
    | flat => exact ihf indentation hindentation .flat rest column
    | broken => exact ihb indentation hindentation .broken rest column

end Document

/-! ## The text -/

/-- Trimming the end of a text beforehand does not matter to trimming the whole. -/
lemma trimmed_append_trimmed (s t : String) : trimmed (s ++ trimmed t) = trimmed (s ++ t) := by
  have hidem : (t.toList.rdropWhile isTrailing).rdropWhile isTrailing =
      t.toList.rdropWhile isTrailing := List.rdropWhile_idempotent isTrailing t.toList
  apply String.toList_injective
  simp only [toList_trimmed, String.toList_append, rdropWhile_append, hidem]

namespace Line

variable {unit : String}

/-- A line with a unit in front of its indentation. -/
def shifted (unit : String) (l : Line) : Line :=
  ⟨unit ++ l.indentation, l.pieces⟩

/-- The text of a shifted line has a unit in front. -/
lemma text_shifted (l : Line) : (l.shifted unit).text = unit ++ l.text := by
  simp [shifted, text, String.append_assoc]

/-- A shifted line stays so behind a shifted segment. -/
lemma next_shifted (l : Line) (s : Segment) :
    (l.shifted unit).next (s.shifted unit) = (l.next s).shifted unit := by
  cases s <;> rfl

/-- The line open behind shifted segments is shifted. -/
lemma openLine_shifted (l : Line) (ss : List Segment) :
    (l.shifted unit).openLine (ss.map (Segment.shifted unit)) = (l.openLine ss).shifted unit := by
  induction ss generalizing l with
  | nil => rfl
  | cons s ss ih => rw [List.map_cons, openLine_cons, next_shifted, ih, openLine_cons]

/-- The lines that shifted segments end are shifted. -/
lemma closedLines_shifted (l : Line) (ss : List Segment) :
    (l.shifted unit).closedLines (ss.map (Segment.shifted unit)) =
      (l.closedLines ss).map (shifted unit) := by
  induction ss generalizing l with
  | nil => rfl
  | cons s ss ih =>
    rw [List.map_cons, closedLines_cons, next_shifted, ih, closedLines_cons, List.map_append]
    cases s <;> rfl

end Line

/-- Where a unit comes in front of the indentation of every newline, it comes in front of every line
of the text. -/
theorem Segment.joined_settle_shifted (unit : String) {ss : List Segment}
    (h : ∀ s ∈ ss, s.OnOneLine) :
    joined (settle (.newline unit :: ss.map (Segment.shifted unit))) =
      "\n" ++ Text.indented unit (joined (settle ss)) := by
  have hfirst : Line.mk unit [] = Line.first.shifted unit := by simp [Line.shifted, Line.first]
  have hempty : Text.IsOneLine Line.first.text := Text.isOneLine_empty
  have hinline : Line.first.IsInline := by simp [Line.IsInline, Line.first]
  have htext : ∀ l ∈ Line.first.closedLines ss, l.trim.text = trimmed l.text :=
    fun l hl => Line.text_trim (Line.isInline_of_mem_closedLines hinline hl)
  have hshifted : ∀ l ∈ Line.first.closedLines ss,
      (l.shifted unit).trim.text = trimmed (unit ++ l.trim.text) := by
    intro l hl
    have hpieces : l.IsInline := Line.isInline_of_mem_closedLines hinline hl
    have hl' : (l.shifted unit).IsInline := hpieces
    rw [Line.text_trim hl', Line.text_shifted, htext l hl, trimmed_append_trimmed]
  have hclosed : ∀ t ∈ (Line.first.closedLines ss).map (fun l => l.trim.text),
      Text.IsOneLine t := by
    intro t ht
    obtain ⟨l, hl, rfl⟩ := List.mem_map.mp ht
    rw [htext l hl]
    exact (Line.isOneLine_text_of_mem_closedLines hempty h l hl).trimmed
  have hopen := Line.isOneLine_text_openLine hempty h
  rw [joined_settle_cons_newline, hfirst, Line.closedLines_shifted, Line.openLine_shifted,
    Line.text_shifted, joined_settle, Text.indented_intercalate unit hclosed hopen, List.map_map,
    List.map_map]
  congr 3
  exact List.map_congr_left hshifted

/-! ## Indented documents -/

namespace Document

variable {page : Page} {k : Nat} {d : Document} {log : List LayoutEvent} {column : Nat}

/-- All that happens when an indented document is laid out on a line of its own happens further to
the left when the document is laid out by itself on a narrower page. -/
lemma layOut_indent_hardline (hunit : Text.IsUnit page.tabWidth page.unit k)
    (h : d.layOut (page.narrowed k) = ⟨log, .ok column⟩) :
    (indent (.concat [.hardline, d])).layOut page =
      ⟨.emitted (.newline page.unit) :: log.map (LayoutEvent.shifted page.unit k),
        .ok (k + column)⟩ := by
  have hcolumns : Text.columns page.tabWidth page.unit = k := by
    simpa using Text.columns_unit_append hunit .empty
  have hnewline : page.emitNewline page.unit = ⟨[.emitted (.newline page.unit)], .ok k⟩ := by
    rw [Page.emitNewline, hcolumns]
  have hd : layAll page page.unit .broken [d] [] k =
      ⟨log.map (LayoutEvent.shifted page.unit k), .ok (k + column)⟩ := by
    have hshifted := lay_shifted hunit d "" .empty .broken [] 0
    have halone : d.lay (page.narrowed k) "" .broken [] 0 = ⟨log, .ok column⟩ := h
    rw [String.append_empty, Nat.add_zero, halone] at hshifted
    rw [layAll_singleton, hshifted]
    rfl
  have hall : (indent (.concat [.hardline, d])).layOut page = (do
      let column ← page.emitNewline page.unit
      layAll page page.unit .broken [d] [] column) := by
    simp only [layOut, lay, layAll, String.empty_append]
  rw [hall, hnewline, Traced.ok_bind, hd]
  rfl

end Document

end GlimmerFormat
