import GlimmerFormat.Proofs.Layout.Decisions
import GlimmerFormat.Proofs.Layout.Lines

/-!
# Legal renderings

A document leaves its layout a choice: each group, and each part of a fill, may be flat or
broken.  `Document.IsRendering` says which segments a document may be laid out as at an
indentation and in a mode, without saying anything of widths, and `Mark.kept` drops the
spaces and tabs that stand directly before a newline segment.

The main result is `Document.layout_isRendering`: the layout of a proper document on any page
exists and is one of its legal renderings, with the ends of its lines dropped.  So laying out
neither loses nor repeats nor reorders a text, and gives every newline its own indentation.
-/

namespace GlimmerFormat

namespace Document

mutual

/-- Whether a document may be laid out as the given segments, at an indentation and in a mode,
where one level of indentation is a unit. -/
def IsRendering (unit indentation : String) (mode : Mode) : Document → List Segment → Prop
  | .empty, segments => segments = []
  | .text s, segments => segments = [.text s]
  | .newline flat, segments =>
    match mode with
    | .flat => segments = [.flatBreak flat]
    | .broken => segments = [.newline indentation]
  | .hardline, segments => segments = [.newline indentation]
  | .concat docs, segments => AreRenderings unit indentation mode docs segments
  | .indent d, segments => IsRendering unit (indentation ++ unit) mode d segments
  | .align amount d, segments => IsRendering unit (indentation ++ spaces amount) mode d segments
  | .group d, segments =>
    match mode with
    | .flat => IsRendering unit indentation .flat d segments
    | .broken =>
      IsRendering unit indentation .flat d segments ∨
        IsRendering unit indentation .broken d segments
  | .fill parts, segments => ArePartRenderings unit indentation parts segments
  | .ifBreak broken flat, segments =>
    match mode with
    | .flat => IsRendering unit indentation .flat flat segments
    | .broken => IsRendering unit indentation .broken broken segments
  | .stray _, _ => False

/-- Whether documents may be laid out one after the other as the given segments. -/
def AreRenderings (unit indentation : String) (mode : Mode) :
    List Document → List Segment → Prop
  | [], segments => segments = []
  | d :: ds, segments =>
    ∃ first others, IsRendering unit indentation mode d first ∧
      AreRenderings unit indentation mode ds others ∧ segments = first ++ others

/-- Whether the parts of a fill, each flat or broken, may be laid out as the given segments. -/
def ArePartRenderings (unit indentation : String) : List Document → List Segment → Prop
  | [], segments => segments = []
  | d :: ds, segments =>
    ∃ first others, (IsRendering unit indentation .flat d first ∨
        IsRendering unit indentation .broken d first) ∧
      ArePartRenderings unit indentation ds others ∧ segments = first ++ others

end

variable {page : Page} {indentation : String}

/-! ## Layouts are legal renderings -/

/-- What is laid out in some mode is laid out flat or broken. -/
lemma isRendering_flat_or_broken {unit : String} {mode : Mode} {d : Document}
    {segments : List Segment} (h : IsRendering unit indentation mode d segments) :
    IsRendering unit indentation .flat d segments ∨
      IsRendering unit indentation .broken d segments := by
  cases mode with
  | flat => exact .inl h
  | broken => exact .inr h

/-- Documents are laid out one after the other as legal renderings if each of them is. -/
lemma areRenderings_of_layAll {mode : Mode} {ds : List Document}
    (h : ∀ d ∈ ds, ∀ {rest : List Pending} {column column' : Nat} {log : List LayoutEvent},
      d.lay page indentation mode rest column = ⟨log, .ok column'⟩ →
      IsRendering page.unit indentation mode d (LayoutEvent.segments log))
    {rest : List Pending} {column column' : Nat} {log : List LayoutEvent}
    (hlay : layAll page indentation mode ds rest column = ⟨log, .ok column'⟩) :
    AreRenderings page.unit indentation mode ds (LayoutEvent.segments log) := by
  induction ds generalizing column log with
  | nil =>
    obtain ⟨rfl, -⟩ := Traced.eq_of_ok hlay
    rfl
  | cons d ds ih =>
    obtain ⟨log₁, column₁, log₂, hd, hds, rfl⟩ := Traced.bind_eq_ok.mp hlay
    have hrest := ih (fun e he => h e (by simp [he])) hds
    exact ⟨_, _, h d (by simp) hd, hrest, LayoutEvent.segments_append _ _⟩

/-- The parts of a fill are laid out as legal renderings if each of them is in each mode. -/
lemma arePartRenderings_of_layFill {mode : Mode} {parts : List Document}
    (h : ∀ d ∈ parts, ∀ {mode : Mode} {rest : List Pending} {column column' : Nat}
      {log : List LayoutEvent}, d.lay page indentation mode rest column = ⟨log, .ok column'⟩ →
      IsRendering page.unit indentation mode d (LayoutEvent.segments log))
    {rest : List Pending} {column column' : Nat} {log : List LayoutEvent}
    (hlay : layFill page indentation mode parts rest column = ⟨log, .ok column'⟩) :
    ArePartRenderings page.unit indentation parts (LayoutEvent.segments log) := by
  induction parts using List.twoStepInduction generalizing column log with
  | nil =>
    obtain ⟨rfl, -⟩ := Traced.eq_of_ok hlay
    rfl
  | singleton content =>
    obtain ⟨last, hlast, hcontent⟩ := layFill_last_eq_ok.mp hlay
    exact ⟨_, [], isRendering_flat_or_broken (h content (by simp) hcontent), rfl, by simp⟩
  | cons_cons content separator parts ih _ =>
    cases parts with
    | nil =>
      obtain ⟨last, first, column₁, second, hlast, hcontent, hseparator, rfl⟩ :=
        layFill_two_eq_ok.mp hlay
      exact ⟨_, _, isRendering_flat_or_broken (h content (by simp) hcontent),
        ⟨_, [], isRendering_flat_or_broken (h separator (by simp) hseparator), rfl, rfl⟩,
        by simp⟩
    | cons next parts =>
      obtain ⟨modes, first, column₁, second, column₂, others, hmodes, hcontent, hseparator, hparts,
        rfl⟩ := layFill_pair_eq_ok.mp hlay
      have hrest := ih (fun e he => h e (by simp [he])) hparts
      exact ⟨_, _, isRendering_flat_or_broken (h content (by simp) hcontent),
        ⟨_, _, isRendering_flat_or_broken (h separator (by simp) hseparator), hrest, rfl⟩,
        by simp⟩

/-- Whatever a document is laid out as is a legal rendering. -/
theorem isRendering_of_lay {d : Document} {mode : Mode} {rest : List Pending}
    {column column' : Nat} {log : List LayoutEvent}
    (hlay : d.lay page indentation mode rest column = ⟨log, .ok column'⟩) :
    IsRendering page.unit indentation mode d (LayoutEvent.segments log) := by
  induction d using inductionOn generalizing indentation mode rest column column' log with
  | empty =>
    obtain ⟨rfl, -⟩ := Traced.eq_of_ok hlay
    rfl
  | text s =>
    obtain ⟨rfl, -⟩ := Traced.eq_of_ok hlay
    rfl
  | newline flat =>
    cases mode with
    | flat =>
      obtain ⟨rfl, -⟩ := Traced.eq_of_ok hlay
      rfl
    | broken =>
      obtain ⟨rfl, -⟩ := Traced.eq_of_ok hlay
      rfl
  | hardline =>
    obtain ⟨rfl, -⟩ := Traced.eq_of_ok hlay
    rfl
  | stray => cases hlay
  | concat docs ih => exact areRenderings_of_layAll (fun d hd _ _ _ _ => ih d hd) hlay
  | fill parts ih => exact arePartRenderings_of_layFill (fun d hd _ _ _ _ _ => ih d hd) hlay
  | indent d ih => exact ih hlay
  | align amount d ih => exact ih hlay
  | group d ih =>
    cases mode with
    | flat => exact ih hlay
    | broken =>
      rcases lay_group_eq_ok.mp hlay with ⟨-, hd⟩ | ⟨-, behind, hd, rfl⟩
      · exact .inl (ih hd)
      · rw [LayoutEvent.segments_broke]
        exact .inr (ih hd)
  | ifBreak broken flat ihb ihf =>
    cases mode with
    | flat => exact ihf hlay
    | broken => exact ihb hlay

end Document

/-! ## The ends of lines -/

/-- A character of a text, or the start of a newline segment. -/
inductive Mark where
  | char (c : Char)
  | newline
deriving DecidableEq

namespace Mark

/-- The characters of a text. -/
def ofString (s : String) : List Mark :=
  s.toList.map char

/-- The characters of segments, with the starts of newline segments told apart. -/
def ofSegments : List Segment → List Mark
  | [] => []
  | .text s :: ss => ofString s ++ ofSegments ss
  | .flatBreak s :: ss => ofString s ++ ofSegments ss
  | .newline indentation :: ss => .newline :: (ofString indentation ++ ofSegments ss)

/-- Whether nothing but spaces and tabs stands before the next newline segment. -/
def endsLine : List Mark → Bool
  | [] => false
  | .newline :: _ => true
  | .char c :: ms => (c == ' ' || c == '\t') && endsLine ms

/-- The text without the runs of spaces and tabs that stand directly before a newline segment. -/
def kept : List Mark → List Char
  | [] => []
  | .newline :: ms => '\n' :: kept ms
  | .char c :: ms => if endsLine (.char c :: ms) then kept ms else c :: kept ms

/-- A line ends behind characters if all are spaces or tabs and it ends behind them. -/
lemma endsLine_chars (cs : List Char) (ms : List Mark) :
    endsLine (cs.map char ++ ms) = (cs.all isTrailing && endsLine ms) := by
  induction cs with
  | nil => rfl
  | cons c cs ih => simp [endsLine, ih, isTrailing, Bool.and_assoc]

/-- Nothing is dropped at the end of the whole text. -/
lemma kept_chars (cs : List Char) : kept (cs.map char) = cs := by
  induction cs with
  | nil => rfl
  | cons c cs ih =>
    have hends : endsLine ((c :: cs).map char) = false := by
      have := endsLine_chars (c :: cs) []
      simpa [endsLine] using this
    rw [List.map_cons] at hends ⊢
    simp [kept, hends, ih]

/-- The spaces and tabs at the end of a line are dropped. -/
lemma kept_chars_newline (cs : List Char) (ms : List Mark) :
    kept (cs.map char ++ .newline :: ms) = cs.rdropWhile isTrailing ++ '\n' :: kept ms := by
  induction cs with
  | nil => simp [kept]
  | cons c cs ih =>
    have hends := endsLine_chars (c :: cs) (.newline :: ms)
    have hdrop : (c :: cs).rdropWhile isTrailing =
        if (c :: cs).all isTrailing then [] else c :: cs.rdropWhile isTrailing := by
      rw [← List.singleton_append, rdropWhile_append, List.rdropWhile_singleton]
      by_cases hcs : cs.rdropWhile isTrailing = []
      · have hall := List.rdropWhile_eq_nil_iff.mp hcs
        simp [hcs, List.all_eq_true.mpr hall]
      · have hall : cs.all isTrailing = false := by
          rw [Bool.eq_false_iff]
          exact fun hall => hcs (List.rdropWhile_eq_nil_iff.mpr (List.all_eq_true.mp hall))
        simp [hcs, hall]
    rw [hdrop]
    rw [List.map_cons, List.cons_append] at hends ⊢
    rw [kept, hends, ih]
    by_cases hall : (c :: cs).all isTrailing = true
    · have hcs : cs.rdropWhile isTrailing = [] :=
        List.rdropWhile_eq_nil_iff.mpr fun d hd =>
          List.all_eq_true.mp hall d (List.mem_cons_of_mem c hd)
      simp [hall, hcs, endsLine]
    · simp [hall]

/-- The marks of a segment that starts no line are the characters of its text. -/
lemma ofSegments_cons_of_not_isNewline {s : Segment} (hs : s.isNewline = false)
    (ss : List Segment) : ofSegments (s :: ss) = ofString s.render ++ ofSegments ss := by
  cases s with
  | text t => rfl
  | flatBreak t => rfl
  | newline indentation => simp [Segment.isNewline] at hs

/-- The text kept of a line and what follows it is the text of the trimmed lines. -/
lemma kept_line (l : Line) (hl : l.IsInline) (ss : List Segment) :
    kept (ofString l.text ++ ofSegments ss) =
      ("\n".intercalate (((l.closedLines ss).map Line.trim ++ [l.openLine ss]).map
        Line.text)).toList := by
  induction ss generalizing l with
  | nil => simpa [ofSegments, ofString] using kept_chars l.text.toList
  | cons s ss ih =>
    have hss := ih (l.next s) (Line.isInline_next hl s)
    cases hs : s.isNewline with
    | false =>
      have htext : ofString l.text ++ ofString s.render = ofString (l.next s).text := by
        simp [ofString, Line.text, Line.next_of_not_isNewline l hs]
      rw [ofSegments_cons_of_not_isNewline hs, ← List.append_assoc, htext, hss]
      simp [Line.closedLines_cons, hs]
    | true =>
      obtain ⟨indentation, rfl⟩ := Segment.exists_newline hs
      have htext : (l.next (.newline indentation)).text = indentation := by
        simp [Line.next, Line.text]
      rw [htext] at hss
      rw [ofSegments, ofString, kept_chars_newline, hss]
      simp only [Line.closedLines_cons, hs, if_true, List.map_cons, List.cons_append,
        List.nil_append, Line.openLine_cons]
      rw [String.intercalate_cons_of_ne_nil (by simp), Line.text_trim hl, String.toList_append,
        String.toList_append, toList_trimmed]
      simp

/-- A layout with its lines settled is the text kept of the layout. -/
theorem kept_ofSegments (ss : List Segment) :
    kept (ofSegments ss) = (Segment.joined (Segment.settle ss)).toList := by
  have hkept := kept_line .first (by simp [Line.IsInline, Line.first]) ss
  have hlines := Line.intercalate_text .first (Segment.settle ss)
  rw [← Line.ofSegments, Line.ofSegments_settle] at hlines
  rw [hlines] at hkept
  simpa [Line.first, Line.text, ofString] using hkept

example : kept (ofSegments [.text "a \t", .newline "  ", .newline "", .text "b "]) =
    ['a', '\n', '\n', 'b', ' '] := by decide

end Mark

/-! ## Soundness of the layout -/

/-- The layout of a proper document on any page is one of its legal renderings, less the spaces
and tabs that stand directly before a newline segment. -/
theorem Document.layout_isRendering (page : Page) {d : Document} (hd : d.IsProper) :
    ∃ segments, d.IsRendering page.unit "" .broken segments ∧
      d.layout page = .ok (String.ofList (Mark.kept (Mark.ofSegments segments))) := by
  obtain ⟨log, column, hlay⟩ := exists_layOut page hd
  refine ⟨LayoutEvent.segments log, isRendering_of_lay hlay, ?_⟩
  rw [Mark.kept_ofSegments, String.ofList_toList, layout, hlay]
  rfl

/-- An indented fill in a group, with spaces before its breaks, on a page of four columns. -/
theorem Document.indented_fill_layout_isRendering :
    ∃ segments, IsRendering "  " "" .broken
        (.group (.indent (.concat [.text "a ", .line, .fill [.text "b", .line, .text "c"]])))
        segments ∧
      layout ⟨4, "  ", 8⟩
        (.group (.indent (.concat [.text "a ", .line, .fill [.text "b", .line, .text "c"]]))) =
        .ok (String.ofList (Mark.kept (Mark.ofSegments segments))) := by
  refine layout_isRendering ⟨4, "  ", 8⟩ ?_
  simp [IsProper, Everywhere, EverywhereAll, NotStray, line]

end GlimmerFormat
