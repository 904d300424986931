import GlimmerFormat.Proofs.Layout.Sequence

/-!
# Documents that differ by an empty line

A document may say all that another one says, and end one line more on which nothing stands.  Where
such a document stands among others, under an indentation or in a group, all decisions of the layout
are made as for the other one, and one empty line is more in the text.

* `Text.DropsEmptyLine`, `Text.DropsEmptyLines`: a text without some of its empty lines.
* `Document.DropsLine`: laid out anywhere, the second document lacks an empty line of the first.
* `Document.dropsLine_hardline`: an indented newline before another one is an empty line.
* `Document.DropsLine.concat`, `Document.DropsLine.group` and so on: what is made of such documents.
* `Document.DropsLine.layout`: the texts of such documents.
-/

namespace GlimmerFormat

namespace Text

/-- The second text is the first without one of its empty lines. -/
inductive DropsEmptyLine : String → String → Prop
  | mk (before after : String) :
      DropsEmptyLine (before ++ "\n\n" ++ after) (before ++ "\n" ++ after)

/-- The second text is the first without so many of its empty lines. -/
inductive DropsEmptyLines : Nat → String → String → Prop
  | refl (s : String) : DropsEmptyLines 0 s s
  | step {k : Nat} {s t u : String} (h : DropsEmptyLines k s t) (hstep : DropsEmptyLine t u) :
    DropsEmptyLines (k + 1) s u

/-- The number of newlines in a text. -/
def newlines (s : String) : Nat :=
  s.toList.count '\n'

/-- A text without one of its empty lines has one newline less. -/
lemma DropsEmptyLine.newlines_eq {s t : String} (h : DropsEmptyLine s t) :
    newlines s = newlines t + 1 := by
  obtain ⟨before, after⟩ := h
  have htwo : "\n\n".toList = ['\n', '\n'] := rfl
  have hone : "\n".toList = ['\n'] := rfl
  simp only [newlines, String.toList_append, List.count_append, htwo, hone, List.count_cons_self,
    List.count_nil]
  omega

/-- A text without some of its empty lines has so many newlines less. -/
lemma DropsEmptyLines.newlines_eq {k : Nat} {s t : String} (h : DropsEmptyLines k s t) :
    newlines s = newlines t + k := by
  induction h with
  | refl => rfl
  | step _ hstep ih =>
    have := hstep.newlines_eq
    omega

/-- A text without some of its empty lines is the same text only if there are none of these. -/
lemma DropsEmptyLines.eq_iff {k : Nat} {s t : String} (h : DropsEmptyLines k s t) :
    s = t ↔ k = 0 := by
  constructor
  · rintro rfl
    have := h.newlines_eq
    omega
  · rintro rfl
    cases h
    rfl

/-- A text of spaces and tabs. -/
def IsSpacing (s : String) : Prop :=
  trimmed s = ""

/-- A text is spacing exactly if each of its characters is a space or a tab. -/
lemma isSpacing_iff {s : String} : IsSpacing s ↔ ∀ c ∈ s.toList, isTrailing c = true := by
  rw [IsSpacing, ← String.toList_eq_nil_iff, toList_trimmed, List.rdropWhile_eq_nil_iff]

/-- The empty text is spacing. -/
lemma isSpacing_empty : IsSpacing "" := rfl

/-- Spacing behind spacing is spacing. -/
lemma IsSpacing.append {s t : String} (hs : IsSpacing s) (ht : IsSpacing t) :
    IsSpacing (s ++ t) := by
  rw [isSpacing_iff] at hs ht ⊢
  intro c hc
  rw [String.toList_append, List.mem_append] at hc
  exact hc.elim (hs c) (ht c)

end Text

/-! ## Segments -/

namespace Segment

/-- The second segments are the first without a newline that ends an empty line. -/
inductive DropsLine : List Segment → List Segment → Prop
  | mk {indentation : String} (h : Text.IsSpacing indentation) (before : List Segment)
    (next : String) (after : List Segment) :
    DropsLine (before ++ .newline indentation :: .newline next :: after)
      (before ++ .newline next :: after)

variable {xs ys : List Segment}

/-- A line may be dropped behind other segments. -/
lemma DropsLine.append_left (zs : List Segment) (h : DropsLine xs ys) :
    DropsLine (zs ++ xs) (zs ++ ys) := by
  obtain ⟨hspacing, before, next, after⟩ := h
  simpa using DropsLine.mk hspacing (zs ++ before) next after

/-- A line may be dropped before other segments. -/
lemma DropsLine.append_right (h : DropsLine xs ys) (zs : List Segment) :
    DropsLine (xs ++ zs) (ys ++ zs) := by
  obtain ⟨hspacing, before, next, after⟩ := h
  simpa using DropsLine.mk hspacing before next (after ++ zs)

/-- A newline with an indentation of spaces and tabs is trimmed down to the newline. -/
lemma trimmed_joined_newline {indentation : String} (h : Text.IsSpacing indentation) :
    trimmed (joined (settle [.newline indentation])) = "\n" := by
  have hline : joined (settle [.newline indentation]) = "" ++ "\n" ++ indentation := by
    simp [settle, push, isNewline, trimEnd, render]
  rw [hline, trimmed_append_newline, h]
  rfl

/-- Settled and joined, segments without an empty line are the text without it. -/
theorem DropsLine.dropsEmptyLine (h : DropsLine xs ys) :
    Text.DropsEmptyLine (joined (settle xs)) (joined (settle ys)) := by
  obtain @⟨indentation, hspacing, before, next, after⟩ := h
  have hlast := joined_settle_append_newline [.newline indentation] next after
  rw [List.singleton_append, trimmed_joined_newline hspacing] at hlast
  obtain ⟨last, hnext⟩ : ∃ last, joined (settle (.newline next :: after)) = "\n" ++ last :=
    ⟨_, joined_settle_cons_newline next after⟩
  have htwo : "\n\n" = "\n" ++ "\n" := rfl
  have hdrops := Text.DropsEmptyLine.mk (trimmed (joined (settle before))) last
  rw [htwo] at hdrops
  rw [joined_settle_append_newline, joined_settle_append_newline, hlast, hnext]
  simpa only [String.append_assoc] using hdrops

end Segment

/-! ## Documents -/

namespace Document

variable {page : Page}

/-- Laid out anywhere, the second document lacks an empty line of the first.  What stands beside
them cannot tell them apart: both are measured alike and end in the same column. -/
structure DropsLine (page : Page) (d e : Document) : Prop where
  alike : ∀ (mode : Mode) (rest : List Pending),
    Pending.Alike (⟨mode, d⟩ :: rest) (⟨mode, e⟩ :: rest)
  lay : ∀ {indentation : String}, Text.IsSpacing indentation → ∀ {mode : Mode}
    {rest : List Pending} {column column' : Nat} {log : List LayoutEvent},
    d.lay page indentation mode rest column = ⟨log, .ok column'⟩ →
      ∃ log', e.lay page indentation mode rest column = ⟨log', .ok column'⟩ ∧
        Segment.DropsLine (LayoutEvent.segments log) (LayoutEvent.segments log')

/-- An indented newline before another newline ends an empty line. -/
theorem dropsLine_hardline (hunit : Text.IsSpacing page.unit) (after : List Document) :
    DropsLine page (.concat (.indent .hardline :: .hardline :: after))
      (.concat (.hardline :: after)) where
  alike mode rest :=
    ((Pending.alike_concat_cons mode (.indent .hardline) (.hardline :: after) rest).trans
      (Pending.alike_indent mode .hardline _)).trans
      ((Pending.alike_hardline mode _ _).trans
        (Pending.alike_concat_cons mode .hardline after rest).symm)
  lay := by
    intro indentation hspacing mode rest column column' log h
    obtain ⟨first, column₁, behind, hfirst, hbehind, rfl⟩ := Traced.bind_eq_ok.mp h
    obtain ⟨rfl, rfl⟩ := Traced.eq_of_ok hfirst
    obtain ⟨second, column₂, last, hsecond, hlast, rfl⟩ := Traced.bind_eq_ok.mp hbehind
    obtain ⟨rfl, rfl⟩ := Traced.eq_of_ok hsecond
    refine ⟨_, Traced.bind_eq_ok.mpr ⟨_, _, _, rfl, hlast, rfl⟩, ?_⟩
    exact .mk (hspacing.append hunit) [] indentation (LayoutEvent.segments last)

namespace DropsLine

variable {d e : Document} {ds es : List Document}

/-! ## Where such documents stand -/

/-- What stands behind is laid out alike. -/
lemma concat_cons (h : DropsLine page d e) (after : List Document) :
    DropsLine page (.concat (d :: after)) (.concat (e :: after)) where
  alike mode rest :=
    ((Pending.alike_concat_cons mode d after rest).trans (h.alike mode _)).trans
      (Pending.alike_concat_cons mode e after rest).symm
  lay := by
    intro indentation hspacing mode rest column column' log hlay
    obtain ⟨first, column₁, behind, hd, hafter, rfl⟩ := Traced.bind_eq_ok.mp hlay
    obtain ⟨first', he, hfirst⟩ := h.lay hspacing hd
    refine ⟨_, Traced.bind_eq_ok.mpr ⟨_, _, _, he, hafter, rfl⟩, ?_⟩
    simpa using hfirst.append_right (LayoutEvent.segments behind)

/-- What stands before is laid out alike, since it is measured with what stands behind it. -/
lemma concat_append (before : List Document) (h : DropsLine page (.concat ds) (.concat es)) :
    DropsLine page (.concat (before ++ ds)) (.concat (before ++ es)) where
  alike mode rest :=
    ((Pending.alike_concat_append mode before ds rest).trans
      ((h.alike mode rest).cons ⟨mode, .concat before⟩)).trans
      (Pending.alike_concat_append mode before es rest).symm
  lay := by
    intro indentation hspacing mode rest column column' log hlay
    have hbefore : layAll page indentation mode before (⟨mode, .concat ds⟩ :: rest) column =
        layAll page indentation mode before (⟨mode, .concat es⟩ :: rest) column :=
      layAll_congr (fun c _ _ _ => c.lay_congr page indentation mode) (h.alike mode rest) column
    rw [Document.lay, layAll_append, hbefore] at hlay
    obtain ⟨first, column₁, behind, hfirst, hds, rfl⟩ := Traced.bind_eq_ok.mp hlay
    obtain ⟨behind', hes, hbehind⟩ := h.lay hspacing hds
    refine ⟨first ++ behind', ?_, ?_⟩
    · rw [Document.lay, layAll_append]
      exact Traced.bind_eq_ok.mpr ⟨_, _, _, hfirst, hes, rfl⟩
    · simpa using hbehind.append_left (LayoutEvent.segments first)

/-- Where a concatenation lacks a line, so do the documents one after the other. -/
lemma ofList (h : DropsLine page (.concat ds) (.concat es)) :
    DropsLine page (.ofList ds) (.ofList es) where
  alike mode rest :=
    ((Pending.alike_ofList mode ds rest).trans (h.alike mode rest)).trans
      (Pending.alike_ofList mode es rest).symm
  lay := by
    intro indentation hspacing mode rest column column' log hlay
    rw [lay_ofList] at hlay
    obtain ⟨log', hes, hlog⟩ := h.lay hspacing hlay
    exact ⟨log', (lay_ofList es rest column).trans hes, hlog⟩

/-- An empty line is kept by whatever is built of the document that ends it. -/
theorem ofList_append_cons (h : DropsLine page d e) (before after : List Document) :
    DropsLine page (.ofList (before ++ d :: after)) (.ofList (before ++ e :: after)) :=
  ((h.concat_cons after).concat_append before).ofList

/-- A document that lacks a line lacks it also when indented. -/
lemma indent (hunit : Text.IsSpacing page.unit) (h : DropsLine page d e) :
    DropsLine page (.indent d) (.indent e) where
  alike mode rest :=
    ((Pending.alike_indent mode d rest).trans (h.alike mode rest)).trans
      (Pending.alike_indent mode e rest).symm
  lay := by
    intro indentation hspacing mode rest column column' log hlay
    exact h.lay (hspacing.append hunit) hlay

/-- What is laid out is no stray. -/
lemma ne_stray_of_lay {indentation : String} {mode : Mode} {rest : List Pending}
    {column column' : Nat} {log : List LayoutEvent}
    (h : d.lay page indentation mode rest column = ⟨log, .ok column'⟩) (fault : Fault) :
    d ≠ .stray fault := by
  rintro rfl
  cases h

/-- Whether they are flat is decided of both documents alike, even where there is no room. -/
lemma allFit_flat_eq (h : DropsLine page d e) (hd : ∀ fault, d ≠ .stray fault)
    (he : ∀ fault, e ≠ .stray fault) (rest : List Pending) (room : Int) :
    Pending.allFit (⟨.flat, d⟩ :: rest) room = Pending.allFit (⟨.flat, e⟩ :: rest) room := by
  by_cases hroom : 0 ≤ room
  · exact h.alike .flat rest room hroom
  · have hneg : room < 0 := by omega
    rw [Pending.allFit_cons, Pending.allFit_cons, spend_flat_of_neg hd hneg,
      spend_flat_of_neg he hneg]

/-- A document that lacks a line lacks it also in a group, which breaks as before. -/
lemma group (h : DropsLine page d e) : DropsLine page (.group d) (.group e) where
  alike mode rest :=
    ((Pending.alike_group mode d rest).trans (h.alike mode rest)).trans
      (Pending.alike_group mode e rest).symm
  lay := by
    intro indentation hspacing mode rest column column' log hlay
    cases mode with
    | flat => exact h.lay hspacing hlay
    | broken =>
      rcases lay_group_eq_ok.mp hlay with ⟨hfit, hd⟩ | ⟨hfit, behind, hd, rfl⟩
      · obtain ⟨log', he, hlog⟩ := h.lay hspacing hd
        rw [h.allFit_flat_eq (ne_stray_of_lay hd) (ne_stray_of_lay he)] at hfit
        exact ⟨log', lay_group_eq_ok.mpr (.inl ⟨hfit, he⟩), hlog⟩
      · obtain ⟨behind', he, hbehind⟩ := h.lay hspacing hd
        rw [h.allFit_flat_eq (ne_stray_of_lay hd) (ne_stray_of_lay he)] at hfit
        exact ⟨_, lay_group_eq_ok.mpr (.inr ⟨hfit, behind', he, rfl⟩), hbehind⟩

/-! ## Texts -/

/-- The text of the second document is that of the first without an empty line. -/
theorem layout (h : DropsLine page d e) {text : String} (hd : d.layout page = .ok text) :
    ∃ text', e.layout page = .ok text' ∧ Text.DropsEmptyLine text text' := by
  obtain ⟨log, column, hlay, rfl⟩ := layout_eq_ok.mp hd
  obtain ⟨log', he, hlog⟩ := h.lay Text.isSpacing_empty hlay
  exact ⟨_, layout_eq_ok.mpr ⟨log', column, he, rfl⟩, hlog.dropsEmptyLine⟩

end DropsLine

end Document

end GlimmerFormat
