import GlimmerFormat.Proofs.Document.Strays
import GlimmerFormat.Proofs.Layout.Measuring
import GlimmerFormat.Proofs.Traced
import Mathlib.Data.List.Induction

/-!
# Faults of a layout

Laying out and measuring can meet only one thing that stops them: something that is no document.
Measuring looks ahead, so how early a stray is met depends on the page, but it never looks past one.
Of a steady document it is therefore always the first stray that stops a layout.

The strays of what is laid out and of what waits behind it are told apart: a step that succeeds
shows that nothing was a stray in what it laid out, and a step that fails has met the first of all.

* `Document.meets_lay`: this holds of laying out, and `Pending.head?_strays_of_allFit` of measuring.
* `Document.layout_eq_error_iff`: a steady document fails to be laid out exactly with its first
  stray.
-/

namespace GlimmerFormat

/-! ## Measuring -/

/-- What a measure shows of the strays in what was measured: if room is left there are none, and a
stray that was met is the first. -/
def Measure.Meets (own : List Fault) : Measure → Prop
  | .leaves _ => own = []
  | .stray fault => own.head? = some fault
  | .fits | .overflows => True

namespace Measure

variable {xs ys : List Fault}

/-- Spending room meets nothing. -/
lemma meets_ofRoom (room : Int) : (ofRoom room).Meets [] := by
  unfold ofRoom
  split <;> trivial

/-- One measure behind another. -/
lemma Meets.andThen {x : Measure} {f : Int → Measure} (hx : x.Meets xs)
    (hf : ∀ room, (f room).Meets ys) : (x.andThen f).Meets (xs ++ ys) := by
  cases x with
  | leaves room =>
    obtain rfl : xs = [] := hx
    exact hf room
  | fits | overflows => trivial
  | stray fault =>
    have hfirst : xs.head? = some fault := hx
    simp [Measure.andThen, Meets, hfirst]

end Measure

namespace Document

/-- Documents measured in turn meet their strays in turn. -/
lemma meets_spendAll {mode : Mode} {ds : List Document}
    (h : ∀ d ∈ ds, ∀ room, (d.spend mode room).Meets d.strays) (room : Int) :
    (spendAll mode ds room).Meets (straysAll ds) := by
  induction ds generalizing room with
  | nil => rfl
  | cons d ds ih =>
    exact (h d (by simp) room).andThen fun r => ih (fun e he => h e (by simp [he])) r

/-- Measuring a steady document meets its strays in turn. -/
lemma meets_spend {d : Document} (hd : d.IsSteady) (mode : Mode) (room : Int) :
    (d.spend mode room).Meets d.strays := by
  induction d using inductionOn generalizing room with
  | empty | text => exact Measure.meets_ofRoom _
  | newline | hardline => cases mode <;> first | exact Measure.meets_ofRoom _ | trivial
  | stray => rfl
  | concat docs ih | fill docs ih =>
    have hsteady := everywhereAll_iff.mp hd.2
    exact (Measure.meets_ofRoom room).andThen
      (meets_spendAll fun d hmem => ih d hmem (hsteady d hmem))
  | indent d ih | align amount d ih | group d ih =>
    exact (Measure.meets_ofRoom room).andThen (ih hd.2)
  | ifBreak => exact hd.1.elim

end Document

namespace Pending

/-- The strays in waiting documents, in order. -/
def strays (ps : List Pending) : List Fault :=
  ps.flatMap fun p => p.document.strays

/-- Waiting documents that are steady. -/
def AllSteady (ps : List Pending) : Prop :=
  ∀ p ∈ ps, p.document.IsSteady

/-- A document in front of others puts its strays in front. -/
@[simp] lemma strays_cons (p : Pending) (ps : List Pending) :
    strays (p :: ps) = p.document.strays ++ strays ps :=
  List.flatMap_cons

/-- A steady document in front of others that are steady. -/
lemma AllSteady.cons {p : Pending} {ps : List Pending} (hp : p.document.IsSteady)
    (hps : AllSteady ps) : AllSteady (p :: ps) :=
  List.forall_mem_cons.mpr ⟨hp, hps⟩

/-- Measuring steady documents fails only with the first of their strays. -/
lemma head?_strays_of_allFit {ps : List Pending} (h : AllSteady ps) {room : Int} {e : Fault}
    (he : allFit ps room = .error e) : (strays ps).head? = some e := by
  induction ps generalizing room with
  | nil => cases he
  | cons p ps ih =>
    obtain ⟨hp, hps⟩ := List.forall_mem_cons.mp h
    have hmeets := Document.meets_spend hp p.mode room
    rw [allFit_cons] at he
    cases hm : p.document.spend p.mode room with
    | leaves r =>
      rw [hm] at he hmeets
      have hnone : p.document.strays = [] := hmeets
      rw [strays_cons, hnone, List.nil_append]
      exact ih hps he
    | fits | overflows => simp [hm, Measure.answer] at he
    | stray fault =>
      rw [hm] at he hmeets
      obtain rfl : fault = e := by simpa [Measure.answer] using he
      have hfirst : p.document.strays.head? = some fault := hmeets
      simp [hfirst]

end Pending

/-! ## Decisions -/

/-- What a part of a layout shows of the strays in what it lays out and in what waits behind it: if
it succeeds there are none in what it lays out, and if it fails it is with the first of all. -/
def Laying.Meets {α : Type} (own behind : List Fault) (x : Laying α) : Prop :=
  x.Ends (fun _ => True) (fun e => (own ++ behind).head? = some e) fun _ => own = []

namespace Laying

variable {α β : Type} {own next behind : List Fault}

/-- What succeeds without looking ahead meets nothing. -/
lemma meets_of_ok {x : Laying α} {a : α} (h : x.outcome = .ok a) : x.Meets [] behind where
  log _ _ := trivial
  error _ he := nomatch h.symm.trans he
  ok _ _ := rfl

/-- What is laid out first has the next to be laid out behind it. -/
lemma Meets.bind {x : Laying α} {f : α → Laying β} (hx : x.Meets own (next ++ behind))
    (hf : ∀ a, (f a).Meets next behind) : (x >>= f).Meets (own ++ next) behind := by
  have hfirst : x.Ends (fun _ => True) (fun e => (own ++ next ++ behind).head? = some e)
      fun _ => own = [] := by
    rw [List.append_assoc]
    exact hx
  refine Traced.Ends.bind hfirst ?_
  rintro a rfl
  exact hf a

/-- What decides before anything is laid out has it all behind it. -/
lemma Meets.decides {x : Laying α} {f : α → Laying β} (hx : x.Meets [] (own ++ behind))
    (hf : ∀ a, (f a).Meets own behind) : (x >>= f).Meets own behind :=
  hx.bind hf

/-- What decides something from a decision lays nothing out either. -/
lemma Meets.concludes {x : Laying α} {f : α → Laying β} (hx : x.Meets [] behind)
    (hf : ∀ a, (f a).Meets [] behind) : (x >>= f).Meets [] behind :=
  hx.bind hf

end Laying

namespace Page

open Laying (meets_of_ok)

variable {page : Page} {column : Nat} {behind : List Fault}

/-- Whether a steady document fits is told if no stray is met. -/
lemma meets_fitsFlat {d : Document} {rest : List Pending} (hd : d.IsSteady)
    (hrest : Pending.AllSteady rest) :
    (page.fitsFlat d rest column).Meets [] (d.strays ++ Pending.strays rest) where
  log _ _ := trivial
  error _ he := Pending.head?_strays_of_allFit (.cons hd hrest) he
  ok _ _ := rfl

/-- The same where what follows is not measured. -/
lemma meets_fitsFlat_alone {d : Document} (hd : d.IsSteady) :
    (page.fitsFlat d [] column).Meets [] (d.strays ++ behind) := by
  have hfits : (page.fitsFlat d [] column).Meets [] (d.strays ++ []) :=
    meets_fitsFlat hd (List.forall_mem_nil _)
  refine Traced.Ends.mono hfits (fun _ h => h) (fun e he => ?_) fun _ h => h
  rw [List.nil_append, List.append_nil] at he
  simp [he]

/-- The mode of a steady group is told if no stray is met. -/
lemma meets_groupMode {d : Document} {rest : List Pending} (hd : d.IsSteady)
    (hrest : Pending.AllSteady rest) :
    (page.groupMode d rest column).Meets [] (d.strays ++ Pending.strays rest) := by
  refine (meets_fitsFlat hd hrest).concludes fun fits => ?_
  cases fits with
  | true => exact meets_of_ok (a := Mode.flat) rfl
  | false => exact meets_of_ok (a := Mode.broken) rfl

/-- The mode of a steady content is told if no stray is met. -/
lemma meets_lastMode {content : Document} (hcontent : content.IsSteady) :
    (page.lastMode content column).Meets [] (content.strays ++ behind) := by
  refine (meets_fitsFlat_alone hcontent).concludes fun fits => ?_
  cases fits with
  | true => exact meets_of_ok (a := Mode.flat) rfl
  | false => exact meets_of_ok (a := Mode.broken) rfl

/-- The modes of a steady content and its separator are told if no stray is met. -/
lemma meets_pairModes {content separator next : Document} (hcontent : content.IsSteady)
    (hseparator : separator.IsSteady) (hnext : next.IsSteady) :
    (page.pairModes content separator next column).Meets []
      (content.strays ++ (separator.strays ++ (next.strays ++ behind))) := by
  refine (meets_fitsFlat_alone hcontent).concludes fun contentFits => ?_
  have hpair : (Document.concat [content, separator, next]).IsSteady :=
    ⟨trivial, hcontent, hseparator, hnext, trivial⟩
  have hfits : (page.fitsFlat (.concat [content, separator, next]) [] column).Meets []
      ((Document.concat [content, separator, next]).strays ++ behind) := meets_fitsFlat_alone hpair
  have hown : (Document.concat [content, separator, next]).strays ++ behind =
      content.strays ++ (separator.strays ++ (next.strays ++ behind)) := by
    simp [Document.strays, Document.straysAll]
  rw [hown] at hfits
  refine hfits.concludes fun pairFits => ?_
  cases pairFits with
  | true => exact meets_of_ok (a := (Mode.flat, Mode.flat)) rfl
  | false =>
    cases contentFits with
    | true => exact meets_of_ok (a := (Mode.flat, Mode.broken)) rfl
    | false => exact meets_of_ok (a := (Mode.broken, Mode.broken)) rfl

end Page

/-! ## Laying out -/

namespace Document

open Laying (meets_of_ok)

variable {page : Page} {indentation : String}

/-- Steady documents one after the other meet their strays in turn if each of them does. -/
lemma meets_layAll {mode : Mode} {ds : List Document} (hds : ∀ d ∈ ds, d.IsSteady)
    (h : ∀ d ∈ ds, ∀ {rest : List Pending}, Pending.AllSteady rest → ∀ column : Nat,
      (d.lay page indentation mode rest column).Meets d.strays (Pending.strays rest))
    {rest : List Pending} (hrest : Pending.AllSteady rest) (column : Nat) :
    (layAll page indentation mode ds rest column).Meets (straysAll ds) (Pending.strays rest) := by
  induction ds generalizing column with
  | nil => exact meets_of_ok (a := column) rfl
  | cons d ds ih =>
    have hothers : ∀ e ∈ ds, e.IsSteady := fun e he => hds e (by simp [he])
    have hbehind : Pending.AllSteady (⟨mode, .concat ds⟩ :: rest) :=
      .cons ⟨trivial, everywhereAll_iff.mpr hothers⟩ hrest
    refine Laying.Meets.bind ?_ fun column =>
      ih hothers (fun e he => h e (by simp [he])) column
    simpa [strays] using h d (by simp) hbehind column

/-- The parts of a steady fill meet their strays in turn if each of them does in each mode. -/
lemma meets_layFill {mode : Mode} {parts : List Document} (hparts : ∀ d ∈ parts, d.IsSteady)
    (h : ∀ d ∈ parts, ∀ (mode : Mode) {rest : List Pending}, Pending.AllSteady rest →
      ∀ column : Nat,
        (d.lay page indentation mode rest column).Meets d.strays (Pending.strays rest))
    {rest : List Pending} (hrest : Pending.AllSteady rest) (column : Nat) :
    (layFill page indentation mode parts rest column).Meets (straysAll parts)
      (Pending.strays rest) := by
  induction parts using List.twoStepInduction generalizing column with
  | nil => exact meets_of_ok (a := column) rfl
  | singleton content =>
    have hcontent := hparts content (by simp)
    rw [straysAll, straysAll, List.append_nil]
    exact (Page.meets_lastMode hcontent).decides fun last => h content (by simp) last hrest column
  | cons_cons content separator parts ih _ =>
    have hcontent := hparts content (by simp)
    have hseparator := hparts separator (by simp)
    cases parts with
    | nil =>
      have hown : straysAll [content, separator] = content.strays ++ separator.strays := by
        simp [straysAll]
      rw [hown, layFill]
      refine Laying.Meets.decides ?_ fun last => ?_
      · rw [List.append_assoc]
        exact Page.meets_lastMode hcontent
      refine Laying.Meets.bind ?_ fun column => h separator (by simp) last hrest column
      have hbehind : Pending.AllSteady (⟨last, separator⟩ :: rest) := .cons hseparator hrest
      simpa using h content (by simp) last hbehind column
    | cons next parts =>
      have hothers : ∀ d ∈ next :: parts, d.IsSteady := fun d hd => hparts d (by simp [hd])
      have hfill : Pending.AllSteady (⟨mode, .fill (next :: parts)⟩ :: rest) :=
        .cons ⟨trivial, everywhereAll_iff.mpr hothers⟩ hrest
      -- Deciding on the pair looks ahead, but at no stray behind its first one.
      have hown : straysAll (content :: separator :: next :: parts) =
          content.strays ++ (separator.strays ++ straysAll (next :: parts)) := rfl
      rw [hown, layFill_pair]
      refine Laying.Meets.decides ?_ fun modes => ?_
      · simp only [straysAll, List.append_assoc]
        exact Page.meets_pairModes hcontent hseparator (hothers next (by simp))
      refine Laying.Meets.bind ?_ fun column => Laying.Meets.bind ?_ fun column =>
        ih (fun d hd => hparts d (by simp [hd])) (fun d hd => h d (by simp [hd])) column
      · have hbehind : Pending.AllSteady
            (⟨modes.2, separator⟩ :: ⟨mode, .fill (next :: parts)⟩ :: rest) :=
          .cons hseparator hfill
        simpa [strays] using h content (by simp) modes.1 hbehind column
      · simpa [strays] using h separator (by simp) modes.2 hfill column

/-- Laying out a steady document before others meets its strays in turn. -/
theorem meets_lay {d : Document} (hd : d.IsSteady) (mode : Mode) {rest : List Pending}
    (hrest : Pending.AllSteady rest) (column : Nat) :
    (d.lay page indentation mode rest column).Meets d.strays (Pending.strays rest) := by
  induction d using inductionOn generalizing indentation mode rest column with
  | empty => exact meets_of_ok (a := column) rfl
  | text s => exact meets_of_ok (a := column + s.length) rfl
  | newline flat =>
    cases mode with
    | flat => exact meets_of_ok (a := column + flat.length) rfl
    | broken => exact meets_of_ok (a := Text.columns page.tabWidth indentation) rfl
  | hardline => exact meets_of_ok (a := Text.columns page.tabWidth indentation) rfl
  | stray => exact Traced.ends_fail rfl
  | concat docs ih =>
    have hdocs := everywhereAll_iff.mp hd.2
    exact meets_layAll hdocs (fun d hmem _ => ih d hmem (hdocs d hmem) mode) hrest column
  | fill parts ih =>
    have hparts := everywhereAll_iff.mp hd.2
    exact meets_layFill hparts (fun d hmem mode _ => ih d hmem (hparts d hmem) mode) hrest column
  | indent d ih | align amount d ih => exact ih hd.2 mode hrest column
  | group d ih =>
    cases mode with
    | flat => exact ih hd.2 .flat hrest column
    | broken =>
      exact (Page.meets_groupMode hd.2 hrest).decides fun mode => ih hd.2 mode hrest column
  | ifBreak => exact hd.1.elim

/-- A steady document is laid out on a page exactly if it has no strays; otherwise the layout fails
with the first of them. -/
theorem layout_eq_error_iff (page : Page) {d : Document} (hd : d.IsSteady) {e : Fault} :
    d.layout page = .error e ↔ d.strays.head? = some e := by
  have hmeets : (d.layOut page).Meets d.strays [] :=
    meets_lay hd .broken (List.forall_mem_nil _) 0
  rw [layout, Laying.text, Laying.segments]
  cases h : (d.layOut page).outcome with
  | ok column =>
    have hnone : d.strays = [] := hmeets.ok column h
    simp [hnone, Except.map]
  | error f =>
    have hfirst : d.strays.head? = some f := by simpa using hmeets.error f h
    simp [hfirst, Except.map]

end Document

end GlimmerFormat
