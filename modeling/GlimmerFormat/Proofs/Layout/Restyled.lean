import GlimmerFormat.Proofs.Document.Restyled
import GlimmerFormat.Proofs.Layout.Decisions
import GlimmerFormat.Proofs.Layout.Pieces
import GlimmerFormat.Proofs.Traced

/-!
# Layouts in two quote styles

Documents that differ in the quotes around some literals are laid out alike.  The two quotes are
of one length, so every measure and every decision is the same, and the quotes at the ends of a
literal keep it from being trimmed.  What comes out are the same pieces, with the literals among
them between one quote or the other.

* `Document.Restyled.spend_eq`: restyled documents are measured alike.
* `Document.Restyled.lay`: restyled documents are laid out as the same pieces.
* `Document.Restyled.layout`: the layouts of restyled documents are pieces with their literals.
-/

namespace GlimmerFormat

open Markup (QuoteStyle)

/-! ## Computations in two styles -/

namespace Laying

open Traced

variable {α β : Type}

/-- Two layouts fail alike, or end alike and emit the same pieces in the two styles, with the
given literals among them. -/
def Restyled (ls : List String) (x y : Laying α) : Prop :=
  (∃ e, x.outcome = .error e ∧ y.outcome = .error e) ∨
    ∃ a ps, x.outcome = .ok a ∧ y.outcome = .ok a ∧ Piece.literals ps = ls ∧
      LayoutEvent.segments x.log = ps.map (Piece.segment .single) ∧
      LayoutEvent.segments y.log = ps.map (Piece.segment .double)

/-- A layout without literals is the same in both styles. -/
lemma restyled_self (x : Laying α) : Restyled [] x x := by
  cases h : x.outcome with
  | error e => exact .inl ⟨e, h, h⟩
  | ok a =>
    refine .inr ⟨a, (LayoutEvent.segments x.log).map .plain, h, h, ?_, ?_, ?_⟩
    · rw [Piece.literals_map_plain]
    · rw [Piece.map_segment_map_plain]
    · rw [Piece.map_segment_map_plain]

/-- One layout after another emits the pieces of the second behind those of the first. -/
lemma Restyled.bind {ls ms : List String} {x y : Laying α} {f g : α → Laying β}
    (hx : Restyled ls x y) (hf : ∀ a, Restyled ms (f a) (g a)) :
    Restyled (ls ++ ms) (x >>= f) (y >>= g) := by
  rcases hx with ⟨e, hx, hy⟩ | ⟨a, ps, hx, hy, rfl, hxs, hys⟩
  · exact .inl ⟨e, outcome_bind_of_error hx, outcome_bind_of_error hy⟩
  rcases hf a with ⟨e, hfa, hga⟩ | ⟨b, qs, hfa, hga, rfl, hfs, hgs⟩
  · exact .inl ⟨e, outcome_bind_of_ok_of_error hx hfa, outcome_bind_of_ok_of_error hy hga⟩
  refine .inr ⟨b, ps ++ qs, outcome_bind_of_ok hx hfa, outcome_bind_of_ok hy hga,
    Piece.literals_append ps qs, ?_, ?_⟩
  · rw [Traced.bind_def, hx, LayoutEvent.segments_append, hxs, hfs, List.map_append]
  · rw [Traced.bind_def, hy, LayoutEvent.segments_append, hys, hgs, List.map_append]

/-- A decision emits no literals. -/
lemma Restyled.decide {ls : List String} (x : Laying α) {f g : α → Laying β}
    (hf : ∀ a, Restyled ls (f a) (g a)) : Restyled ls (x >>= f) (x >>= g) :=
  (restyled_self x).bind hf

end Laying

/-! ## Measuring -/

namespace Document

variable {ls : List String} {d e : Document}

/-- Whether two documents take the same room in each mode. -/
def MeasuresAs (d e : Document) : Prop :=
  ∀ mode room, d.spend mode room = e.spend mode room

/-- Documents in turn take the same room if each two of them do. -/
lemma spendAll_variants {vs : List Variants} (h : ∀ v ∈ vs, v.single.MeasuresAs v.double)
    (mode : Mode) (room : Int) :
    spendAll mode (vs.map Variants.single) room = spendAll mode (vs.map Variants.double) room := by
  induction vs generalizing room with
  | nil => rfl
  | cons v vs ih =>
    have hothers := fun room => ih (fun w hw => h w (by simp [hw])) room
    rw [List.map_cons, List.map_cons, spendAll, spendAll, h v (by simp)]
    simp only [hothers]

/-- Restyled documents take the same room. -/
theorem Restyled.spend_eq (h : Restyled ls d e) : d.MeasuresAs e := by
  induction h with
  | empty | text | newline | hardline | stray => exact fun _ _ => rfl
  | literal hs =>
    intro mode room
    rw [spend, spend, QuoteStyle.length_around, QuoteStyle.length_around]
  | concat h ih | fill h ih =>
    intro mode room
    rw [spend, spend]
    simp only [spendAll_variants ih mode]
  | indent h ih | align amount h ih | group h ih =>
    intro mode room
    rw [spend, spend]
    simp only [ih mode]

end Document

namespace Pending

/-- What waits is measured alike if the next documents take the same room and so does the rest. -/
lemma allFit_measuresAs {d e : Document} (h : d.MeasuresAs e) {xs ys : List Pending}
    (hrest : Alike xs ys) (mode : Mode) (room : Int) :
    allFit (⟨mode, d⟩ :: xs) room = allFit (⟨mode, e⟩ :: ys) room := by
  rw [allFit_cons_congr hrest, allFit_cons, allFit_cons, h]

/-- Documents that take the same room fit alike in front of what fits alike. -/
lemma Alike.cons_measuresAs {xs ys : List Pending} (hrest : Alike xs ys) {d e : Document}
    (h : d.MeasuresAs e) (mode : Mode) : Alike (⟨mode, d⟩ :: xs) (⟨mode, e⟩ :: ys) :=
  fun room _ => allFit_measuresAs h hrest mode room

end Pending

/-! ## Decisions -/

namespace Page

variable {page : Page} {column : Nat}

/-- Documents that take the same room fit flat alike. -/
lemma fitsFlat_measuresAs {d e : Document} (h : d.MeasuresAs e) {xs ys : List Pending}
    (hrest : Pending.Alike xs ys) : page.fitsFlat d xs column = page.fitsFlat e ys column := by
  rw [fitsFlat, fitsFlat, Pending.allFit_measuresAs h hrest]

/-- Groups of documents that take the same room break alike. -/
lemma groupMode_measuresAs {d e : Document} (h : d.MeasuresAs e) {xs ys : List Pending}
    (hrest : Pending.Alike xs ys) : page.groupMode d xs column = page.groupMode e ys column := by
  rw [groupMode, groupMode, fitsFlat_measuresAs h hrest]

/-- Last contents that take the same room are of the same mode. -/
lemma lastMode_measuresAs {d e : Document} (h : d.MeasuresAs e) :
    page.lastMode d column = page.lastMode e column := by
  rw [lastMode, lastMode, fitsFlat_measuresAs h (.refl [])]

/-- Contents and separators that take the same room are of the same modes. -/
lemma pairModes_measuresAs {content content' separator separator' next next' : Document}
    (hcontent : content.MeasuresAs content') (hseparator : separator.MeasuresAs separator')
    (hnext : next.MeasuresAs next') :
    page.pairModes content separator next column =
      page.pairModes content' separator' next' column := by
  have hpair : (Document.concat [content, separator, next]).MeasuresAs
      (.concat [content', separator', next']) := by
    intro mode room
    simp only [Document.spend, Document.spendAll, hcontent mode, hseparator mode, hnext mode]
  rw [pairModes, pairModes, fitsFlat_measuresAs hcontent (.refl []),
    fitsFlat_measuresAs hpair (.refl [])]

end Page

/-! ## Laying out -/

namespace Document

variable {ls : List String} {d e : Document} {page : Page} {indentation : String}

/-- Wherever they stand, two documents are laid out as the same pieces. -/
def LaidAlike (page : Page) (v : Variants) : Prop :=
  ∀ (indentation : String) (mode : Mode) {rest rest' : List Pending}, Pending.Alike rest rest' →
    ∀ column, Laying.Restyled v.literals (v.single.lay page indentation mode rest column)
      (v.double.lay page indentation mode rest' column)

/-- Documents one after the other are laid out as the same pieces if each two of them are. -/
lemma restyled_layAll {vs : List Variants}
    (hvs : ∀ v ∈ vs, Restyled v.literals v.single v.double) (h : ∀ v ∈ vs, LaidAlike page v)
    (mode : Mode) {rest rest' : List Pending} (hrest : Pending.Alike rest rest') (column : Nat) :
    Laying.Restyled (vs.flatMap Variants.literals)
      (layAll page indentation mode (vs.map Variants.single) rest column)
      (layAll page indentation mode (vs.map Variants.double) rest' column) := by
  induction vs generalizing column with
  | nil => exact Laying.restyled_self _
  | cons v vs ih =>
    have hothers : ∀ w ∈ vs, Restyled w.literals w.single w.double :=
      fun w hw => hvs w (by simp [hw])
    have hbehind := hrest.cons_measuresAs (Restyled.concat hothers).spend_eq mode
    have hfirst := h v (by simp) indentation mode hbehind column
    rw [List.map_cons, List.map_cons, layAll, layAll, List.flatMap_cons]
    exact hfirst.bind fun column => ih hothers (fun w hw => h w (by simp [hw])) column

/-- Fills are laid out as the same pieces if each two of their parts are. -/
lemma restyled_layFill {vs : List Variants}
    (hvs : ∀ v ∈ vs, Restyled v.literals v.single v.double) (h : ∀ v ∈ vs, LaidAlike page v)
    (mode : Mode) {rest rest' : List Pending} (hrest : Pending.Alike rest rest') (column : Nat) :
    Laying.Restyled (vs.flatMap Variants.literals)
      (layFill page indentation mode (vs.map Variants.single) rest column)
      (layFill page indentation mode (vs.map Variants.double) rest' column) := by
  induction vs using List.twoStepInduction generalizing column with
  | nil => exact Laying.restyled_self _
  | singleton v =>
    have hmeasures := (hvs v (by simp)).spend_eq
    rw [List.map_singleton, List.map_singleton, layFill, layFill, List.flatMap_singleton,
      Page.lastMode_measuresAs hmeasures]
    refine .decide _ ?_
    intro last
    exact h v (by simp) indentation last hrest column
  | cons_cons content separator vs ih _ =>
    have hcontent := (hvs content (by simp)).spend_eq
    have hseparator := (hvs separator (by simp)).spend_eq
    cases vs with
    | nil =>
      rw [List.map_cons, List.map_singleton, List.map_cons, List.map_singleton, layFill, layFill,
        List.flatMap_cons, List.flatMap_singleton, Page.lastMode_measuresAs hcontent]
      refine .decide _ ?_
      intro last
      refine (h content (by simp) indentation last (hrest.cons_measuresAs hseparator last)
        column).bind ?_
      intro column
      exact h separator (by simp) indentation last hrest column
    | cons next vs =>
      have hothers : ∀ v ∈ next :: vs, Restyled v.literals v.single v.double :=
        fun v hv => hvs v (by simp [List.mem_cons.mp hv])
      have hnext := (hvs next (by simp)).spend_eq
      have hbehind := hrest.cons_measuresAs (Restyled.fill hothers).spend_eq mode
      simp only [List.map_cons, layFill_pair, List.flatMap_cons]
      rw [Page.pairModes_measuresAs hcontent hseparator hnext]
      refine .decide _ ?_
      intro modes
      refine (h content (by simp) indentation modes.1
        (hbehind.cons_measuresAs hseparator modes.2) column).bind ?_
      intro column
      refine (h separator (by simp) indentation modes.2 hbehind column).bind ?_
      intro column
      exact ih hothers (fun v hv => h v (by simp [List.mem_cons.mp hv])) column

/-- Restyled documents are laid out as the same pieces, with their literals among them. -/
theorem Restyled.lay (page : Page) (h : Restyled ls d e) : LaidAlike page ⟨ls, d, e⟩ := by
  induction h with
  | empty | text | newline | hardline | stray =>
    intro indentation mode rest rest' hrest column
    exact Laying.restyled_self _
  | @literal s hs =>
    intro indentation mode rest rest' hrest column
    refine .inr ⟨column + (s.length + 2), [.literal s], ?_, ?_, rfl, rfl, rfl⟩
    · rw [← QuoteStyle.length_around .single]
      rfl
    · rw [← QuoteStyle.length_around .double]
      rfl
  | concat hvs ih =>
    intro indentation mode rest rest' hrest column
    exact restyled_layAll hvs ih mode hrest column
  | fill hvs ih =>
    intro indentation mode rest rest' hrest column
    exact restyled_layFill hvs ih mode hrest column
  | indent h ih | align amount h ih =>
    intro indentation mode rest rest' hrest column
    exact ih _ mode hrest column
  | group h ih =>
    intro indentation mode rest rest' hrest column
    cases mode with
    | flat => exact ih indentation .flat hrest column
    | broken =>
      simp only [Document.lay, Page.groupMode_measuresAs h.spend_eq hrest]
      refine .decide _ ?_
      intro mode
      exact ih indentation mode hrest column

end Document

/-! ## Layouts -/

/-- Restyled documents fail to be laid out alike, or both layouts are made of the same pieces,
with the literals of the documents among them. -/
theorem Document.Restyled.layout {ls : List String} {d e : Document} (h : Restyled ls d e)
    (page : Page) :
    (∃ fault, d.layout page = .error fault ∧ e.layout page = .error fault) ∨
      ∃ ps, Piece.literals ps = ls ∧ d.layout page = .ok (Piece.text .single ps) ∧
        e.layout page = .ok (Piece.text .double ps) := by
  rcases h.lay page "" .broken (.refl []) 0 with
    ⟨fault, hd, he⟩ | ⟨column, ps, hd, he, rfl, hds, hes⟩
  · refine .inl ⟨fault, ?_, ?_⟩
    · rw [Document.layout, layOut, Laying.text, Laying.segments, hd]
      rfl
    · rw [Document.layout, layOut, Laying.text, Laying.segments, he]
      rfl
  · obtain ⟨qs, hliterals, hqs⟩ := Piece.exists_settle ps
    refine .inr ⟨qs, hliterals, ?_, ?_⟩
    · rw [Document.layout, layOut, Laying.text, Laying.segments, hd, hds, hqs]
      rfl
    · rw [Document.layout, layOut, Laying.text, Laying.segments, he, hes, hqs]
      rfl

end GlimmerFormat
