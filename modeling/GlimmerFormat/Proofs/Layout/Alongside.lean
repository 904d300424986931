import GlimmerFormat.Proofs.Layout.Sequence
import GlimmerFormat.Proofs.Traced
import Mathlib.Data.List.Forall2

/-!
# Layouts side by side

Two documents, each at an indentation and on a page of its own, are laid out side by side if they
are measured alike and their layouts come to the same column and leave related records.  Pages of
one width decide alike, so whatever is made of such documents is laid out side by side as well, as
long as the relation between records is kept when they are put together.

* `LayoutEvent.IsParallel`: relations between records that are kept so.
* `Document.Alongside`: documents that are laid out side by side.
* `Document.Alongside.concat`, `Document.Alongside.fill`, `Document.Alongside.group` and so on: what
  is made of such documents.
-/

namespace GlimmerFormat

/-- A relation between the records of two layouts that holds of the same texts, flat breaks and
broken groups, and of records put together. -/
structure LayoutEvent.IsParallel (R : List LayoutEvent → List LayoutEvent → Prop) : Prop where
  nil : R [] []
  append : ∀ {xs ys xs' ys' : List LayoutEvent}, R xs ys → R xs' ys' → R (xs ++ xs') (ys ++ ys')
  broke : ∀ column, R [.broke column] [.broke column]
  text : ∀ s, R [.emitted (.text s)] [.emitted (.text s)]
  flatBreak : ∀ s, R [.emitted (.flatBreak s)] [.emitted (.flatBreak s)]

namespace Page

variable {P Q : Page} {d e : Document} {rest rest' : List Pending}
  {R : List LayoutEvent → List LayoutEvent → Prop}

/-! ## Decisions -/

/-- Proper documents that are measured alike fit alike, also where there is no room at all. -/
lemma fitsFlat_eq (hwidth : P.width = Q.width) (hd : d.IsProper) (he : e.IsProper)
    (h : Pending.Alike (⟨.flat, d⟩ :: rest) (⟨.flat, e⟩ :: rest')) (column : Nat) :
    P.fitsFlat d rest column = Q.fitsFlat e rest' column := by
  rw [fitsFlat, fitsFlat, hwidth]
  by_cases hroom : 0 ≤ Q.width - column
  · rw [h _ hroom]
  · have hneg : Q.width - column < 0 := by omega
    rw [Pending.allFit_cons, Pending.allFit_cons, Document.spend_flat_of_neg hd.ne_stray hneg,
      Document.spend_flat_of_neg he.ne_stray hneg]
    rfl

/-- The decision on a group is on record if the group breaks. -/
lemma groupMode_self (hR : LayoutEvent.IsParallel R) (column : Nat) :
    (P.groupMode d rest column).Related R (P.groupMode d rest column) := by
  cases h : Pending.allFit (⟨.flat, d⟩ :: rest) (P.width - column) with
  | error e => exact ⟨rfl, by simpa [groupMode, fitsFlat, h, Traced.ofExcept] using hR.nil⟩
  | ok b =>
    cases b with
    | true => exact ⟨rfl, by simpa [groupMode, fitsFlat, h, Traced.ofExcept] using hR.nil⟩
    | false =>
      refine ⟨rfl, ?_⟩
      simpa [groupMode, fitsFlat, h, Traced.ofExcept, Traced.note] using hR.broke column

/-- Deciding on the last content of a fill leaves no record. -/
lemma log_lastMode (content : Document) (column : Nat) :
    (P.lastMode content column).log = [] := by
  cases h : Pending.allFit [⟨.flat, content⟩] (P.width - column) with
  | error e => simp [lastMode, fitsFlat, h, Traced.ofExcept]
  | ok b => cases b <;> simp [lastMode, fitsFlat, h, Traced.ofExcept]

/-- Deciding on a content and its separator leaves no record. -/
lemma log_pairModes (content separator next : Document) (column : Nat) :
    (P.pairModes content separator next column).log = [] := by
  cases h : Pending.allFit [⟨.flat, content⟩] (P.width - column) with
  | error e => simp [pairModes, fitsFlat, h, Traced.ofExcept]
  | ok contentFits =>
    cases h' : Pending.allFit [⟨.flat, .concat [content, separator, next]⟩]
        (P.width - column) with
    | error e => simp [pairModes, fitsFlat, h, h', Traced.ofExcept]
    | ok pairFits =>
      cases pairFits <;> cases contentFits <;>
        simp [pairModes, fitsFlat, h, h', Traced.ofExcept]

end Page

namespace Document

/-- Two documents, each at an indentation and on a page of its own, are measured alike, and before
whatever follows them they are laid out to the same column and leave related records. -/
structure Alongside (R : List LayoutEvent → List LayoutEvent → Prop) (P Q : Page) (i j : String)
    (d e : Document) : Prop where
  left : d.IsProper
  right : e.IsProper
  measured : ∀ mode rest, Pending.Alike (⟨mode, d⟩ :: rest) (⟨mode, e⟩ :: rest)
  laid : ∀ mode {rest : List Pending}, Pending.AllProper rest → ∀ column,
    (d.lay P i mode rest column).Related R (e.lay Q j mode rest column)

namespace Alongside

variable {R : List LayoutEvent → List LayoutEvent → Prop} {P Q : Page} {i j : String}
  {d e : Document} {ds es : List Document}

/-- Two documents are measured alike before what is measured alike. -/
lemma alike (h : Alongside R P Q i j d e) (mode : Mode) {rest rest' : List Pending}
    (hrest : Pending.Alike rest rest') :
    Pending.Alike (⟨mode, d⟩ :: rest) (⟨mode, e⟩ :: rest') :=
  (h.measured mode rest).trans (hrest.cons _)

/-- Two documents are laid out side by side before what is measured alike. -/
lemma related (h : Alongside R P Q i j d e) (mode : Mode) {rest rest' : List Pending}
    (hproper : Pending.AllProper rest) (hrest : Pending.Alike rest rest') (column : Nat) :
    (d.lay P i mode rest column).Related R (e.lay Q j mode rest' column) := by
  rw [← e.lay_congr Q j mode hrest]
  exact h.laid mode hproper column

/-- Two documents are laid out side by side as whole documents. -/
lemma layOut (h : Alongside R P Q "" "" d e) : (d.layOut P).Related R (e.layOut Q) :=
  h.laid .broken (List.forall_mem_nil _) 0

/-- Documents in a list are measured like those they are laid out beside. -/
lemma alike_map (h : List.Forall₂ (Alongside R P Q i j) ds es) (mode : Mode)
    {rest rest' : List Pending} (hrest : Pending.Alike rest rest') :
    Pending.Alike (ds.map (Pending.mk mode) ++ rest) (es.map (Pending.mk mode) ++ rest') := by
  induction h with
  | nil => exact hrest
  | cons hd _ ih => exact hd.alike mode ih

/-- Concatenations that are laid out alongside each other fit alike. -/
lemma alike_concat (h : List.Forall₂ (Alongside R P Q i j) ds es) (mode : Mode)
    {rest rest' : List Pending} (hrest : Pending.Alike rest rest') :
    Pending.Alike (⟨mode, .concat ds⟩ :: rest) (⟨mode, .concat es⟩ :: rest') :=
  ((Pending.alike_concat mode ds rest).trans (alike_map h mode hrest)).trans
    (Pending.alike_concat mode es rest').symm

/-- Fills that are laid out alongside each other fit alike. -/
lemma alike_fill (h : List.Forall₂ (Alongside R P Q i j) ds es) (mode : Mode)
    {rest rest' : List Pending} (hrest : Pending.Alike rest rest') :
    Pending.Alike (⟨mode, .fill ds⟩ :: rest) (⟨mode, .fill es⟩ :: rest') :=
  ((Pending.alike_fill mode ds rest).trans (alike_map h mode hrest)).trans
    (Pending.alike_fill mode es rest').symm

/-- Documents with others alongside hold no strays. -/
lemma forall_left (h : List.Forall₂ (Alongside R P Q i j) ds es) : EverywhereAll NotStray ds := by
  induction h with
  | nil => exact trivial
  | cons hd _ ih => exact ⟨hd.left, ih⟩

/-- Documents alongside others hold no strays. -/
lemma forall_right (h : List.Forall₂ (Alongside R P Q i j) ds es) : EverywhereAll NotStray es := by
  induction h with
  | nil => exact trivial
  | cons hd _ ih => exact ⟨hd.right, ih⟩

/-! ## What is made of documents laid out side by side -/

/-- What is alongside one unit further in is alongside when indented. -/
lemma indent (h : Alongside R P Q (i ++ P.unit) (j ++ Q.unit) d e) :
    Alongside R P Q i j (.indent d) (.indent e) where
  left := ⟨trivial, h.left⟩
  right := ⟨trivial, h.right⟩
  measured mode rest := ((Pending.alike_indent mode d rest).trans (h.measured mode rest)).trans
    (Pending.alike_indent mode e rest).symm
  laid := h.laid

/-- What is alongside some spaces further in is alongside when aligned. -/
lemma align (amount : Int) (h : Alongside R P Q (i ++ spaces amount) (j ++ spaces amount) d e) :
    Alongside R P Q i j (.align amount d) (.align amount e) where
  left := ⟨trivial, h.left⟩
  right := ⟨trivial, h.right⟩
  measured mode rest :=
    ((Pending.alike_align mode amount d rest).trans (h.measured mode rest)).trans
      (Pending.alike_align mode amount e rest).symm
  laid := h.laid

variable (hR : LayoutEvent.IsParallel R)

include hR

/-- Nothing is alongside nothing. -/
lemma empty : Alongside R P Q i j .empty .empty :=
  ⟨trivial, trivial, fun _ _ => .refl _, fun _ _ _ _ => ⟨rfl, hR.nil⟩⟩

/-- A text is alongside itself. -/
lemma text (s : String) : Alongside R P Q i j (.text s) (.text s) :=
  ⟨trivial, trivial, fun _ _ => .refl _, fun _ _ _ _ => ⟨rfl, hR.text s⟩⟩

/-- Breaks are laid out side by side if newlines are, at the indentations of the two pages. -/
lemma newline (hnewline : (P.emitNewline i).Related R (Q.emitNewline j)) (flat : String) :
    Alongside R P Q i j (.newline flat) (.newline flat) := by
  refine ⟨trivial, trivial, fun _ _ => .refl _, ?_⟩
  intro mode rest _ column
  cases mode with
  | flat => exact ⟨rfl, hR.flatBreak flat⟩
  | broken => exact hnewline

omit hR in
/-- Newlines are alongside each other if emitting them is related. -/
lemma hardline (hnewline : (P.emitNewline i).Related R (Q.emitNewline j)) :
    Alongside R P Q i j .hardline .hardline :=
  ⟨trivial, trivial, fun _ _ => .refl _, fun _ _ _ _ => hnewline⟩

/-- Documents alongside each other have related layouts one after the other. -/
lemma layAll_related (h : List.Forall₂ (Alongside R P Q i j) ds es) (mode : Mode)
    {rest rest' : List Pending} (hproper : Pending.AllProper rest)
    (hrest : Pending.Alike rest rest') (column : Nat) :
    (layAll P i mode ds rest column).Related R (layAll Q j mode es rest' column) := by
  induction h generalizing column with
  | nil => exact ⟨rfl, hR.nil⟩
  | @cons d e ds es hd hds ih =>
    have hbehind : Pending.AllProper (⟨mode, .concat ds⟩ :: rest) := by
      simpa [Pending.AllProper] using ⟨⟨trivial, forall_left hds⟩, hproper⟩
    exact (hd.related mode hbehind (alike_concat hds mode hrest) column).bind hR.append ih

/-- Documents one after the other are laid out side by side if each of them is. -/
lemma concat (h : List.Forall₂ (Alongside R P Q i j) ds es) :
    Alongside R P Q i j (.concat ds) (.concat es) where
  left := ⟨trivial, forall_left h⟩
  right := ⟨trivial, forall_right h⟩
  measured mode rest := alike_concat h mode (.refl rest)
  laid mode _ hproper column := layAll_related hR h mode hproper (.refl _) column

variable (hwidth : P.width = Q.width)

include hwidth

/-- A group is flat on the one page if it is on the other. -/
lemma group (h : Alongside R P Q i j d e) : Alongside R P Q i j (.group d) (.group e) where
  left := ⟨trivial, h.left⟩
  right := ⟨trivial, h.right⟩
  measured mode rest := ((Pending.alike_group mode d rest).trans (h.measured mode rest)).trans
    (Pending.alike_group mode e rest).symm
  laid mode rest hproper column := by
    cases mode with
    | flat => exact h.laid .flat hproper column
    | broken =>
      have hmode : P.groupMode d rest column = Q.groupMode e rest column := by
        rw [Page.groupMode, Page.groupMode,
          Page.fitsFlat_eq hwidth h.left h.right (h.measured .flat rest) column]
      rw [lay, lay, ← hmode]
      exact (Page.groupMode_self hR column).bind hR.append fun mode => h.laid mode hproper column

/-- Fills of documents alongside each other have related layouts. -/
lemma layFill_related (h : List.Forall₂ (Alongside R P Q i j) ds es) (mode : Mode)
    {rest : List Pending} (hproper : Pending.AllProper rest) (column : Nat) :
    (layFill P i mode ds rest column).Related R (layFill Q j mode es rest column) := by
  -- A last content is measured by itself, whatever waits behind the fill.
  have hlast : ∀ {d e : Document}, Alongside R P Q i j d e → ∀ column,
      (P.lastMode d column).Related R (Q.lastMode e column) := by
    intro d e h column
    have hmode : P.lastMode d column = Q.lastMode e column := by
      rw [Page.lastMode, Page.lastMode,
        Page.fitsFlat_eq hwidth h.left h.right (h.measured .flat []) column]
    rw [← hmode]
    exact ⟨rfl, by simpa [Page.log_lastMode] using hR.nil⟩
  induction ds using List.twoStepInduction generalizing es column with
  | nil =>
    obtain rfl := List.forall₂_nil_left_iff.mp h
    exact ⟨rfl, hR.nil⟩
  | singleton content =>
    obtain ⟨content', _, hcontent, hnone, rfl⟩ := List.forall₂_cons_left_iff.mp h
    obtain rfl := List.forall₂_nil_left_iff.mp hnone
    exact (hlast hcontent column).bind hR.append fun last => hcontent.laid last hproper column
  | cons_cons content separator parts ih _ =>
    obtain ⟨content', _, hcontent, hbehind, rfl⟩ := List.forall₂_cons_left_iff.mp h
    obtain ⟨separator', parts', hseparator, hparts, rfl⟩ := List.forall₂_cons_left_iff.mp hbehind
    cases hparts with
    | nil =>
      refine (hlast hcontent column).bind hR.append fun last => ?_
      have hwaits : Pending.AllProper (⟨last, separator⟩ :: rest) := by
        simpa [Pending.AllProper] using ⟨hseparator.left, hproper⟩
      exact (hcontent.related last hwaits (hseparator.measured last rest) column).bind hR.append
        fun column => hseparator.laid last hproper column
    | @cons next next' others others' hnext hothers =>
      have hall : List.Forall₂ (Alongside R P Q i j) (next :: others) (next' :: others') :=
        .cons hnext hothers
      -- So is a content with its separator and the next one: both pages decide alike.
      have hmodes : P.pairModes content separator next column =
          Q.pairModes content' separator' next' column := by
        have htriple : List.Forall₂ (Alongside R P Q i j) [content, separator, next]
            [content', separator', next'] := .cons hcontent (.cons hseparator (.cons hnext .nil))
        have htogether := concat hR htriple
        rw [Page.pairModes, Page.pairModes,
          Page.fitsFlat_eq hwidth hcontent.left hcontent.right (hcontent.measured .flat []) column,
          Page.fitsFlat_eq hwidth htogether.left htogether.right (htogether.measured .flat [])
            column]
      have hfill : Pending.AllProper (⟨mode, .fill (next :: others)⟩ :: rest) := by
        simpa [Pending.AllProper] using ⟨⟨trivial, forall_left hall⟩, hproper⟩
      have halike := alike_fill hall mode (.refl rest)
      rw [layFill_pair, layFill_pair, ← hmodes]
      refine Traced.Related.bind hR.append
        ⟨rfl, by simpa [Page.log_pairModes] using hR.nil⟩ fun modes => ?_
      have hwaits : Pending.AllProper
          (⟨modes.2, separator⟩ :: ⟨mode, .fill (next :: others)⟩ :: rest) := by
        simpa [Pending.AllProper] using ⟨hseparator.left, ⟨trivial, forall_left hall⟩, hproper⟩
      refine (hcontent.related modes.1 hwaits (hseparator.alike modes.2 halike) column).bind
        hR.append fun column => ?_
      refine (hseparator.related modes.2 hfill halike column).bind hR.append fun column => ?_
      exact ih hall column

/-- A fill makes the same choices on both pages. -/
lemma fill (h : List.Forall₂ (Alongside R P Q i j) ds es) :
    Alongside R P Q i j (.fill ds) (.fill es) where
  left := ⟨trivial, forall_left h⟩
  right := ⟨trivial, forall_right h⟩
  measured mode rest := alike_fill h mode (.refl rest)
  laid mode _ hproper column := layFill_related hR hwidth h mode hproper column

omit hR hwidth in
/-- Choices between documents alongside each other are alongside each other. -/
lemma ifBreak {broken flat broken' flat' : Document} (hbroken : Alongside R P Q i j broken broken')
    (hflat : Alongside R P Q i j flat flat') :
    Alongside R P Q i j (.ifBreak broken flat) (.ifBreak broken' flat') where
  left := ⟨trivial, hbroken.left, hflat.left⟩
  right := ⟨trivial, hbroken.right, hflat.right⟩
  measured mode rest := by
    have hchoice : ∀ (broken flat : Document), Pending.Alike (⟨mode, .ifBreak broken flat⟩ :: rest)
        (⟨mode, if mode = .flat then flat else broken⟩ :: rest) := by
      intro broken flat room hroom
      rw [Pending.allFit_cons, Pending.allFit_cons]
      cases mode with
      | flat => simp [spend, Measure.ofRoom_andThen_of_nonneg hroom]
      | broken => simp [spend, Measure.ofRoom_andThen_of_nonneg hroom]
    refine ((hchoice broken flat).trans ?_).trans (hchoice broken' flat').symm
    cases mode with
    | flat => exact hflat.measured .flat rest
    | broken => exact hbroken.measured .broken rest
  laid mode _ hproper column := by
    cases mode with
    | flat => exact hflat.laid .flat hproper column
    | broken => exact hbroken.laid .broken hproper column

end Alongside

end Document

end GlimmerFormat
