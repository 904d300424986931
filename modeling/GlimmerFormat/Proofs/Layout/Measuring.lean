import GlimmerFormat.Layout.Page
import GlimmerFormat.Proofs.Document.Parts

/-!
# Measuring

What `Document.spend` makes of the room on a line, and when two lists of waiting documents are
measured alike.

* `Document.spend_leaves_bounds`: measuring leaves no less than nothing and no more than it had.
* `Document.spend_flat_ne_fits`: a flat document is never settled by a newline.
* `Document.spend_ne_stray`: a proper document is measured without a fault.
* `Pending.Alike`: lists that are measured alike in every room that is not negative.  What
  measuring looks into may be taken apart without a difference (`Pending.alike_concat`,
  `Pending.alike_fill`, `Pending.alike_group` and so on).
-/

namespace GlimmerFormat

namespace Measure

/-- Room that is left or lacking does not say that the line ends. -/
lemma ofRoom_ne_fits (room : Int) : Measure.ofRoom room ≠ .fits := by
  unfold Measure.ofRoom
  split <;> simp

/-- Room that is left or lacking is no stray. -/
lemma ofRoom_ne_stray (room : Int) (fault : Fault) : Measure.ofRoom room ≠ .stray fault := by
  unfold Measure.ofRoom
  split <;> simp

/-- Going on is settled by a newline only if one of the two measures is. -/
lemma andThen_ne_fits {x : Measure} {f : Int → Measure} (hx : x ≠ .fits)
    (hf : ∀ r, f r ≠ .fits) : x.andThen f ≠ .fits := by
  cases x with
  | leaves r => exact hf r
  | fits => exact absurd rfl hx
  | overflows => simp [andThen]
  | stray => simp [andThen]

/-- Going on meets a stray only if one of the two measures does. -/
lemma andThen_ne_stray {x : Measure} {f : Int → Measure} {fault : Fault} (hx : x ≠ .stray fault)
    (hf : ∀ r, f r ≠ .stray fault) : x.andThen f ≠ .stray fault := by
  cases x with
  | leaves r => exact hf r
  | fits => simp [andThen]
  | overflows => simp [andThen]
  | stray => exact hx

/-- In room that is left, measuring goes on. -/
@[simp] lemma leaves_andThen (room : Int) (f : Int → Measure) :
    (Measure.leaves room).andThen f = f room := rfl

/-- In room that is not negative a measure goes on at once. -/
lemma ofRoom_andThen_of_nonneg {room : Int} (h : 0 ≤ room) (f : Int → Measure) :
    (Measure.ofRoom room).andThen f = f room := by
  rw [ofRoom_of_nonneg h, leaves_andThen]

/-- If room is left, what comes behind decides. -/
@[simp] lemma leaves_answer (room : Int) (behind : Int → Except Fault Bool) :
    (Measure.leaves room).answer behind = behind room := rfl

end Measure

namespace Document

/-! ## Documents that hold others

In room that is not negative such a document is measured as what it holds. -/

section

variable (mode : Mode) {room : Int} (hroom : 0 ≤ room)

include hroom

/-- A concatenation takes the room of its parts in turn. -/
lemma spend_concat (docs : List Document) :
    spend mode (.concat docs) room = spendAll mode docs room :=
  Measure.ofRoom_andThen_of_nonneg hroom _

/-- A fill takes the room of its parts in turn. -/
lemma spend_fill (parts : List Document) :
    spend mode (.fill parts) room = spendAll mode parts room :=
  Measure.ofRoom_andThen_of_nonneg hroom _

/-- An indentation takes no room by itself. -/
lemma spend_indent (d : Document) : spend mode (.indent d) room = spend mode d room :=
  Measure.ofRoom_andThen_of_nonneg hroom _

/-- An alignment takes no room by itself. -/
lemma spend_align (amount : Int) (d : Document) :
    spend mode (.align amount d) room = spend mode d room :=
  Measure.ofRoom_andThen_of_nonneg hroom _

/-- A group takes the room of what it groups, in the mode of what is around it. -/
lemma spend_group (d : Document) : spend mode (.group d) room = spend mode d room :=
  Measure.ofRoom_andThen_of_nonneg hroom _

/-- A choice that is broken takes the room of the document for this case. -/
lemma spend_ifBreak_broken (broken flat : Document) :
    spend .broken (.ifBreak broken flat) room = spend .broken broken room :=
  Measure.ofRoom_andThen_of_nonneg hroom _

end

/-! ## What measuring leaves -/

/-- Measuring documents in turn leaves what the measures of each allow. -/
lemma spendAll_leaves_bounds {mode : Mode} {ds : List Document}
    (h : ∀ d ∈ ds, ∀ {room r}, d.spend mode room = .leaves r → 0 ≤ r ∧ r ≤ room) {room r : Int}
    (hroom : 0 ≤ room) (hr : spendAll mode ds room = .leaves r) : 0 ≤ r ∧ r ≤ room := by
  induction ds generalizing room with
  | nil =>
    have : room = r := by simpa [spendAll] using hr
    omega
  | cons d ds ih =>
    obtain ⟨s, hs, hr⟩ := Measure.andThen_eq_leaves.mp hr
    have hd := h d (by simp) hs
    have hds := ih (fun e he => h e (by simp [he])) hd.1 hr
    omega

/-- Measuring leaves no less than nothing and no more than there was. -/
theorem spend_leaves_bounds {mode : Mode} {d : Document} {room r : Int}
    (hr : d.spend mode room = .leaves r) : 0 ≤ r ∧ r ≤ room := by
  induction d using inductionOn generalizing room r with
  | empty =>
    have := Measure.ofRoom_eq_leaves.mp hr
    omega
  | text s =>
    have := Measure.ofRoom_eq_leaves.mp hr
    omega
  | newline flat =>
    cases mode with
    | flat =>
      have := Measure.ofRoom_eq_leaves.mp hr
      omega
    | broken => cases hr
  | hardline => cases mode <;> cases hr
  | stray => cases hr
  | concat docs ih | fill docs ih =>
    obtain ⟨hroom, hr⟩ := Measure.ofRoom_andThen_eq_leaves.mp hr
    exact spendAll_leaves_bounds (fun d hd => ih d hd) hroom hr
  | indent d ih | align amount d ih | group d ih =>
    obtain ⟨-, hr⟩ := Measure.ofRoom_andThen_eq_leaves.mp hr
    exact ih hr
  | ifBreak broken flat ihb ihf =>
    obtain ⟨-, hr⟩ := Measure.ofRoom_andThen_eq_leaves.mp hr
    cases mode with
    | flat => exact ihf hr
    | broken => exact ihb hr

/-- Documents measured in turn leave what the second part leaves of what the first left. -/
theorem spendAll_append (mode : Mode) (xs ys : List Document) (room : Int) :
    spendAll mode (xs ++ ys) room =
      (spendAll mode xs room).andThen fun r => spendAll mode ys r := by
  induction xs generalizing room with
  | nil => rfl
  | cons x xs ih =>
    simp only [List.cons_append, spendAll]
    cases spend mode x room with
    | leaves r => exact ih r
    | fits => rfl
    | overflows => rfl
    | stray => rfl

/-- A flat document is never settled by a newline. -/
theorem spend_flat_ne_fits (d : Document) (room : Int) : d.spend .flat room ≠ .fits := by
  induction d using inductionOn generalizing room with
  | empty => exact Measure.ofRoom_ne_fits _
  | text s => exact Measure.ofRoom_ne_fits _
  | newline flat => exact Measure.ofRoom_ne_fits _
  | hardline | stray => exact nofun
  | concat docs ih | fill docs ih =>
    have hall : ∀ room, spendAll .flat docs room ≠ .fits := by
      induction docs with
      | nil => simp [spendAll]
      | cons d ds ihds =>
        intro room
        exact Measure.andThen_ne_fits (ih d (by simp) room) (ihds fun e he => ih e (by simp [he]))
    exact Measure.andThen_ne_fits (Measure.ofRoom_ne_fits _) hall
  | indent d ih | align amount d ih | group d ih =>
    exact Measure.andThen_ne_fits (Measure.ofRoom_ne_fits _) ih
  | ifBreak broken flat ihb ihf =>
    exact Measure.andThen_ne_fits (Measure.ofRoom_ne_fits _) ihf

/-- No flat document fits where there is no room at all. -/
lemma spend_flat_of_neg {d : Document} (hd : ∀ fault, d ≠ .stray fault) {room : Int}
    (hroom : room < 0) :
    d.spend .flat room = .overflows := by
  have hnone : Measure.ofRoom room = .overflows := if_pos hroom
  have hless : ∀ s : String, Measure.ofRoom (room - s.length) = .overflows := by
    intro s
    exact if_pos (by omega)
  cases d with
  | stray fault => exact absurd rfl (hd fault)
  | text s | newline s => exact hless s
  | empty => exact hnone
  | hardline => rfl
  | concat docs | indent d | align amount d | group d | fill parts | ifBreak broken flat =>
    exact congrArg (Measure.andThen · _) hnone

/-- A proper document is measured without a fault. -/
theorem spend_ne_stray {d : Document} (hd : d.IsProper) (mode : Mode) (room : Int)
    (fault : Fault) : d.spend mode room ≠ .stray fault := by
  induction d using inductionOn generalizing room with
  | empty => exact Measure.ofRoom_ne_stray _ _
  | text s => exact Measure.ofRoom_ne_stray _ _
  | newline flat =>
    cases mode with
    | flat => exact Measure.ofRoom_ne_stray _ _
    | broken => exact nofun
  | hardline => cases mode <;> exact nofun
  | stray => exact hd.elim
  | concat docs ih | fill docs ih =>
    have hproper := everywhereAll_iff.mp hd.2
    have hall : ∀ room, spendAll mode docs room ≠ .stray fault := by
      clear hd
      induction docs with
      | nil => simp [spendAll]
      | cons d ds ihds =>
        intro room
        exact Measure.andThen_ne_stray (ih d (by simp) (hproper d (by simp)) room)
          (ihds (fun e he => ih e (by simp [he])) fun e he => hproper e (by simp [he]))
    exact Measure.andThen_ne_stray (Measure.ofRoom_ne_stray _ _) hall
  | indent d ih | align amount d ih | group d ih =>
    exact Measure.andThen_ne_stray (Measure.ofRoom_ne_stray _ _) (ih hd.2)
  | ifBreak broken flat ihb ihf =>
    refine Measure.andThen_ne_stray (Measure.ofRoom_ne_stray _ _) fun r => ?_
    cases mode with
    | flat => exact ihf hd.2.2 r
    | broken => exact ihb hd.2.1 r

end Document

namespace Pending

/-! ## Waiting documents -/

/-- Documents that wait to be laid out are proper. -/
def AllProper (ps : List Pending) : Prop :=
  ∀ p ∈ ps, p.document.IsProper

/-- Proper documents are measured without a fault. -/
theorem allFit_of_allProper {ps : List Pending} (h : AllProper ps) (room : Int) :
    ∃ b, allFit ps room = .ok b := by
  induction ps generalizing room with
  | nil => exact ⟨true, rfl⟩
  | cons p ps ih =>
    have hp := Document.spend_ne_stray (h p (by simp)) p.mode room
    rw [allFit_cons]
    cases hm : p.document.spend p.mode room with
    | leaves r => exact ih (fun q hq => h q (by simp [hq])) r
    | fits => exact ⟨true, rfl⟩
    | overflows => exact ⟨false, rfl⟩
    | stray fault => exact absurd hm (hp fault)

/-- A flat document fits before others exactly when it leaves room in which they fit. -/
theorem allFit_flat_cons {d : Document} {ps : List Pending} {room : Int} :
    allFit (⟨.flat, d⟩ :: ps) room = .ok true ↔
      ∃ r, d.spend .flat room = .leaves r ∧ allFit ps r = .ok true := by
  have hd := d.spend_flat_ne_fits room
  rw [allFit_cons]
  cases hm : d.spend .flat room with
  | leaves r => simp [Measure.answer]
  | fits => exact absurd hm hd
  | overflows => simp [Measure.answer]
  | stray => simp [Measure.answer]

/-- Waiting documents that fit alike in every room that is not negative. -/
def Alike (xs ys : List Pending) : Prop :=
  ∀ room, 0 ≤ room → allFit xs room = allFit ys room

/-- What waits fits like itself. -/
theorem Alike.refl (xs : List Pending) : Alike xs xs :=
  fun _ _ => rfl

/-- Fitting alike goes either way. -/
theorem Alike.symm {xs ys : List Pending} (h : Alike xs ys) : Alike ys xs :=
  fun room hroom => (h room hroom).symm

/-- What fits like a third one fits alike. -/
theorem Alike.trans {xs ys zs : List Pending} (h : Alike xs ys) (h' : Alike ys zs) :
    Alike xs zs :=
  fun room hroom => (h room hroom).trans (h' room hroom)

/-- What waits behind a document is measured in what the document leaves. -/
lemma allFit_cons_congr {xs ys : List Pending} (h : Alike xs ys) (p : Pending) (room : Int) :
    allFit (p :: xs) room = allFit (p :: ys) room := by
  rw [allFit_cons, allFit_cons]
  cases hm : p.document.spend p.mode room with
  | leaves r => exact h r (Document.spend_leaves_bounds hm).1
  | fits => rfl
  | overflows => rfl
  | stray => rfl

/-- Behind the same document, what fits alike still does. -/
theorem Alike.cons {xs ys : List Pending} (h : Alike xs ys) (p : Pending) :
    Alike (p :: xs) (p :: ys) :=
  fun room _ => allFit_cons_congr h p room

/-- Behind the same documents, what fits alike still does. -/
theorem Alike.append_left {xs ys : List Pending} (ps : List Pending) (h : Alike xs ys) :
    Alike (ps ++ xs) (ps ++ ys) := by
  induction ps with
  | nil => exact h
  | cons p ps ih => exact ih.cons p

/-- Documents measured in turn are measured like documents that wait in turn. -/
lemma allFit_map_append {mode : Mode} {ds : List Document} {rest : List Pending} {room : Int} :
    allFit (ds.map (Pending.mk mode) ++ rest) room =
      (Document.spendAll mode ds room).answer (allFit rest) := by
  induction ds generalizing room with
  | nil => rfl
  | cons d ds ih =>
    simp only [List.map_cons, List.cons_append, allFit_cons, Document.spendAll]
    cases d.spend mode room with
    | leaves r => exact ih
    | fits => rfl
    | overflows => rfl
    | stray => rfl

/-- A concatenation fits like its parts, each waiting by itself. -/
theorem alike_concat (mode : Mode) (ds : List Document) (rest : List Pending) :
    Alike (⟨mode, .concat ds⟩ :: rest) (ds.map (Pending.mk mode) ++ rest) := by
  intro room hroom
  rw [allFit_map_append, allFit_cons, Document.spend_concat mode hroom]

/-- A fill fits like its parts, each waiting by itself. -/
theorem alike_fill (mode : Mode) (ds : List Document) (rest : List Pending) :
    Alike (⟨mode, .fill ds⟩ :: rest) (ds.map (Pending.mk mode) ++ rest) := by
  intro room hroom
  rw [allFit_map_append, allFit_cons, Document.spend_fill mode hroom]

/-- An indented document fits like the document. -/
theorem alike_indent (mode : Mode) (d : Document) (rest : List Pending) :
    Alike (⟨mode, .indent d⟩ :: rest) (⟨mode, d⟩ :: rest) := by
  intro room hroom
  rw [allFit_cons, allFit_cons, Document.spend_indent mode hroom]

/-- An aligned document fits like the document. -/
theorem alike_align (mode : Mode) (amount : Int) (d : Document) (rest : List Pending) :
    Alike (⟨mode, .align amount d⟩ :: rest) (⟨mode, d⟩ :: rest) := by
  intro room hroom
  rw [allFit_cons, allFit_cons, Document.spend_align mode hroom]

/-- A group that waits in a mode fits like what it groups in this mode. -/
theorem alike_group (mode : Mode) (d : Document) (rest : List Pending) :
    Alike (⟨mode, .group d⟩ :: rest) (⟨mode, d⟩ :: rest) := by
  intro room hroom
  rw [allFit_cons, allFit_cons, Document.spend_group mode hroom]

/-- A broken choice fits like the document for this case. -/
theorem alike_ifBreak_broken (broken flat : Document) (rest : List Pending) :
    Alike (⟨.broken, .ifBreak broken flat⟩ :: rest) (⟨.broken, broken⟩ :: rest) := by
  intro room hroom
  rw [allFit_cons, allFit_cons, Document.spend_ifBreak_broken hroom]

/-- The empty document makes no difference to what fits. -/
theorem alike_empty (mode : Mode) (rest : List Pending) :
    Alike (⟨mode, .empty⟩ :: rest) rest := by
  intro room hroom
  have hempty : Document.empty.spend mode room = .leaves room := Measure.ofRoom_of_nonneg hroom
  rw [allFit_cons, hempty, Measure.leaves_answer]

/-- A newline that every group has settles a measure, whatever comes behind. -/
lemma alike_hardline (mode : Mode) (xs ys : List Pending) :
    Alike (⟨mode, .hardline⟩ :: xs) (⟨mode, .hardline⟩ :: ys) := by
  intro room _
  cases mode <;> rfl

/-- Documents one after the other are measured like the first before the others. -/
theorem alike_concat_cons (mode : Mode) (d : Document) (ds : List Document)
    (rest : List Pending) :
    Alike (⟨mode, .concat (d :: ds)⟩ :: rest) (⟨mode, d⟩ :: ⟨mode, .concat ds⟩ :: rest) :=
  (alike_concat mode (d :: ds) rest).trans ((alike_concat mode ds rest).symm.cons ⟨mode, d⟩)

end Pending

end GlimmerFormat
