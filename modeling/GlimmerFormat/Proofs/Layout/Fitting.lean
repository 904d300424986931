import GlimmerFormat.Proofs.Layout.Measuring
import Mathlib.Algebra.Ring.Nat

/-!
# What fits on a line

Measuring goes through texts, breaks and newlines one by one and stops as soon as the room is
gone.  What it finds out can be said without a walk: written in a row, what is measured is a list
of items, and all that counts is how many columns stand before the first newline and whether that
newline is allowed where it stands.

* `Document.items`: the items of a document in a mode.
* `Document.spend_eq_ofItems`: a proper document is measured as its items are.
* `Pending.allFit_flat_eq_decide`: a flat document fits before others exactly when the columns up to
  the first newline suffice and that newline does not stand in anything flat.  So what fits in some
  room fits in more.
-/

namespace GlimmerFormat

/-! ## Items -/

/-- What stands on a line, or ends it. -/
inductive Item where
  /-- Something that takes so many columns. -/
  | columns (n : Nat)
  /-- A newline that ends the line. -/
  | stop
  /-- A newline where there must be none. -/
  | failure
deriving DecidableEq

namespace Item

/-- The number of columns that an item takes. -/
def width : Item → Nat
  | .columns n => n
  | .stop | .failure => 0

/-- Whether an item is a newline. -/
def isNewline : Item → Bool
  | .columns _ => false
  | .stop | .failure => true

/-- The number of columns before the first newline, or of all items if there is none. -/
def columnsAhead (items : List Item) : Nat :=
  ((items.takeWhile fun i => !i.isNewline).map width).sum

/-- The first newline, if there is one. -/
def firstNewline? (items : List Item) : Option Item :=
  items.find? isNewline

/-- The columns before the first newline suffice, and that newline is no failure. -/
def FitIn (items : List Item) (room : Int) : Prop :=
  columnsAhead items ≤ room ∧ firstNewline? items ≠ some .failure

instance (items : List Item) (room : Int) : Decidable (FitIn items room) :=
  inferInstanceAs (Decidable (_ ∧ _))

/-- No items take no columns. -/
@[simp] lemma columnsAhead_nil : columnsAhead [] = 0 := rfl

/-- Columns before the first newline add up. -/
@[simp] lemma columnsAhead_columns (n : Nat) (items : List Item) :
    columnsAhead (.columns n :: items) = n + columnsAhead items := rfl

/-- Nothing behind a newline takes columns of the line. -/
@[simp] lemma columnsAhead_stop (items : List Item) : columnsAhead (.stop :: items) = 0 := rfl

/-- Nothing behind a failure takes columns of the line. -/
@[simp] lemma columnsAhead_failure (items : List Item) : columnsAhead (.failure :: items) = 0 := rfl

/-- No items have no newline. -/
@[simp] lemma firstNewline?_nil : firstNewline? [] = none := rfl

/-- Columns are no newline. -/
@[simp] lemma firstNewline?_columns (n : Nat) (items : List Item) :
    firstNewline? (.columns n :: items) = firstNewline? items := rfl

/-- A newline in front is the first one. -/
@[simp] lemma firstNewline?_stop (items : List Item) :
    firstNewline? (.stop :: items) = some .stop := rfl

/-- A failure in front is the first newline, one that cannot be flat. -/
@[simp] lemma firstNewline?_failure (items : List Item) :
    firstNewline? (.failure :: items) = some .failure := rfl

/-- What fits in some room fits in more. -/
lemma FitIn.mono {items : List Item} {room more : Int} (h : FitIn items room)
    (hmore : room ≤ more) : FitIn items more :=
  ⟨Int.le_trans h.1 hmore, h.2⟩

/-- Nothing fits in room below zero. -/
lemma not_fitIn_of_neg {items : List Item} {room : Int} (hroom : room < 0) :
    ¬ FitIn items room := by
  rintro ⟨hcolumns, -⟩
  omega

/-- In front of others a text takes its columns of the room. -/
lemma fitIn_columns_iff {n : Nat} {items : List Item} {room : Int} :
    FitIn (.columns n :: items) room ↔ FitIn items (room - n) := by
  simp only [FitIn, columnsAhead_columns, firstNewline?_columns]
  refine and_congr_left fun _ => ?_
  omega

end Item

mutual

/-- The items of a document that is laid out in a mode.  All that a document holds inherits its
mode, groups and fills included. -/
def Document.items (mode : Mode) : Document → List Item
  | .empty => []
  | .text s => [.columns s.length]
  | .newline flat =>
    match mode with
    | .flat => [.columns flat.length]
    | .broken => [.stop]
  | .hardline =>
    match mode with
    | .flat => [.failure]
    | .broken => [.stop]
  | .concat docs => Document.itemsAll mode docs
  | .indent d => d.items mode
  | .align _ d => d.items mode
  | .group d => d.items mode
  | .fill parts => Document.itemsAll mode parts
  | .ifBreak broken flat =>
    match mode with
    | .flat => flat.items mode
    | .broken => broken.items mode
  | .stray _ => []

/-- The items of documents in turn. -/
def Document.itemsAll (mode : Mode) : List Document → List Item
  | [] => []
  | d :: ds => d.items mode ++ Document.itemsAll mode ds

end

/-- The items of waiting documents, the next one first. -/
def Pending.items (ps : List Pending) : List Item :=
  ps.flatMap fun p => p.document.items p.mode

/-- The items of the next document come first. -/
@[simp] lemma Pending.items_cons (p : Pending) (ps : List Pending) :
    Pending.items (p :: ps) = p.document.items p.mode ++ Pending.items ps :=
  List.flatMap_cons

/-! ## Measuring item by item -/

namespace Measure

/-- Measures items in turn. -/
def ofItems : List Item → Int → Measure
  | [], room => .leaves room
  | .columns n :: items, room => (Measure.ofRoom (room - n)).andThen (ofItems items)
  | .stop :: _, _ => .fits
  | .failure :: _, _ => .overflows

/-- A measure goes on from the items in front to those behind. -/
lemma ofItems_append (xs ys : List Item) (room : Int) :
    ofItems (xs ++ ys) room = (ofItems xs room).andThen (ofItems ys) := by
  induction xs generalizing room with
  | nil => rfl
  | cons x xs ih =>
    cases x with
    | columns n =>
      simp only [List.cons_append, ofItems]
      cases Measure.ofRoom (room - n) with
      | leaves r => exact ih r
      | fits | overflows | stray => rfl
    | stop | failure => rfl

/-- One item is measured as it takes its columns of the room. -/
lemma ofItems_columns (n : Nat) (room : Int) :
    ofItems [.columns n] room = Measure.ofRoom (room - n) := by
  simp only [ofItems]
  cases Measure.ofRoom (room - n) <;> rfl

/-- What items say about fitting, with nothing behind them. -/
lemma answer_ofItems {items : List Item} {room : Int} (hroom : 0 ≤ room) :
    (ofItems items room).answer (fun _ => .ok true) = .ok (decide (Item.FitIn items room)) := by
  induction items generalizing room with
  | nil => simp [ofItems, answer, Item.FitIn, hroom]
  | cons item items ih =>
    cases item with
    | columns n =>
      rw [decide_eq_decide.mpr Item.fitIn_columns_iff]
      by_cases hleft : 0 ≤ room - n
      · rw [ofItems, ofRoom_andThen_of_nonneg hleft]
        exact ih hleft
      · have hgone : Measure.ofRoom (room - n) = .overflows := if_pos (by omega)
        have hnot : ¬ Item.FitIn items (room - n) := Item.not_fitIn_of_neg (by omega)
        rw [ofItems, hgone, decide_eq_false hnot]
        rfl
    | stop => simp [ofItems, answer, Item.FitIn, hroom]
    | failure => simp [ofItems, answer, Item.FitIn]

end Measure

namespace Document

/-- Documents in turn are measured as their items are, if each of them is. -/
lemma spendAll_eq_ofItems {mode : Mode} {ds : List Document}
    (h : ∀ d ∈ ds, ∀ {room : Int}, 0 ≤ room →
      d.spend mode room = Measure.ofItems (d.items mode) room) {room : Int} (hroom : 0 ≤ room) :
    spendAll mode ds room = Measure.ofItems (itemsAll mode ds) room := by
  induction ds generalizing room with
  | nil => rfl
  | cons d ds ih =>
    rw [spendAll, itemsAll, Measure.ofItems_append, ← h d (by simp) hroom]
    cases hd : d.spend mode room with
    | leaves r => exact ih (fun e he => h e (by simp [he])) (spend_leaves_bounds hd).1
    | fits | overflows | stray => rfl

/-- A proper document is measured as its items are. -/
theorem spend_eq_ofItems {d : Document} (hd : d.IsProper) (mode : Mode) {room : Int}
    (hroom : 0 ≤ room) : d.spend mode room = Measure.ofItems (d.items mode) room := by
  induction d using inductionOn generalizing room with
  | empty => exact Measure.ofRoom_of_nonneg hroom
  | text s => exact (Measure.ofItems_columns _ _).symm
  | newline flat =>
    cases mode with
    | flat => exact (Measure.ofItems_columns _ _).symm
    | broken => rfl
  | hardline => cases mode <;> rfl
  | stray => exact hd.elim
  | concat docs ih =>
    have hproper := everywhereAll_iff.mp hd.2
    rw [spend_concat mode hroom]
    exact spendAll_eq_ofItems (fun d hd _ hroom => ih d hd (hproper d hd) hroom) hroom
  | fill parts ih =>
    have hproper := everywhereAll_iff.mp hd.2
    rw [spend_fill mode hroom]
    exact spendAll_eq_ofItems (fun d hd _ hroom => ih d hd (hproper d hd) hroom) hroom
  | indent d ih =>
    rw [spend_indent mode hroom]
    exact ih hd.2 hroom
  | align amount d ih =>
    rw [spend_align mode hroom]
    exact ih hd.2 hroom
  | group d ih =>
    rw [spend_group mode hroom]
    exact ih hd.2 hroom
  | ifBreak broken flat ihb ihf =>
    rw [spend, Measure.ofRoom_andThen_of_nonneg hroom]
    cases mode with
    | flat => exact ihf hd.2.2 hroom
    | broken => exact ihb hd.2.1 hroom

end Document

/-! ## Waiting documents -/

namespace Pending

/-- Waiting documents are measured as their items are. -/
lemma allFit_eq_answer_ofItems {ps : List Pending} (h : AllProper ps) {room : Int}
    (hroom : 0 ≤ room) :
    allFit ps room = (Measure.ofItems (items ps) room).answer fun _ => .ok true := by
  induction ps generalizing room with
  | nil => rfl
  | cons p ps ih =>
    have hp := Document.spend_eq_ofItems (h p (by simp)) p.mode hroom
    rw [allFit_cons, items_cons, Measure.ofItems_append, ← hp]
    cases hm : p.document.spend p.mode room with
    | leaves r =>
      exact ih (fun q hq => h q (by simp [hq])) (Document.spend_leaves_bounds hm).1
    | fits | overflows | stray => rfl

/-- Where there is room, waiting documents fit exactly when their items do. -/
lemma allFit_eq_decide {ps : List Pending} (h : AllProper ps) {room : Int} (hroom : 0 ≤ room) :
    allFit ps room = .ok (decide (Item.FitIn (items ps) room)) := by
  rw [allFit_eq_answer_ofItems h hroom, Measure.answer_ofItems hroom]

/-- A flat document that fits before others in some room fits before them in more. -/
lemma allFit_flat_mono {d : Document} {rest : List Pending} (h : AllProper (⟨.flat, d⟩ :: rest))
    {room more : Int} (hmore : room ≤ more) (hfits : allFit (⟨.flat, d⟩ :: rest) room = .ok true) :
    allFit (⟨.flat, d⟩ :: rest) more = .ok true := by
  have hroom : 0 ≤ room := by
    obtain ⟨r, hr, -⟩ := allFit_flat_cons.mp hfits
    have := Document.spend_leaves_bounds hr
    omega
  have hitems : Item.FitIn (items (⟨.flat, d⟩ :: rest)) room := by
    simpa [allFit_eq_decide h hroom] using hfits
  rw [allFit_eq_decide h (Int.le_trans hroom hmore), decide_eq_true (hitems.mono hmore)]

/-- A flat document fits before others exactly when the columns up to the first newline are no more
than the room, and that newline, if there is one, does not stand in anything flat.  So what fits in
some room fits in more. -/
theorem allFit_flat_eq_decide {d : Document} {rest : List Pending}
    (h : AllProper (⟨.flat, d⟩ :: rest)) (room : Int) :
    allFit (⟨.flat, d⟩ :: rest) room =
        .ok (decide (Item.FitIn (d.items .flat ++ items rest) room)) ∧
      ∀ more, room ≤ more → allFit (⟨.flat, d⟩ :: rest) room = .ok true →
        allFit (⟨.flat, d⟩ :: rest) more = .ok true := by
  have hexact : ∀ room, allFit (⟨.flat, d⟩ :: rest) room =
      .ok (decide (Item.FitIn (d.items .flat ++ items rest) room)) := by
    intro room
    by_cases hroom : 0 ≤ room
    · exact allFit_eq_decide h hroom
    · -- The flat document is the first to be measured, so room below zero shows at once.
      have hneg : room < 0 := by omega
      have hd : d.IsProper := h ⟨.flat, d⟩ (by simp)
      rw [allFit_cons, Document.spend_flat_of_neg hd.ne_stray hneg,
        decide_eq_false (Item.not_fitIn_of_neg hneg)]
      rfl
  refine ⟨hexact room, ?_⟩
  intro more hmore hfits
  have hroom : Item.FitIn (d.items .flat ++ items rest) room := by
    simpa [hexact room] using hfits
  rw [hexact more, decide_eq_true (hroom.mono hmore)]

/-- A flat document with a choice and a fill, before a broken group that ends the line. -/
theorem allFit_flat_eq_decide_sample :
    let d : Document :=
      .concat [.text "ab", .ifBreak .hardline (.newline " "), .fill [.text "c", .newline ""]]
    let rest : List Pending :=
      [⟨.broken, .group (.indent (.concat [.text "de", .newline " "]))⟩, ⟨.flat, .hardline⟩]
    AllProper (⟨.flat, d⟩ :: rest) ∧ allFit (⟨.flat, d⟩ :: rest) 6 = .ok true ∧
      allFit (⟨.flat, d⟩ :: rest) 5 = .ok false ∧ allFit (⟨.flat, d⟩ :: rest) 80 = .ok true := by
  intro d rest
  have hproper : AllProper (⟨.flat, d⟩ :: rest) := by
    simp [AllProper, d, rest, Document.Everywhere, Document.EverywhereAll, Document.NotStray]
  obtain ⟨hsix, hmore⟩ := allFit_flat_eq_decide hproper 6
  obtain ⟨hfive, -⟩ := allFit_flat_eq_decide hproper 5
  have hfits : allFit (⟨.flat, d⟩ :: rest) 6 = .ok true :=
    hsix.trans (congrArg Except.ok (by decide))
  exact ⟨hproper, hfits, hfive.trans (congrArg Except.ok (by decide)), hmore 80 (by decide) hfits⟩

end Pending

end GlimmerFormat
