import GlimmerFormat.Document.Basic
import GlimmerFormat.Fault

/-!
# Room on a line

Whether a document may be laid out flat is measured together with what follows it on the same
line.  The measure goes through texts and flat breaks and spends the room they take, until
the room is gone or a newline settles the question.
-/

namespace GlimmerFormat

/-- How a document is laid out: with its breaks as texts, or as newlines. -/
inductive Mode where
  | flat
  | broken
deriving DecidableEq

/-- A document that waits to be laid out in some mode. -/
structure Pending where
  mode : Mode
  document : Document

/-- What measuring a document shows. -/
inductive Measure where
  /-- The document takes its part of the line and leaves so much room. -/
  | leaves (room : Int)
  /-- A newline is reached in time. -/
  | fits
  /-- The room does not suffice, or a newline is met where there must be none. -/
  | overflows
  /-- Something that is no document is met, with its fault. -/
  | stray (fault : Fault)
deriving DecidableEq

namespace Measure

/-- The measure of what leaves so much room; room below zero does not suffice. -/
def ofRoom (room : Int) : Measure :=
  if room < 0 then .overflows else .leaves room

/-- Goes on in the room that is left. -/
def andThen : Measure → (Int → Measure) → Measure
  | .leaves room, f => f room
  | .fits, _ => .fits
  | .overflows, _ => .overflows
  | .stray fault, _ => .stray fault

/-- Room is left exactly if it is not negative. -/
theorem ofRoom_eq_leaves {room r : Int} : ofRoom room = .leaves r ↔ 0 ≤ room ∧ room = r := by
  unfold ofRoom
  split <;> simp <;> omega

/-- Room that is not negative is left as it is. -/
theorem ofRoom_of_nonneg {room : Int} (h : 0 ≤ room) : ofRoom room = .leaves room :=
  ofRoom_eq_leaves.mpr ⟨h, rfl⟩

/-- Two measures in turn leave room exactly if the first leaves some in which the second leaves it.
-/
theorem andThen_eq_leaves {x : Measure} {f : Int → Measure} {r : Int} :
    x.andThen f = .leaves r ↔ ∃ s, x = .leaves s ∧ f s = .leaves r := by
  cases x <;> simp [andThen]

/-- What is measured in some room leaves some of it only if the room is not negative. -/
theorem ofRoom_andThen_eq_leaves {room : Int} {f : Int → Measure} {r : Int} :
    (ofRoom room).andThen f = .leaves r ↔ 0 ≤ room ∧ f room = .leaves r := by
  rw [andThen_eq_leaves]
  constructor
  · rintro ⟨s, hs, hf⟩
    obtain ⟨hroom, rfl⟩ := ofRoom_eq_leaves.mp hs
    exact ⟨hroom, hf⟩
  · rintro ⟨hroom, hf⟩
    exact ⟨room, ofRoom_of_nonneg hroom, hf⟩

end Measure

namespace Document

mutual

/-- Measures a document of a mode in some room. -/
def spend (mode : Mode) : Document → Int → Measure
  | .empty, room => .ofRoom room
  | .text s, room => .ofRoom (room - s.length)
  | .newline flat, room =>
    match mode with
    | .flat => .ofRoom (room - flat.length)
    | .broken => .fits
  | .hardline, _ =>
    match mode with
    | .flat => .overflows
    | .broken => .fits
  | .concat docs, room => (Measure.ofRoom room).andThen fun r => spendAll mode docs r
  | .indent d, room => (Measure.ofRoom room).andThen fun r => spend mode d r
  | .align _ d, room => (Measure.ofRoom room).andThen fun r => spend mode d r
  | .group d, room => (Measure.ofRoom room).andThen fun r => spend mode d r
  | .fill parts, room => (Measure.ofRoom room).andThen fun r => spendAll mode parts r
  | .ifBreak broken flat, room =>
    (Measure.ofRoom room).andThen fun r =>
      match mode with
      | .flat => spend mode flat r
      | .broken => spend mode broken r
  | .stray fault, _ => .stray fault

/-- Measures documents of one mode in turn. -/
def spendAll (mode : Mode) : List Document → Int → Measure
  | [], room => .leaves room
  | d :: ds, room => (spend mode d room).andThen fun r => spendAll mode ds r

end

end Document

/-- What a measure says about fitting; if room is left, what comes behind has to fit in it. -/
def Measure.answer : Measure → (Int → Except Fault Bool) → Except Fault Bool
  | .leaves room, behind => behind room
  | .fits, _ => .ok true
  | .overflows, _ => .ok false
  | .stray fault, _ => .error fault

/-- Whether waiting documents, the next one first, fit in some room up to their first
newline. -/
def Pending.allFit : List Pending → Int → Except Fault Bool
  | [], _ => .ok true
  | p :: ps, room => (p.document.spend p.mode room).answer fun r => allFit ps r

/-- The next document is measured first, and the others in the room that it leaves. -/
theorem Pending.allFit_cons (p : Pending) (ps : List Pending) (room : Int) :
    Pending.allFit (p :: ps) room = (p.document.spend p.mode room).answer (Pending.allFit ps) :=
  rfl

end GlimmerFormat
