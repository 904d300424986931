import GlimmerFormat.Document.Basic

/-!
# Building documents

The builders keep documents small.  Nothing disappears from a concatenation, concatenations
inside one are spliced into it, and a group around what cannot break is left out.
-/

namespace GlimmerFormat.Document

/-- What a document adds to a concatenation. -/
def pieces : Document → List Document
  | .empty => []
  | .concat docs => docs
  | d => [d]

/-- Documents one after the other. -/
def ofList (docs : List Document) : Document :=
  match docs.flatMap pieces with
  | [] => .empty
  | [d] => d
  | ds => .concat ds

/-- A group, unless nothing inside can break. -/
def grouped : Document → Document
  | .empty => .empty
  | .text s => .text s
  | d => .group d

/-- One more level of indentation, unless there is nothing to indent. -/
def indented : Document → Document
  | .empty => .empty
  | d => .indent d

/-- More spaces of indentation, unless there is nothing to indent. -/
def aligned (amount : Int) : Document → Document
  | .empty => .empty
  | d => .align amount d

/-- Documents with a separator between any two; a separator stands also beside nothing. -/
def joined (separator : Document) (docs : List Document) : Document :=
  ofList (docs.intersperse separator)

/-- The empty document adds nothing to a concatenation. -/
@[simp] theorem pieces_empty : pieces .empty = [] := rfl

/-- A concatenation adds what it holds, so that it is never nested. -/
@[simp] theorem pieces_concat (docs : List Document) : pieces (.concat docs) = docs := rfl

/-- Nothing can be left out of a concatenation. -/
theorem ofList_cons_empty (docs : List Document) : ofList (.empty :: docs) = ofList docs := by
  simp [ofList]

end GlimmerFormat.Document
