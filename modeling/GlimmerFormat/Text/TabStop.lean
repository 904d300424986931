import GlimmerFormat.Fault

/-!
# Tab stops

The width of an indentation depends on where its tabs fall: a tab reaches to the next
multiple of the tab width.  With no positive tab width a tab takes no room.

Measuring takes the tab width as a machine integer, also where no tab has to be measured.
`Text.columns` is the width for a tab width of any size, and `Text.columns?` is what measuring
gives.
-/

namespace GlimmerFormat.Text

/-- The room a tab takes when it starts at a column. -/
def tabRoom (tabWidth : Int) (column : Nat) : Nat :=
  if 0 < tabWidth then tabWidth.toNat - column % tabWidth.toNat else 0

/-- The room characters take when the first of them starts at a column.  A line feed or a
carriage return takes one column and starts the count of columns afresh. -/
def columnsFrom (tabWidth : Int) (column : Nat) : List Char → Nat
  | [] => 0
  | c :: cs =>
    if c = '\t' then
      tabRoom tabWidth column + columnsFrom tabWidth (column + tabRoom tabWidth column) cs
    else if c = '\n' ∨ c = '\r' then 1 + columnsFrom tabWidth 0 cs
    else 1 + columnsFrom tabWidth (column + 1) cs

/-- The width of an indentation that starts a line. -/
def columns (tabWidth : Int) (indentation : String) : Nat :=
  columnsFrom tabWidth 0 indentation.toList

/-- The width of an indentation that starts a line, if the tab width can be measured with. -/
def columns? (tabWidth : Int) (indentation : String) : Except Fault Nat :=
  if MachineInt.int32.Holds tabWidth then .ok (columns tabWidth indentation)
  else .error (.overflow .int32)

/-- The empty text takes no columns. -/
@[simp] theorem columns_empty (tabWidth : Int) : columns tabWidth "" = 0 := rfl

/-- Without tabs, line feeds and carriage returns every character takes one column. -/
theorem columnsFrom_eq_length (tabWidth : Int) (column : Nat) (cs : List Char)
    (h : ∀ c ∈ cs, c ≠ '\t' ∧ c ≠ '\n' ∧ c ≠ '\r') :
    columnsFrom tabWidth column cs = cs.length := by
  induction cs generalizing column with
  | nil => rfl
  | cons c cs ih =>
    obtain ⟨ht, hn, hr⟩ := h c (by simp)
    have hcs := ih (column + 1) (fun d hd => h d (by simp [hd]))
    simp [columnsFrom, ht, hn, hr, hcs, Nat.add_comm]

end GlimmerFormat.Text
