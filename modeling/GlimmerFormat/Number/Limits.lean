/-!
# Limits of integers

Integers are of any size, but two things cannot be done with all of them.  A machine integer holds
only so many bits, and an integer is written in decimal only up to so many digits.
-/

namespace GlimmerFormat

/-- The kinds of machine integers, which have a sign. -/
inductive MachineInt where
  | int32
  | int64
deriving DecidableEq

namespace MachineInt

/-- The first integer that is too large. -/
def limit : MachineInt → Nat
  | .int32 => 1 <<< 31
  | .int64 => 1 <<< 63

/-- Whether a machine integer can hold an integer. -/
def Holds (kind : MachineInt) (n : Int) : Prop :=
  -kind.limit ≤ n ∧ n < kind.limit

instance (kind : MachineInt) (n : Int) : Decidable (kind.Holds n) :=
  inferInstanceAs (Decidable (_ ∧ _))

/-- What the small machine integers hold the large ones hold, too. -/
theorem Holds.int64 {n : Int} (h : int32.Holds n) : int64.Holds n := by
  simp only [Holds, limit] at *
  omega

end MachineInt

/-- The number of digits that an integer may have to be written. -/
def digitLimit : Nat := 4300

/-- Whether an integer can be written in decimal. -/
def IsWritable (n : Int) : Prop :=
  n.natAbs < Nat.pow 10 digitLimit

instance (n : Int) : Decidable (IsWritable n) :=
  inferInstanceAs (Decidable (_ < _))

end GlimmerFormat
