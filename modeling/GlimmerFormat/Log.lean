import GlimmerFormat.Traced
import GlimmerFormat.Tree.Integers

/-!
# The log

The formatter tells what it does: which values it visits at which depth, which groups it
breaks, and where it meets a value without a rule or a field that is missing.

What is written of a value as soon as it is visited stops the formatter there if it cannot be
written: the text of a number, and the display of a value without a rule.
-/

namespace GlimmerFormat

/-- A row of the log. -/
inductive LogRow where
  /-- A value is visited at a depth below the root. -/
  | visiting (depth : Nat) (v : Value)
  /-- A value is met for which printing has no rule. -/
  | unsupported
  /-- A field is asked for that a value does not have. -/
  | missingField
  /-- A group that starts at a column is broken. -/
  | breaking (column : Nat)

/-- A computation that writes the log. -/
abbrev Logged := Traced LogRow Fault

/-- Whether a visited value can be written, if anything of it is. -/
def Value.visited : Value → Except Fault Unit
  | .node (.number value) => value.written
  | .node _ => .ok ()
  | v => v.written

/-- Whether what a row tells of can happen. -/
def LogRow.check : LogRow → Except Fault Unit
  | .visiting _ v => v.visited
  | _ => .ok ()

end GlimmerFormat
