import GlimmerFormat.Walk.Position

/-!
# Walking a tree

A walk moves through a tree.  Each way of going down takes what is to be done there and steps
back afterwards, whether that was done or failed, so a walk ends where it began.
-/

namespace GlimmerFormat

/-- Where a walk stands, with the log and a record of what was done on the way. -/
structure Tour (ρ : Type) where
  position : Position
  log : List LogRow
  trace : List ρ

/-- Something done on a walk.  The walk goes on also when it fails. -/
abbrev Walk (ρ : Type) := ExceptT Fault (StateM (Tour ρ))

namespace Walk

variable {ρ α : Type}

/-- Where the walk stands. -/
def here : Walk ρ Position :=
  return (← get).position

/-- Writes a row of the log. -/
def log (row : LogRow) : Walk ρ Unit :=
  modify fun t => { t with log := t.log ++ [row] }

/-- Notes what was done. -/
def record (row : ρ) : Walk ρ Unit :=
  modify fun t => { t with trace := t.trace ++ [row] }

/-- Does something one step further down and steps back. -/
def descend (step : Descent) (v : Value) (visit : Walk ρ α) : Walk ρ α :=
  ExceptT.mk fun t =>
    let (outcome, after) := visit.run { t with position := t.position.push step v }
    (outcome, { after with position := after.position.pop })

/-- What is done one step further down starts there, and the walk ends one step above its
end. -/
theorem run_descend (step : Descent) (v : Value) (visit : Walk ρ α) (t : Tour ρ) :
    (descend step v visit).run t =
      let after := visit.run { t with position := t.position.push step v }
      (after.1, { after.2 with position := after.2.position.pop }) := rfl

/-- The value of a field of the current value. -/
def field (name : String) : Walk ρ Value := do
  let v := (← here).value
  match v.field? name with
  | some w => return w
  | none =>
    log .missingField
    throw (.missingField v.typeName name)

/-- The items of a field of the current value, which must hold a list. -/
def items (name : String) : Walk ρ (List Value) := do
  match ← field name with
  | .list vs => return vs
  | w => throw (.notAList (← here).value.typeName name w.typeName)

/-- Does something at each of several items, the first of which has an index. -/
def visitItems (visit : Walk ρ α) (index : Nat) : List Value → Walk ρ (List α)
  | [] => return []
  | v :: vs => do
    let first ← descend (.item index) v visit
    let others ← visitItems visit (index + 1) vs
    return first :: others

/-- Does something at a field. -/
def atField (name : String) (visit : Walk ρ α) : Walk ρ α := do
  let v ← field name
  descend (.field name) v visit

/-- Does something at each item of a list field, in order. -/
def atItems (name : String) (visit : Walk ρ α) : Walk ρ (List α) := do
  let vs ← items name
  descend (.field name) (.list vs) (visitItems visit 0 vs)

/-- Does something at each item of a list field and keeps no results. -/
def throughItems (name : String) (visit : Walk ρ α) : Walk ρ Unit := do
  let _ ← atItems name visit

end Walk

end GlimmerFormat
