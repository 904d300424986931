import GlimmerFormat.Walk.Basic

/-!
# Scripts

A script is a list of steps on a walk: questions about the position, and ways down with
scripts of their own.  Every step that is done leaves a row in the trace, with its answer and
the position; so does every attempt that fails.
-/

namespace GlimmerFormat

/-- A step of a script. -/
inductive Step where
  /-- The current value. -/
  | value
  /-- The last step to the position. -/
  | name
  | depth
  /-- The name of the type of the current value. -/
  | kind
  /-- The ancestor of some level. -/
  | parent (level : Int)
  /-- A script at a field. -/
  | into (field : String) (script : List Step)
  /-- A script at each item of a list field, with the answers. -/
  | map (field : String) (script : List Step)
  /-- A script at each item of a list field. -/
  | each (field : String) (script : List Step)
  /-- Stops on purpose. -/
  | raise (message : String)
  /-- A step whose failure does not end the script. -/
  | attempt (step : Step)
deriving Inhabited

/-- A row in the trace of a script. -/
inductive TraceRow where
  | done (label : String) (position : Position) (answer : Value)
  | failed (position : Position) (fault : Fault)

/-- A step as a value: a field by its name, an item by its index. -/
def Descent.answer : Descent → Value
  | .field name => .str name
  | .item index => .int index

namespace Step

/-- Notes the answer of a step at its position. -/
def finish (label : String) (answer : Value) : Walk TraceRow Value := do
  Walk.record (.done label (← Walk.here) answer)
  return answer

/-- Notes the failure of an attempt at its position. -/
def giveUp (fault : Fault) : Walk TraceRow Value := do
  Walk.record (.failed (← Walk.here) fault)
  return .null

mutual

/-- Takes a step and gives its answer. -/
def run : Step → Walk TraceRow Value
  | .value => do finish "value" (← Walk.here).value
  | .name => do finish "name" (((← Walk.here).name?.map Descent.answer).getD .null)
  | .depth => do finish "depth" (.int (← Walk.here).depth)
  | .kind => do finish "kind" (.str (← Walk.here).value.typeName)
  | .parent level => do finish "parent" (((← Walk.here).parent? level).getD .null)
  | .into field script => do
    let answer ← Walk.atField field (runAll .null script)
    finish "into" answer
  | .map field script => do
    let answers ← Walk.atItems field (runAll .null script)
    finish "map" (.list answers)
  | .each field script => do
    Walk.throughItems field (runAll .null script)
    finish "each" .null
  | .raise message => throw (.stopped message)
  | .attempt step => tryCatch step.run giveUp

/-- Takes the steps of a script and gives the answer of the last one. -/
def runAll (last : Value) : List Step → Walk TraceRow Value
  | [] => return last
  | step :: script => do
    let answer ← step.run
    runAll answer script

end

/-- Walks a tree from its root; every step of the script is an attempt. -/
def explore (root : Value) (script : List Step) : Tour TraceRow :=
  (runAll .null (script.map attempt) |>.run ⟨.atRoot root, [], []⟩).2

end Step

end GlimmerFormat
