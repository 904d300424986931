import GlimmerFormat.Log
import GlimmerFormat.Tree.Node

/-!
# Positions

A position in a tree is given by the way that leads there: the steps from the root, each with
the value it reaches.  From a node a step goes to a field, and from a list to one of its items.
-/

namespace GlimmerFormat

/-- One step down a tree. -/
inductive Descent where
  | field (name : String)
  | item (index : Nat)
deriving DecidableEq

/-- A value in a tree and the way to it. -/
structure Position where
  root : Value
  /-- The steps to the position and the values they reach, the last one first. -/
  trail : List (Descent × Value)

namespace Position

/-- The root of a tree. -/
def atRoot (root : Value) : Position :=
  ⟨root, []⟩

/-- The value at the position. -/
def value (p : Position) : Value :=
  match p.trail with
  | [] => p.root
  | (_, v) :: _ => v

/-- The last step to the position, if it is not the root. -/
def name? (p : Position) : Option Descent :=
  p.trail.head?.map Prod.fst

/-- The number of steps from the root. -/
def depth (p : Position) : Nat :=
  p.trail.length

/-- The values on the way from the position to the root, both included. -/
def path (p : Position) : List Value :=
  p.trail.map Prod.snd ++ [p.root]

/-- The values above the position that are not lists, the nearest first. -/
def ancestors (p : Position) : List Value :=
  p.path.tail.filter fun v => !v.isList

/-- The ancestor of some level; the nearest is of level zero. -/
def parent? (p : Position) (level : Int) : Option Value :=
  if level < 0 then none else p.ancestors[level.toNat]?

/-- The position one step further down. -/
def push (p : Position) (step : Descent) (v : Value) : Position :=
  { p with trail := (step, v) :: p.trail }

/-- The position before the last step. -/
def pop (p : Position) : Position :=
  { p with trail := p.trail.tail }

/-- Stepping back undoes a step down. -/
@[simp] theorem pop_push (p : Position) (step : Descent) (v : Value) : (p.push step v).pop = p :=
  rfl

/-- One step further down stands the value that the step leads to. -/
@[simp] theorem value_push (p : Position) (step : Descent) (v : Value) :
    (p.push step v).value = v := rfl

/-- One step further down the path has the new value in front. -/
@[simp] theorem path_push (p : Position) (step : Descent) (v : Value) :
    (p.push step v).path = v :: p.path := rfl

end Position

end GlimmerFormat
