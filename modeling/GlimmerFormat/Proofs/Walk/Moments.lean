import GlimmerFormat.Proofs.Walk.Restoring

/-!
# The moments of a run

`Step.run` says where a walk ends, and nothing about where it stands on the way.  Here a script is
run one moment after the other: at each moment there is a task, and behind it a stack of frames with
what is left to be done once the task is settled.  Each step down and each step back is a moment of
its own.  What moves nothing (reading a field, noting an answer or a failure) is done at once, by
the walks that the steps of a script are made of.

* `Moment.next`, `Step.moment?`: one moment after the other.
* `Moment.does_take`: the moments of a step lead where the walk of the step ends, with whatever
  frames are behind it.
* `Step.exists_last_moment`: the moments of a script are finitely many, and the last one has the
  outcome, the position, the log and the trace of its walk.
-/

namespace GlimmerFormat

open Step

/-! ## Moments -/

/-- What is done next. -/
inductive Task where
  /-- A step is taken. -/
  | take (step : Step)
  /-- The steps of a script are taken, with the answer so far. -/
  | takeAll (last : Value) (script : List Step)
  /-- A script is run at items, the first of which has an index, with the answers so far. -/
  | visit (script : List Step) (index : Nat) (vs answers : List Value)
  /-- The answer of a step is noted. -/
  | finish (label : String) (answer : Value)
  /-- Nothing; what was to be done has an outcome. -/
  | settled (outcome : Except Fault Value)

/-- What is left to be done once a task is settled. -/
inductive Frame where
  /-- The other steps of a script. -/
  | others (script : List Step)
  /-- Stepping back from an item and running a script at those behind it. -/
  | item (script : List Step) (index : Nat) (vs answers : List Value)
  /-- Stepping back from a field and noting an answer, which is that of the task unless it is
  given. -/
  | field (label : String) (answer? : Option Value)
  /-- Going on also after a failure. -/
  | attempt

/-- A moment of a run: what is done next, what is left to be done behind it, and the tour so far. -/
structure Moment where
  task : Task
  frames : List Frame
  tour : Tour TraceRow

namespace Frame

/-- Where a walk goes back to. -/
def leave : Frame → Position → Position
  | .item .., p => p.pop
  | .field .., p => p.pop
  | .others _, p => p
  | .attempt, p => p

/-- What a run goes on with when a task has an answer. -/
def goOn (answer : Value) : Frame → Task
  | .others script => .takeAll answer script
  | .item script index vs answers => .visit script index vs (answers ++ [answer])
  | .field label answer? => .finish label (answer?.getD answer)
  | .attempt => .settled (.ok answer)

end Frame

namespace Moment

/-- Where the walk stands. -/
def position (m : Moment) : Position :=
  m.tour.position

/-- The moment at which a task is settled. -/
def ended (frames : List Frame) (result : Except Fault Value × Tour TraceRow) : Moment :=
  ⟨.settled result.1, frames, result.2⟩

/-- Goes on with what is left to be done. -/
def resume (frame : Frame) (frames : List Frame) :
    Except Fault Value × Tour TraceRow → Moment
  | (.ok answer, t) => ⟨frame.goOn answer, frames, t.movedTo (frame.leave t.position)⟩
  | (.error e, t) =>
    match frame with
    | .attempt => ended frames ((giveUp e).run t)
    | _ => ended frames (.error e, t.movedTo (frame.leave t.position))

/-- Goes down to a list field and sets about its items. -/
def sweep (field : String) (script : List Step) (label : String) (answer? : Option Value)
    (frames : List Frame) (t : Tour TraceRow) : Moment :=
  match (Walk.items field).run t with
  | (.ok vs, t) =>
    ⟨.visit script 0 vs [], .field label answer? :: frames,
      t.movedTo (t.position.push (.field field) (.list vs))⟩
  | (.error e, t) => ended frames (.error e, t)

/-- Sets about a step.  What does not go down is done at once. -/
def setAbout (step : Step) (frames : List Frame) (t : Tour TraceRow) : Moment :=
  match step with
  | .into field script =>
    match (Walk.field field).run t with
    | (.ok v, t) =>
      ⟨.takeAll .null script, .field "into" none :: frames,
        t.movedTo (t.position.push (.field field) v)⟩
    | (.error e, t) => ended frames (.error e, t)
  | .map field script => sweep field script "map" none frames t
  | .each field script => sweep field script "each" (some .null) frames t
  | .attempt step => ⟨.take step, .attempt :: frames, t⟩
  | _ => ended frames (step.run.run t)

/-- The next moment, unless the run is over. -/
def next (m : Moment) : Option Moment :=
  match m.task with
  | .take step => some (setAbout step m.frames m.tour)
  | .takeAll last [] => some (ended m.frames (.ok last, m.tour))
  | .takeAll _ (step :: script) => some ⟨.take step, .others script :: m.frames, m.tour⟩
  | .visit _ _ [] answers => some (ended m.frames (.ok (.list answers), m.tour))
  | .visit script index (v :: vs) answers =>
    some ⟨.takeAll .null script, .item script (index + 1) vs answers :: m.frames,
      m.tour.movedTo (m.position.push (.item index) v)⟩
  | .finish label answer => some (ended m.frames ((finish label answer).run m.tour))
  | .settled outcome =>
    match m.frames with
    | [] => none
    | frame :: frames => some (resume frame frames (outcome, m.tour))

/-- The moment some steps later, if the run lasts so long. -/
def later (m : Moment) : Nat → Option Moment
  | 0 => some m
  | k + 1 => m.next.bind fun m' => m'.later k

/-- A moment comes some steps after another one. -/
def LeadsTo (m m' : Moment) : Prop :=
  ∃ k, m.later k = some m'

/-- A moment leads to itself, in no steps. -/
lemma LeadsTo.refl (m : Moment) : m.LeadsTo m :=
  ⟨0, rfl⟩

/-- Some steps later and then some more is all these steps later. -/
lemma later_add (m : Moment) (j k : Nat) :
    m.later (j + k) = (m.later j).bind fun m' => m'.later k := by
  induction j generalizing m with
  | zero => rw [Nat.zero_add]; rfl
  | succ j ih =>
    rw [Nat.add_right_comm, later, later, Option.bind_assoc]
    exact congrArg m.next.bind (funext ih)

/-- A moment leads wherever one leads that it leads to. -/
lemma LeadsTo.trans {m m' m'' : Moment} (h : m.LeadsTo m') (h' : m'.LeadsTo m'') :
    m.LeadsTo m'' := by
  obtain ⟨j, hj⟩ := h
  obtain ⟨k, hk⟩ := h'
  exact ⟨j + k, by rw [later_add, hj, Option.bind_some, hk]⟩

/-- What comes after the next moment comes after a moment. -/
lemma LeadsTo.of_next {m m' m'' : Moment} (hnext : m.next = some m') (h : m'.LeadsTo m'') :
    m.LeadsTo m'' :=
  LeadsTo.trans ⟨1, by rw [later, hnext]; rfl⟩ h

/-- A run that is over has no next moment. -/
lemma next_ended (result : Except Fault Value × Tour TraceRow) :
    (ended [] result).next = none := rfl

end Moment

/-! ## The moments of a walk -/

open Moment

/-- The moments of a task lead where a walk ends, with whatever frames are behind it. -/
def Task.Does (task : Task) (walk : Walk TraceRow Value) : Prop :=
  ∀ frames t, LeadsTo ⟨task, frames, t⟩ (ended frames (walk.run t))

/-- Behind a task the run goes on with the outcome of its walk. -/
lemma Task.Does.behind {task : Task} {walk : Walk TraceRow Value} (h : task.Does walk)
    {frame : Frame} {frames : List Frame} {t : Tour TraceRow} {m : Moment}
    (hm : (resume frame frames (walk.run t)).LeadsTo m) :
    LeadsTo ⟨task, frame :: frames, t⟩ m :=
  (h (frame :: frames) t).trans (LeadsTo.of_next rfl hm)

namespace Moment

variable {script : List Step}

/-- A task one step further down, and the noting of an answer behind it. -/
lemma leadsTo_field {task : Task} {walk : Walk TraceRow Value} (h : task.Does walk) (name : String)
    (v : Value) (label : String) (answer? : Option Value) (frames : List Frame)
    (t : Tour TraceRow) :
    LeadsTo
      ⟨task, .field label answer? :: frames, t.movedTo (t.position.push (.field name) v)⟩
      (ended frames ((Walk.descend (.field name) v walk >>= fun answer =>
        finish label (answer?.getD answer)).run t)) := by
  refine h.behind ?_
  rw [Walk.run_bind, Walk.run_descend_movedTo]
  generalize walk.run (t.movedTo (t.position.push (.field name) v)) = result
  obtain ⟨outcome, after⟩ := result
  cases outcome with
  | ok answer => exact .of_next rfl (.refl _)
  | error e => exact .refl _

/-- The moments of a script are those of its steps. -/
lemma does_takeAll (h : ∀ s ∈ script, (Task.take s).Does s.run) (last : Value) :
    (Task.takeAll last script).Does (runAll last script) := by
  induction script generalizing last with
  | nil => exact fun frames t => .of_next rfl (.refl _)
  | cons step script ih =>
    intro frames t
    refine .of_next rfl ((h step (by simp)).behind ?_)
    rw [runAll, Walk.run_bind]
    generalize step.run.run t = result
    obtain ⟨outcome, after⟩ := result
    cases outcome with
    | ok answer => exact ih (fun s hs => h s (by simp [hs])) answer frames after
    | error e => exact .refl _

/-- The moments at the items of a list are those of the script at each of them. -/
lemma does_visit (h : (Task.takeAll .null script).Does (runAll .null script)) (index : Nat)
    (vs answers : List Value) :
    (Task.visit script index vs answers).Does
      (Walk.visitItems (runAll .null script) index vs >>= fun others =>
        pure (.list (answers ++ others))) := by
  induction vs generalizing index answers with
  | nil =>
    intro frames t
    refine .of_next rfl ?_
    rw [Walk.visitItems, pure_bind, List.append_nil]
    exact .refl _
  | cons v vs ih =>
    intro frames t
    refine .of_next rfl (h.behind ?_)
    simp only [Walk.visitItems, bind_assoc, pure_bind]
    rw [Walk.run_bind, Walk.run_descend_movedTo]
    change LeadsTo (resume _ _ ((runAll .null script).run
      (t.movedTo (t.position.push (.item index) v)))) _
    generalize (runAll .null script).run (t.movedTo (t.position.push (.item index) v)) = result
    obtain ⟨outcome, after⟩ := result
    cases outcome with
    | error e => exact .refl _
    | ok answer =>
      -- The walk puts an answer before those of the other items, a moment puts it behind the
      -- earlier ones.
      have hothers := ih (index + 1) (answers ++ [answer]) frames
        (after.movedTo after.position.pop)
      simp only [List.append_assoc, List.singleton_append] at hothers
      exact hothers

/-- The moments of going through a list field. -/
lemma leadsTo_sweep (h : (Task.takeAll .null script).Does (runAll .null script)) (name : String)
    (label : String) (answer? : Option Value) (frames : List Frame) (t : Tour TraceRow) :
    LeadsTo (sweep name script label answer? frames t)
      (ended frames ((Walk.atItems name (runAll .null script) >>= fun answers =>
        finish label (answer?.getD (.list answers))).run t)) := by
  rw [sweep, Walk.atItems, bind_assoc, Walk.run_bind]
  rcases (Walk.items name).run t with ⟨outcome, after⟩
  cases outcome with
  | error e => exact .refl _
  | ok vs =>
    -- Below the field the answers are a list already; in the walk they become one behind it.
    have hdown := leadsTo_field (does_visit h 0 vs []) name (.list vs) label answer? frames after
    simpa only [Walk.descend_map, bind_assoc, pure_bind, List.nil_append] using hdown

/-- The moments of a step lead where its walk ends. -/
theorem does_take (step : Step) : (Task.take step).Does step.run := by
  induction step using inductionOn with
  | value | name | depth | kind | parent level | raise message =>
    exact fun frames t => .of_next rfl (.refl _)
  | attempt step ih =>
    intro frames t
    refine .of_next rfl (ih.behind ?_)
    rw [Step.run, Walk.run_tryCatch]
    rcases step.run.run t with ⟨outcome, after⟩
    cases outcome <;> exact .refl _
  | into field script ih =>
    intro frames t
    refine .of_next rfl ?_
    rw [Step.run, Walk.atField, bind_assoc, Walk.run_bind, setAbout]
    rcases (Walk.field field).run t with ⟨outcome, after⟩
    cases outcome with
    | error e => exact .refl _
    | ok v => exact leadsTo_field (does_takeAll ih .null) field v "into" none frames after
  | map field script ih =>
    intro frames t
    refine .of_next rfl ?_
    exact leadsTo_sweep (does_takeAll ih .null) field "map" none frames t
  | each field script ih =>
    intro frames t
    refine .of_next rfl ?_
    simp only [Step.run, Walk.throughItems, bind_assoc, pure_bind]
    exact leadsTo_sweep (does_takeAll ih .null) field "each" (some .null) frames t

end Moment

namespace Step

/-- A moment of the run of a script on a tree, counted from the beginning. -/
def moment? (root : Value) (script : List Step) (k : Nat) : Option Moment :=
  Moment.later ⟨.takeAll .null script, [], ⟨.atRoot root, [], []⟩⟩ k

/-- The run of a script ends, and where it ends is where its walk ends. -/
theorem exists_last_moment (root : Value) (script : List Step) :
    ∃ last, moment? root script last =
        some (ended [] ((runAll .null script).run ⟨.atRoot root, [], []⟩)) ∧
      moment? root script (last + 1) = none := by
  have hscript : (Task.takeAll .null script).Does (runAll .null script) :=
    does_takeAll (fun s _ => does_take s) .null
  obtain ⟨last, hlast⟩ := hscript [] ⟨.atRoot root, [], []⟩
  refine ⟨last, hlast, ?_⟩
  rw [moment?, later_add, hlast, Option.bind_some, later, next_ended]
  rfl

end Step

end GlimmerFormat
