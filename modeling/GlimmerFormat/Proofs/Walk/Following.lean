import GlimmerFormat.Proofs.Walk.Moments
import GlimmerFormat.Proofs.Walk.Paths

/-!
# Walks follow paths

At every moment of the run of a script the walk stands on a path of the tree.  A step down goes to
what stands below the current value, and a step back leaves a path shorter by one; but to step on to
the next item of a list one has to know that the walk is at that list again.  So the invariant says
more: `Moment.Follows` holds the frames that wait to the position as well.

* `Moment.Follows.next`, `Moment.Follows.later`: one step keeps the invariant, and so does a run.
* `Step.isPathOf_of_moment?`: the stack is a path of the tree at every moment of a run, whatever
  fails, and depth and ancestors are those of the path.
-/

namespace GlimmerFormat

open Step

variable {root v : Value} {p : Position} {frames : List Frame} {t : Tour TraceRow}

/-! ## The invariant -/

/-- The items of a list from an index on, where the list stands at the position. -/
def Position.HasItems (p : Position) (index : Nat) (vs : List Value) : Prop :=
  ∃ before, p.value = .list (before ++ vs) ∧ before.length = index

/-- The items to be visited are those of the list at the position. -/
def Task.Suits : Task → Position → Prop
  | .visit _ index vs _, p => p.HasItems index vs
  | _, _ => True

/-- Every frame can go on at the position that the frames above it go back to. -/
def Frame.Suit : List Frame → Position → Prop
  | [], _ => True
  | frame :: frames, p =>
    (∀ answer, (frame.goOn answer).Suits (frame.leave p)) ∧ Frame.Suit frames (frame.leave p)

/-- At a moment the walk stands on a path of a tree, and what is left to be done goes on from
there. -/
structure Moment.Follows (root : Value) (m : Moment) : Prop where
  onPath : m.position.OnPath root
  task : m.task.Suits m.position
  frames : Frame.Suit m.frames m.position

/-- The first of the items is one step below the list. -/
lemma Position.HasItems.below? {index : Nat} {vs : List Value}
    (h : p.HasItems index (v :: vs)) : p.value.below? (.item index) = some v := by
  obtain ⟨before, hvalue, rfl⟩ := h
  simp [hvalue, Value.below?]

/-- The items behind the first one. -/
lemma Position.HasItems.tail {index : Nat} {vs : List Value} (h : p.HasItems index (v :: vs)) :
    p.HasItems (index + 1) vs := by
  obtain ⟨before, hvalue, rfl⟩ := h
  exact ⟨before ++ [v], by simpa using hvalue, by simp⟩

/-- All the items of a list. -/
lemma Position.hasItems_push (p : Position) (step : Descent) (vs : List Value) :
    (p.push step (.list vs)).HasItems 0 vs :=
  ⟨[], rfl, rfl⟩

/-- Going back stays on the path. -/
lemma Position.OnPath.leave (h : p.OnPath root) (frame : Frame) : (frame.leave p).OnPath root := by
  cases frame with
  | item | field => exact h.pop
  | others | attempt => exact h

/-! ## What one step keeps -/

namespace Moment

/-- A task that is settled leaves its frames to be gone on with. -/
lemma follows_ended {result : Except Fault Value × Tour TraceRow}
    (hpath : result.2.position.OnPath root) (hframes : Frame.Suit frames result.2.position) :
    (ended frames result).Follows root :=
  ⟨hpath, trivial, hframes⟩

/-- What goes nowhere by itself may be done at once. -/
lemma follows_ended_run {walk : Walk TraceRow Value} (hwalk : walk.Restores)
    (hpath : t.position.OnPath root) (hframes : Frame.Suit frames t.position) :
    (ended frames (walk.run t)).Follows root := by
  have hposition := hwalk t
  exact follows_ended (hposition ▸ hpath) (hposition ▸ hframes)

/-- Going on with the frames, after an answer or a failure. -/
lemma follows_resume {frame : Frame} {result : Except Fault Value × Tour TraceRow}
    (hpath : result.2.position.OnPath root)
    (hframes : Frame.Suit (frame :: frames) result.2.position) :
    (resume frame frames result).Follows root := by
  obtain ⟨hgoOn, hbelow⟩ := hframes
  obtain ⟨outcome, t⟩ := result
  have hleave := hpath.leave frame
  cases outcome with
  | ok answer => exact ⟨hleave, hgoOn answer, hbelow⟩
  | error e =>
    cases frame with
    | attempt => exact follows_ended_run (restores_giveUp e) hpath hbelow
    -- A failure goes back as far as an answer does, and is no task to be suited.
    | others | item | field => exact follows_ended hleave hbelow

/-- Going down to a field, with a task that can be done there. -/
lemma follows_field (hpath : t.position.OnPath root) (hframes : Frame.Suit frames t.position)
    {name : String} (hfield : t.position.value.field? name = some v) {task : Task}
    (htask : task.Suits (t.position.push (.field name) v)) (label : String)
    (answer? : Option Value) :
    Follows root ⟨task, .field label answer? :: frames,
      t.movedTo (t.position.push (.field name) v)⟩ :=
  ⟨hpath.push ((Value.below?_field _ name).trans hfield), htask, fun _ => trivial, hframes⟩

/-- Setting about the items of a list field. -/
lemma follows_sweep (hpath : t.position.OnPath root) (hframes : Frame.Suit frames t.position)
    (name : String) (script : List Step) (label : String) (answer? : Option Value) :
    (sweep name script label answer? frames t).Follows root := by
  rw [sweep]
  rcases hrun : (Walk.items name).run t with ⟨outcome, after⟩
  have hposition := (Walk.restores_items name).position_eq hrun
  rw [← hposition] at hpath hframes
  cases outcome with
  | error e => exact follows_ended hpath hframes
  | ok vs =>
    have hfield := Walk.field?_of_run_items hrun
    have htask : (Task.visit script 0 vs []).Suits
        (after.position.push (.field name) (.list vs)) :=
      Position.hasItems_push _ _ vs
    rw [← hposition] at hfield
    exact follows_field hpath hframes hfield htask label answer?

/-- Setting about a step. -/
lemma follows_setAbout (hpath : t.position.OnPath root) (hframes : Frame.Suit frames t.position)
    (step : Step) : (setAbout step frames t).Follows root := by
  cases step with
  | value | name | depth | kind | parent | raise =>
    exact follows_ended_run (restores_run _) hpath hframes
  | attempt step => exact ⟨hpath, trivial, fun _ => trivial, hframes⟩
  | map field script => exact follows_sweep hpath hframes field script "map" none
  | each field script => exact follows_sweep hpath hframes field script "each" (some .null)
  | into field script =>
    rw [setAbout]
    rcases hrun : (Walk.field field).run t with ⟨outcome, after⟩
    have hposition := (Walk.restores_field field).position_eq hrun
    rw [← hposition] at hpath hframes
    cases outcome with
    | error e => exact follows_ended hpath hframes
    | ok v =>
      have hfield := Walk.field?_of_run_field hrun
      have htask : (Task.takeAll .null script).Suits (after.position.push (.field field) v) :=
        trivial
      rw [← hposition] at hfield
      exact follows_field hpath hframes hfield htask "into" none

/-- The next moment keeps the invariant. -/
theorem Follows.next {m m' : Moment} (h : m.Follows root) (hnext : m.next = some m') :
    m'.Follows root := by
  obtain ⟨task, frames, t⟩ := m
  obtain ⟨hpath, htask, hframes⟩ := h
  cases task with
  | take step =>
    cases hnext
    exact follows_setAbout hpath hframes step
  | takeAll last script =>
    cases script with
    | nil =>
      cases hnext
      exact follows_ended hpath hframes
    | cons step script =>
      cases hnext
      exact ⟨hpath, trivial, fun _ => trivial, hframes⟩
  | visit script index vs answers =>
    cases vs with
    | nil =>
      cases hnext
      exact follows_ended hpath hframes
    | cons v vs =>
      cases hnext
      -- The frame below the script goes back to the list, where the items behind this one stand.
      exact ⟨hpath.push htask.below?, trivial, fun _ => htask.tail, hframes⟩
  | finish label answer =>
    cases hnext
    exact follows_ended_run (restores_finish label answer) hpath hframes
  | settled outcome =>
    cases frames with
    | nil => cases hnext
    | cons frame frames =>
      cases hnext
      exact follows_resume hpath hframes

/-- Every later moment keeps the invariant. -/
theorem Follows.later {m m' : Moment} (h : m.Follows root) {k : Nat} (hk : m.later k = some m') :
    m'.Follows root := by
  induction k generalizing m with
  | zero =>
    cases hk
    exact h
  | succ k ih =>
    obtain ⟨m₁, hnext, hlater⟩ := Option.bind_eq_some_iff.mp hk
    exact ih (h.next hnext) hlater

end Moment

namespace Step

/-- At every moment of the run of a script the walk stands on a path of the tree. -/
lemma onPath_of_moment? {script : List Step} {k : Nat} {m : Moment}
    (hk : moment? root script k = some m) : m.position.OnPath root := by
  have hbegin : Moment.Follows root ⟨.takeAll .null script, [], ⟨.atRoot root, [], []⟩⟩ :=
    ⟨.root, trivial, trivial⟩
  exact (hbegin.later hk).onPath

/-- The run of a script on a tree ends with what its walk gives, and at every moment of it, whatever
fails, the stack of the walk is a path of the tree.  So the depth is the length of the path, and the
parents are the values on the path above its end that are not lists, counted from the nearest. -/
theorem isPathOf_of_moment? (root : Value) (script : List Step) :
    (∃ last, moment? root script last =
          some (.ended [] ((runAll .null script).run ⟨.atRoot root, [], []⟩)) ∧
        moment? root script (last + 1) = none) ∧
      ∀ k m, moment? root script k = some m →
        IsPathOf root m.position.stack ∧
        root.reached? m.position.way = some m.position.value ∧
        m.position.depth = m.position.way.length ∧
        (∀ level : Nat, m.position.parent? level = (root.enclosing m.position.way)[level]?) ∧
        ∀ level < 0, m.position.parent? level = none := by
  refine ⟨exists_last_moment root script, ?_⟩
  intro k m hk
  have hpath := onPath_of_moment? hk
  refine ⟨hpath.isPathOf, hpath.reached?_way, m.position.length_way.symm, ?_, ?_⟩
  · intro level
    rw [Position.parent?_natCast, hpath.ancestors_eq]
  · intro level hlevel
    exact m.position.parent?_of_neg hlevel

/-- A script stops on purpose at the value of an attribute.  When it stops, the walk stands three
steps below the element, and the list of its attributes counts as a step and not as a parent. -/
theorem isPathOf_of_moment?_sample :
    let attr : Value := .node (.attr (.str "class") (.node (.text (.str "a"))))
    let root : Value :=
      .node (.element (.str "div") (.list [attr, .null]) (.list []) (.list []) (.list []))
    let script : List Step :=
      [.attempt (.map "attributes" [.into "value" [.value, .raise "no"]])]
    ∃ m, moment? root script 11 = some m ∧ m.task = .settled (.error (.stopped "no")) ∧
      IsPathOf root m.position.stack ∧ m.position.depth = 3 ∧
      m.position.parent? 0 = some attr ∧ m.position.parent? 1 = some root ∧
      m.position.parent? 2 = none ∧ m.position.parent? (-1) = none := by
  intro attr root script
  obtain ⟨-, hmoments⟩ := isPathOf_of_moment? root script
  obtain ⟨m, hk, htask, hway⟩ : ∃ m, moment? root script 11 = some m ∧
      m.task = .settled (.error (.stopped "no")) ∧
      m.position.way = [.field "attributes", .item 0, .field "value"] :=
    ⟨_, rfl, rfl, rfl⟩
  obtain ⟨hstack, -, hdepth, hparent, hnegative⟩ := hmoments 11 m hk
  rw [hway] at hdepth hparent
  exact ⟨m, hk, htask, hstack, hdepth, hparent 0, hparent 1, hparent 2,
    hnegative (-1) (by decide)⟩

end Step

end GlimmerFormat
