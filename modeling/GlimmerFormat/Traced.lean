/-!
# Traced computations

A traced computation leaves a record of what it met, and the record stays when it fails.
-/

namespace GlimmerFormat

/-- The record of a computation and what became of it. -/
structure Traced (ρ ε α : Type) where
  log : List ρ
  outcome : Except ε α

namespace Traced

variable {ρ ε α β : Type}

/-- A computation that leaves no record. -/
def ofExcept (outcome : Except ε α) : Traced ρ ε α :=
  ⟨[], outcome⟩

/-- Leaves one row in the record. -/
def note (row : ρ) : Traced ρ ε Unit :=
  ⟨[row], .ok ()⟩

/-- Fails and leaves no record. -/
def fail (e : ε) : Traced ρ ε α :=
  ⟨[], .error e⟩

/-- One computation after another; the record of the second follows that of the first. -/
protected def bind (x : Traced ρ ε α) (f : α → Traced ρ ε β) : Traced ρ ε β :=
  match x.outcome with
  | .ok a =>
    let y := f a
    ⟨x.log ++ y.log, y.outcome⟩
  | .error e => ⟨x.log, .error e⟩

instance : Monad (Traced ρ ε) where
  pure a := ⟨[], .ok a⟩
  bind := Traced.bind

/-- A computation in which each row of the record is checked when it is left.  The first row that
does not pass is the last one, and its fault stops the computation there. -/
def checked (check : ρ → Except ε Unit) (x : Traced ρ ε α) : Traced ρ ε α := do
  x.log.forM fun row => ⟨[row], check row⟩
  ofExcept x.outcome

/-- What only succeeds or fails leaves an empty record. -/
@[simp] theorem log_ofExcept (x : Except ε α) : (ofExcept x : Traced ρ ε α).log = [] := rfl

/-- What only succeeds or fails comes to just that. -/
@[simp] theorem outcome_ofExcept (x : Except ε α) : (ofExcept x : Traced ρ ε α).outcome = x := rfl

/-- Leaving a row in the record always succeeds. -/
@[simp] theorem outcome_note (row : ρ) : (note row : Traced ρ ε Unit).outcome = .ok () := rfl

/-- A result alone leaves an empty record. -/
@[simp] theorem log_pure (a : α) : (pure a : Traced ρ ε α).log = [] := rfl

/-- A result alone is a success. -/
@[simp] theorem outcome_pure (a : α) : (pure a : Traced ρ ε α).outcome = .ok a := rfl

/-- The second computation is run on the result of the first, and its record follows the first one.
-/
theorem bind_def (x : Traced ρ ε α) (f : α → Traced ρ ε β) :
    x >>= f = match x.outcome with
      | .ok a => ⟨x.log ++ (f a).log, (f a).outcome⟩
      | .error e => ⟨x.log, .error e⟩ := rfl

/-- A computation that succeeds hands its value on and keeps its record. -/
@[simp] theorem ok_bind (log : List ρ) (a : α) (f : α → Traced ρ ε β) :
    (⟨log, .ok a⟩ : Traced ρ ε α) >>= f = ⟨log ++ (f a).log, (f a).outcome⟩ := rfl

/-- A computation without a record hands its value on. -/
@[simp] theorem ok_bind_of_nil (a : α) (f : α → Traced ρ ε β) :
    (⟨[], .ok a⟩ : Traced ρ ε α) >>= f = f a := rfl

/-- Changing the result of a success leaves its record as it is. -/
@[simp] theorem map_ok (f : α → β) (log : List ρ) (a : α) :
    f <$> (⟨log, .ok a⟩ : Traced ρ ε α) = ⟨log, .ok (f a)⟩ := by
  simp [Functor.map, Traced.bind]

/-- Nothing happens behind a failure. -/
@[simp] theorem error_bind (log : List ρ) (e : ε) (f : α → Traced ρ ε β) :
    (⟨log, .error e⟩ : Traced ρ ε α) >>= f = ⟨log, .error e⟩ := rfl

/-- What two computations in turn come to does not depend on their records. -/
theorem outcome_bind (x : Traced ρ ε α) (f : α → Traced ρ ε β) :
    (x >>= f).outcome = x.outcome.bind fun a => (f a).outcome := by
  cases h : x.outcome <;> simp [bind_def, h, Except.bind]

/-- Computations that succeed are equal only with equal records and values. -/
theorem eq_of_ok {first second : List ρ} {a b : α}
    (h : (⟨first, .ok a⟩ : Traced ρ ε α) = ⟨second, .ok b⟩) : first = second ∧ a = b := by
  simpa using h

/-- A computation succeeds exactly when its two parts do. -/
theorem outcome_bind_eq_ok (x : Traced ρ ε α) (f : α → Traced ρ ε β) (b : β) :
    (x >>= f).outcome = .ok b ↔ ∃ a, x.outcome = .ok a ∧ (f a).outcome = .ok b := by
  cases h : x.outcome <;> simp [outcome_bind, h, Except.bind]

/-- A computation that succeeds is made of two that do, one behind the other. -/
theorem bind_eq_ok {x : Traced ρ ε α} {f : α → Traced ρ ε β} {log : List ρ} {b : β} :
    x >>= f = ⟨log, .ok b⟩ ↔
      ∃ first a second, x = ⟨first, .ok a⟩ ∧ f a = ⟨second, .ok b⟩ ∧ log = first ++ second := by
  obtain ⟨first, outcome⟩ := x
  cases outcome with
  | error e => simp
  | ok a =>
    constructor
    · intro h
      simp only [ok_bind, mk.injEq] at h
      exact ⟨first, a, (f a).log, rfl, by rw [← h.2], h.1.symm⟩
    · rintro ⟨_, _, second, hx, hf, rfl⟩
      cases hx
      simp [hf]

/-- A computation whose value is changed behind it succeeds exactly when it does itself. -/
theorem bind_pure_eq_ok {x : Traced ρ ε α} {f : α → β} {log : List ρ} {b : β} :
    (x >>= fun a => pure (f a)) = ⟨log, .ok b⟩ ↔ ∃ a, x = ⟨log, .ok a⟩ ∧ f a = b := by
  obtain ⟨first, outcome⟩ := x
  cases outcome with
  | error e => simp
  | ok a =>
    constructor
    · intro h
      simp only [ok_bind, log_pure, outcome_pure, List.append_nil, mk.injEq, Except.ok.injEq] at h
      exact ⟨a, by rw [h.1], h.2⟩
    · rintro ⟨_, hx, rfl⟩
      cases hx
      simp

instance : LawfulMonad (Traced ρ ε) :=
  LawfulMonad.mk' _
    (fun x => by
      obtain ⟨log, outcome⟩ := x
      cases outcome <;> simp [Functor.map, Traced.bind])
    (fun a f => by simp [bind_def])
    (fun x f g => by
      obtain ⟨log, outcome⟩ := x
      cases outcome with
      | error e => rfl
      | ok a => cases h : (f a).outcome <;> simp [bind_def, h])

end Traced

end GlimmerFormat
