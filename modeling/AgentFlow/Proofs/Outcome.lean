/-!
# Outcomes of steps

A step that may fail gives its result to the next one, and what it fails with may be worded anew
on the way.

* `bind_eq_ok_iff`, `bind_eq_error_iff`: two steps give a result just if both do, and fail where one
  of them does.
* `Fails`, `fails_bind_iff`: that a step fails, whatever with.
* `map_eq_ok_iff`: a result that is put into another form.
* `mapError_eq_ok_iff`, `mapError_eq_error_iff`: errors that are worded anew are errors still.
* `failure?`: the error of a step, for steps that can be run.
-/

namespace AgentFlow

variable {ε ε' α β : Type}

theorem bind_eq_ok_iff {x : Except ε α} {f : α → Except ε β} {b : β} :
    x.bind f = .ok b ↔ ∃ a, x = .ok a ∧ f a = .ok b := by
  cases x <;> simp [Except.bind]

/-- `bind_eq_ok_iff` for the steps of a block. -/
theorem exists_of_bind_eq_ok {x : Except ε α} {f : α → Except ε β} {b : β}
    (h : x >>= f = .ok b) : ∃ a, x = .ok a ∧ f a = .ok b := bind_eq_ok_iff.1 h

theorem bind_eq_error_iff {x : Except ε α} {f : α → Except ε β} {e : ε} :
    x.bind f = .error e ↔ x = .error e ∨ ∃ a, x = .ok a ∧ f a = .error e := by
  cases x <;> simp [Except.bind]

/-- Whether a step fails. -/
def Fails (x : Except ε α) : Prop := ∃ e, x = .error e

@[simp] theorem fails_ok (a : α) : Fails (.ok a : Except ε α) ↔ False := by simp [Fails]

@[simp] theorem fails_error (e : ε) : Fails (.error e : Except ε α) ↔ True := by simp [Fails]

theorem exists_ok_of_not_fails {x : Except ε α} (h : ¬ Fails x) : ∃ a, x = .ok a := by
  cases x with
  | error e => exact absurd ⟨e, rfl⟩ h
  | ok a => exact ⟨a, rfl⟩

@[simp] theorem fails_bind_iff {x : Except ε α} {f : α → Except ε β} :
    Fails (x >>= f) ↔ Fails x ∨ ∃ a, x = .ok a ∧ Fails (f a) := by
  cases x <;> simp [Bind.bind, Except.bind]

@[simp] theorem fails_map_iff {x : Except ε α} {f : α → β} : Fails (x.map f) ↔ Fails x := by
  cases x <;> simp [Except.map]

theorem map_eq_ok_iff {f : α → β} {x : Except ε α} {b : β} :
    x.map f = .ok b ↔ ∃ a, x = .ok a ∧ f a = b := by
  cases x <;> simp [Except.map]

theorem mapError_eq_ok_iff {f : ε → ε'} {x : Except ε α} {a : α} :
    x.mapError f = .ok a ↔ x = .ok a := by
  cases x with
  | error e => exact iff_of_false (by rintro ⟨⟩) (by rintro ⟨⟩)
  | ok b => exact ⟨fun h => congrArg _ (Except.ok.inj h), fun h => congrArg _ (Except.ok.inj h)⟩

theorem mapError_eq_error_iff {f : ε → ε'} {x : Except ε α} {e' : ε'} :
    x.mapError f = .error e' ↔ ∃ e, x = .error e ∧ f e = e' := by
  cases x with
  | error e =>
    refine ⟨fun h => ⟨e, rfl, Except.error.inj h⟩, ?_⟩
    rintro ⟨_, ⟨⟩, rfl⟩
    rfl
  | ok b =>
    refine iff_of_false (by rintro ⟨⟩) ?_
    rintro ⟨_, ⟨⟩, -⟩

theorem eq_ok_of_toOption {x : Except ε α} {a : α} (h : x.toOption = some a) : x = .ok a := by
  cases x with
  | error e => cases h
  | ok b => exact congrArg Except.ok (Option.some.inj h)

/-- What a step fails with. -/
def failure? : Except ε α → Option ε
  | .error e => some e
  | .ok _ => none

theorem eq_error_of_failure? {x : Except ε α} {e : ε} (h : failure? x = some e) :
    x = .error e := by
  cases x with
  | error e' => exact congrArg Except.error (Option.some.inj h)
  | ok a => cases h

theorem exists_ok_of_any_toOption {x : Except ε α} {p : α → Bool} (h : x.toOption.any p = true) :
    ∃ a, x = .ok a ∧ p a = true := by
  cases x with
  | error e => cases h
  | ok a => exact ⟨a, rfl, h⟩

end AgentFlow
