import Mathlib.Init

/-!
# Results that are not refused

A computation that may be refused has a result exactly when each of its parts has one. These
equivalences take such a result apart, part by part.

## Main results

* `Except.bind_eq_ok`, `Except.map_eq_ok` — the results of a sequence and of an image
* `Except.bind_eq_error`, `Except.map_eq_error` — the refusals of a sequence and of an image
* `Except.isOk_iff`, `Except.isOk_eq_false_iff` — whether there is a result
* `Except.ite_error_eq_ok` — the results behind a check
* `Except.mapError_eq_ok` — the results when refusals are renamed
* `Except.mapError_bind`, `Except.mapError_ite_error` — refusals renamed part by part
-/

namespace Except

universe u

variable {ε δ α β : Type u}

theorem bind_eq_ok {x : Except ε α} {f : α → Except ε β} {b : β} :
    (x >>= f) = .ok b ↔ ∃ a, x = .ok a ∧ f a = .ok b := by
  cases x with
  | error reason =>
    constructor
    · rintro ⟨⟩
    · rintro ⟨a, ⟨⟩, -⟩
  | ok a =>
    constructor
    · intro h
      exact ⟨a, rfl, h⟩
    · rintro ⟨a, ⟨⟩, h⟩
      exact h

theorem map_eq_ok {x : Except ε α} {f : α → β} {b : β} :
    x.map f = .ok b ↔ ∃ a, x = .ok a ∧ f a = b := by
  cases x with
  | error reason =>
    constructor
    · rintro ⟨⟩
    · rintro ⟨a, ⟨⟩, -⟩
  | ok a =>
    constructor
    · intro h
      exact ⟨a, rfl, Except.ok.inj h⟩
    · rintro ⟨a, ⟨⟩, h⟩
      exact congrArg Except.ok h

/-- The image of a result is refused when the result is, for the same reason. -/
theorem map_eq_error {x : Except ε α} {f : α → β} {reason : ε} :
    x.map f = .error reason ↔ x = .error reason := by
  cases x with
  | error cause =>
    constructor
    · rintro ⟨⟩
      rfl
    · rintro ⟨⟩
      rfl
  | ok a =>
    constructor
    · rintro ⟨⟩
    · rintro ⟨⟩

/-- A sequence is refused by its first part, or by the second one. -/
theorem bind_eq_error {x : Except ε α} {f : α → Except ε β} {reason : ε} :
    (x >>= f) = .error reason ↔
      x = .error reason ∨ ∃ a, x = .ok a ∧ f a = .error reason := by
  cases x with
  | error cause =>
    constructor
    · rintro ⟨⟩
      exact .inl rfl
    · rintro (⟨⟨⟩⟩ | ⟨a, ⟨⟩, -⟩)
      rfl
  | ok a =>
    constructor
    · intro h
      exact .inr ⟨a, rfl, h⟩
    · rintro (⟨⟨⟩⟩ | ⟨b, ⟨⟩, h⟩)
      exact h

theorem isOk_iff {x : Except ε α} : x.isOk = true ↔ ∃ a, x = .ok a := by
  cases x with
  | error reason =>
    constructor
    · rintro ⟨⟩
    · rintro ⟨a, ⟨⟩⟩
  | ok a => exact ⟨fun _ => ⟨a, rfl⟩, fun _ => rfl⟩

theorem isOk_eq_false_iff {x : Except ε α} : x.isOk = false ↔ ∃ reason, x = .error reason := by
  cases x with
  | error reason => exact ⟨fun _ => ⟨reason, rfl⟩, fun _ => rfl⟩
  | ok a =>
    constructor
    · rintro ⟨⟩
    · rintro ⟨reason, ⟨⟩⟩

/-- A check that refuses, and what comes after it. -/
theorem ite_error_eq_ok {p : Prop} [Decidable p] {reason : ε} {x : Except ε α} {a : α} :
    (if p then .error reason else x) = .ok a ↔ ¬ p ∧ x = .ok a := by
  by_cases h : p
  · rw [if_pos h]
    constructor
    · rintro ⟨⟩
    · rintro ⟨hn, -⟩
      exact absurd h hn
  · rw [if_neg h]
    constructor
    · intro hx
      exact ⟨h, hx⟩
    · rintro ⟨-, hx⟩
      exact hx

/-! ### Renamed refusals -/

theorem mapError_eq_ok {x : Except ε α} {f : ε → δ} {a : α} :
    x.mapError f = .ok a ↔ x = .ok a := by
  cases x with
  | error reason =>
    constructor
    · rintro ⟨⟩
    · rintro ⟨⟩
  | ok b =>
    constructor
    · rintro ⟨⟩
      rfl
    · rintro ⟨⟩
      rfl

theorem mapError_bind (x : Except ε α) (g : α → Except ε β) (f : ε → δ) :
    (x >>= g).mapError f = x.mapError f >>= fun a => (g a).mapError f := by
  cases x <;> rfl

/-- A check whose refusal is renamed, and what comes after it. -/
theorem mapError_ite_error {p : Prop} [Decidable p] {reason : ε} {f : ε → δ} {x : Except δ α}
    {y : Except ε α} (h : ¬ p → x = y.mapError f) :
    (if p then .error (f reason) else x) = (if p then .error reason else y).mapError f := by
  by_cases hp : p
  · rw [if_pos hp, if_pos hp]
    rfl
  · rw [if_neg hp, if_neg hp]
    exact h hp

end Except
