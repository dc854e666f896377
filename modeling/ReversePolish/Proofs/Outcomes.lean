import ReversePolish.Fault

/-! # Outcomes

`Returns P r` says what a computation returns if it returns, `FailsOnly E r` what it fails with if
it fails.  Both follow its steps. -/

namespace ReversePolish

/-- Every result of a computation satisfies `P`. -/
def Returns {α : Type} (P : α → Prop) (r : Except Failure α) : Prop := ∀ a, r = .ok a → P a

namespace Returns

variable {α β : Type} {P : α → Prop} {Q : β → Prop}

theorem ok {a : α} (h : P a) : Returns P (.ok a) := by
  intro b hb
  cases hb
  exact h

theorem error (failure : Failure) : Returns P (.error failure) := by
  intro a h
  cases h

theorem bind {x : Except Failure α} {f : α → Except Failure β}
    (hf : ∀ a, x = .ok a → Returns Q (f a)) : Returns Q (x >>= f) := by
  cases x with
  | error failure => exact error failure
  | ok a => exact hf a rfl

end Returns

/-- A computation that returns has returned from each of its steps. -/
theorem exists_of_bind_eq_ok {α β : Type} {x : Except Failure α} {f : α → Except Failure β} {b : β}
    (h : x >>= f = .ok b) : ∃ a, x = .ok a ∧ f a = .ok b := by
  cases x with
  | error failure => cases h
  | ok a => exact ⟨a, rfl, h⟩

/-- Every failure of a computation satisfies `E`. -/
def FailsOnly {α : Type} (E : Failure → Prop) (r : Except Failure α) : Prop :=
  ∀ failure, r = .error failure → E failure

namespace FailsOnly

variable {α β : Type} {E F : Failure → Prop}

theorem ok (a : α) : FailsOnly E (.ok a) := by
  intro failure h
  cases h

theorem error {failure : Failure} (h : E failure) : FailsOnly E (.error failure : Except _ α) := by
  intro failure' h'
  cases h'
  exact h

theorem bind {x : Except Failure α} {f : α → Except Failure β} (hx : FailsOnly E x)
    (hf : ∀ a, x = .ok a → FailsOnly E (f a)) : FailsOnly E (x >>= f) := by
  cases x with
  | error failure => exact error (hx failure rfl)
  | ok a => exact hf a rfl

theorem map {x : Except Failure α} {f : α → β} (hx : FailsOnly E x) : FailsOnly E (x.map f) := by
  cases x with
  | error failure => exact error (hx failure rfl)
  | ok a => exact ok (f a)

theorem mapError {x : Except Failure α} {g : Failure → Failure} (hx : FailsOnly E x)
    (hg : ∀ failure, E failure → F (g failure)) : FailsOnly F (x.mapError g) := by
  cases x with
  | error failure => exact error (hg failure (hx failure rfl))
  | ok a => exact ok a

end FailsOnly

end ReversePolish
