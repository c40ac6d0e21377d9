namespace Except

variable {ε ε' α β : Type}

/-- A computation goes through if and only if both of its parts do. -/
theorem bind_eq_ok_iff {x : Except ε α} {f : α → Except ε β} {b : β} :
    (x >>= f) = .ok b ↔ ∃ a, x = .ok a ∧ f a = .ok b := by
  cases x <;> simp [bind, Except.bind]

theorem map_eq_ok_iff {x : Except ε α} {f : α → β} {b : β} :
    x.map f = .ok b ↔ ∃ a, x = .ok a ∧ f a = b := by
  cases x <;> simp [Except.map]

theorem mapError_eq_ok_iff {x : Except ε α} {f : ε → ε'} {a : α} :
    x.mapError f = .ok a ↔ x = .ok a := by
  cases x with
  | ok value => exact ⟨fun h => congrArg ok (ok.inj h), fun h => congrArg ok (ok.inj h)⟩
  | error cause => exact ⟨nofun, nofun⟩

theorem mapError_eq_error_iff {x : Except ε α} {f : ε → ε'} {cause : ε'} :
    x.mapError f = .error cause ↔ ∃ inner, x = .error inner ∧ f inner = cause := by
  cases x with
  | ok value => exact ⟨nofun, nofun⟩
  | error inner =>
      constructor
      · exact fun h => ⟨inner, rfl, error.inj h⟩
      · rintro ⟨_, hInner, rfl⟩
        cases hInner
        rfl

theorem pure_eq_ok_iff {a b : α} : (pure a : Except ε α) = .ok b ↔ a = b := by
  simp [pure, Except.pure]

theorem of_toOption_eq_some {x : Except ε α} {a : α} (h : x.toOption = some a) : x = .ok a := by
  cases x with
  | error cause => cases h
  | ok value => exact congrArg ok (Option.some.inj h)

/-- Why a computation ends without a value. -/
def error? : Except ε α → Option ε
  | .error cause => some cause
  | .ok _ => none

theorem error?_eq_some_iff {x : Except ε α} {cause : ε} :
    x.error? = some cause ↔ x = .error cause := by
  cases x <;> simp [error?]

end Except
