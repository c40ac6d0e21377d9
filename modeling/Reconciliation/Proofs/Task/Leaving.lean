import Reconciliation.Proofs.Task.Composing

namespace Reconciliation

namespace Task

variable {σ ε α β γ : Type}

/-- A task that leaves the part of the state that is in view as it is, wherever it begins and
however it ends. -/
def Leaves (view : σ → γ) (task : Task σ ε α) : Prop :=
  ∀ now scene store, view (task.exec now scene store).scene.state = view scene.state

section

variable {view : σ → γ}

theorem leaves_observe {f : Resource → σ → α × σ}
    (h : ∀ resource state, view (f resource state).2 = view state) :
    (observe f : Task σ ε α).Leaves view :=
  fun _ scene _ => h scene.resource scene.state

variable {task : Task σ ε α}

/-- What each of two tasks leaves alone both leave alone. -/
theorem Leaves.bind {f : α → Task σ ε β} (h : task.Leaves view)
    (hNext : ∀ value, (f value).Leaves view) : (task >>= f).Leaves view := by
  intro now scene store
  have hFirst := h now scene store
  rw [exec_bind]
  rcases hExec : task.exec now scene store with ⟨reason | value, left, last⟩
  · rw [hExec] at hFirst
    exact hFirst
  · rw [hExec] at hFirst
    exact (hNext value now left last).trans hFirst

/-- What is put together from tasks leaves alone what they leave alone. -/
theorem composes_leaves : Composes fun {ε α} (task : Task σ ε α) => task.Leaves view where
  plain hPlain := fun now scene store => by
    obtain ⟨result, left, hDone, hState, -⟩ := hPlain scene
    rw [exec, hDone]
    exact congrArg view hState
  ask _ := fun _ _ _ => rfl
  bind := Leaves.bind
  mapError f hTask := fun now scene store => by
    rw [exec_mapError]
    exact hTask now scene store
  attempt hTask := fun now scene store => by
    rw [exec_attempt]
    exact hTask now scene store
  onCopy copy hTask := fun now scene store => by
    rw [exec_onCopy]
    exact hTask now { scene with resource := copy } store

end

end Task

end Reconciliation
