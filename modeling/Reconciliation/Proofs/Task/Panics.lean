import Reconciliation.Proofs.Task.Composing

/-!
What tasks panic with. Whatever is put together from tasks that panic with some payloads only panics
with these; the parts of an edit never panic on their own. An attempt of a task that never panics
always ends with a value.
-/
namespace Reconciliation

namespace Task

variable {σ ε ε' α β : Type}

/-- A task that panics, if it does so, with one of the payloads in question. -/
def PanicsWithin (may : Payload → Prop) (task : Task σ ε α) : Prop :=
  ∀ now scene store payload,
    (task.exec now scene store).result = .error (.panic payload) → may payload

/-- A task that ends with a value or an error wherever it begins. -/
def Calm (task : Task σ ε α) : Prop :=
  ∀ now scene store payload, (task.exec now scene store).result ≠ .error (.panic payload)

theorem calm_iff {task : Task σ ε α} : task.Calm ↔ task.PanicsWithin fun _ => False := Iff.rfl

section

variable {may : Payload → Prop}

theorem panicsWithin_ask (request : Request) :
    (ask request : Task σ ε request.Answer).PanicsWithin may := by
  intro now scene store payload h
  cases h

theorem panicsWithin_fail (cause : ε) : (fail cause : Task σ ε α).PanicsWithin may := by
  intro now scene store payload h
  cases h

/-- A task that only looks at what it works on, or changes that, does not panic. -/
theorem panicsWithin_of_done {task : Task σ ε α}
    (h : ∀ scene, ∃ value left, task scene = .done (.ok value, left)) :
    task.PanicsWithin may := by
  intro now scene store payload hPanic
  obtain ⟨value, left, hDone⟩ := h scene
  rw [exec, hDone] at hPanic
  cases hPanic

theorem panicsWithin_pure (value : α) : (Pure.pure value : Task σ ε α).PanicsWithin may :=
  panicsWithin_of_done fun _ => ⟨_, _, rfl⟩

theorem panicsWithin_resource : (resource : Task σ ε Resource).PanicsWithin may :=
  panicsWithin_of_done fun _ => ⟨_, _, rfl⟩

theorem panicsWithin_setResource (resource : Resource) :
    (setResource resource : Task σ ε Unit).PanicsWithin may :=
  panicsWithin_of_done fun _ => ⟨_, _, rfl⟩

theorem panicsWithin_modifyResource (f : Resource → Resource) :
    (modifyResource f : Task σ ε Unit).PanicsWithin may :=
  panicsWithin_of_done fun _ => ⟨_, _, rfl⟩

theorem panicsWithin_modifyState (f : Resource → σ → σ) :
    (modifyState f : Task σ ε Unit).PanicsWithin may :=
  panicsWithin_of_done fun _ => ⟨_, _, rfl⟩

theorem panicsWithin_observe (f : Resource → σ → α × σ) :
    (observe f : Task σ ε α).PanicsWithin may :=
  panicsWithin_of_done fun _ => ⟨_, _, rfl⟩

theorem panicsWithin_ofExcept (given : Except ε α) :
    (ofExcept given : Task σ ε α).PanicsWithin may := by
  cases given with
  | ok value => exact panicsWithin_pure value
  | error cause => exact panicsWithin_fail cause

variable {task : Task σ ε α}

/-- Two tasks panic with nothing but what each panics with. -/
theorem PanicsWithin.bind {f : α → Task σ ε β} (hTask : task.PanicsWithin may)
    (hNext : ∀ value, (f value).PanicsWithin may) : (task >>= f).PanicsWithin may := by
  intro now scene store payload
  rw [exec_bind]
  have hFirst := hTask now scene store payload
  rcases hExec : task.exec now scene store with ⟨reason | value, left, last⟩
  · rw [hExec] at hFirst
    exact fun h => hFirst (congrArg Except.error (Except.error.inj h))
  · exact hNext value now left last payload

theorem PanicsWithin.mapError (hTask : task.PanicsWithin may) (f : ε → ε') :
    (task.mapError f).PanicsWithin may := by
  intro now scene store payload
  rw [exec_mapError]
  have hFirst := hTask now scene store payload
  rcases hExec : task.exec now scene store with ⟨(found | cause) | value, left, last⟩
  · rw [hExec] at hFirst
    intro h
    cases h
    exact hFirst rfl
  · exact nofun
  · exact nofun

theorem PanicsWithin.onCopy (hTask : task.PanicsWithin may) (copy : Resource) :
    (task.onCopy copy).PanicsWithin may := by
  intro now scene store payload
  rw [exec_onCopy]
  have hFirst := hTask now { scene with resource := copy } store payload
  rcases hExec : task.exec now { scene with resource := copy } store with
    ⟨reason | value, left, last⟩
  · rw [hExec] at hFirst
    exact fun h => hFirst (congrArg Except.error (Except.error.inj h))
  · exact nofun

/-- To attempt a task does not keep it from panicking, and adds no panic. -/
theorem PanicsWithin.attempt (hTask : task.PanicsWithin may) :
    (task.attempt : Task σ ε' (Except ε α)).PanicsWithin may := by
  intro now scene store payload
  rw [exec_attempt]
  have hFirst := hTask now scene store payload
  rcases hExec : task.exec now scene store with ⟨(found | cause) | value, left, last⟩
  · rw [hExec] at hFirst
    intro h
    cases h
    exact hFirst rfl
  · exact nofun
  · exact nofun

/-- What is put together from tasks panics as they do. -/
theorem composes_panicsWithin :
    Composes fun {ε α} (task : Task σ ε α) => task.PanicsWithin may where
  plain hPlain := by
    intro now scene store payload hPanic
    obtain ⟨result, left, hDone, -, hResult⟩ := hPlain scene
    rw [exec, hDone] at hPanic
    exact absurd hPanic (hResult payload)
  ask := panicsWithin_ask
  bind := PanicsWithin.bind
  mapError f hTask := hTask.mapError f
  attempt := PanicsWithin.attempt
  onCopy copy hTask := hTask.onCopy copy

/-- A panic that is taken for a value is none. -/
theorem panicsWithin_contain (task : Task σ ε α) :
    (task.contain : Task σ ε' (Except (Stop ε) α)).PanicsWithin may := by
  intro now scene store payload
  rw [exec_contain]
  exact nofun

/-- A calm task ends with a value or with an error. -/
theorem Calm.exec_cases (hTask : task.Calm) (now : Timestamp) (scene : Scene σ) (store : Store) :
    (∃ value scene' store', task.exec now scene store = ⟨.ok value, scene', store'⟩) ∨
      ∃ cause scene' store', task.exec now scene store = ⟨.error (.error cause), scene', store'⟩ := by
  have hFirst := hTask now scene store
  rcases hExec : task.exec now scene store with ⟨(found | cause) | value, left, last⟩
  · rw [hExec] at hFirst
    exact absurd rfl (hFirst found)
  · exact .inr ⟨cause, left, last, rfl⟩
  · exact .inl ⟨value, left, last, rfl⟩

/-- A calm task that has no errors ends with a value. -/
theorem Calm.exec_ok {task : Task σ Empty α} (hTask : task.Calm) (now : Timestamp)
    (scene : Scene σ) (store : Store) :
    ∃ value scene' store', task.exec now scene store = ⟨.ok value, scene', store'⟩ := by
  rcases hTask.exec_cases now scene store with hValue | ⟨impossible, _⟩
  · exact hValue
  · cases impossible

end

end Task

end Reconciliation
