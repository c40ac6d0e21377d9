import Reconciliation.Finalizer
import Reconciliation.Task.Execution

/-!
Properties of tasks that a whole has if its parts have them. What is put together from requests and
plain tasks alone, as the parts of an edit are, has every such property.
-/
namespace Reconciliation

namespace Task

variable {σ ε α : Type}

/-- A task that makes no requests, leaves the state as it is and does not panic. -/
def Plain (task : Task σ ε α) : Prop :=
  ∀ scene, ∃ result left, task scene = .done (result, left) ∧ left.state = scene.state ∧
    ∀ payload, result ≠ .error (.panic payload)

theorem plain_pure (value : α) : (Pure.pure value : Task σ ε α).Plain :=
  fun _ => ⟨_, _, rfl, rfl, nofun⟩

theorem plain_fail (cause : ε) : (fail cause : Task σ ε α).Plain :=
  fun _ => ⟨_, _, rfl, rfl, nofun⟩

theorem plain_resource : (resource : Task σ ε Resource).Plain :=
  fun _ => ⟨_, _, rfl, rfl, nofun⟩

theorem plain_setResource (resource : Resource) : (setResource resource : Task σ ε Unit).Plain :=
  fun _ => ⟨_, _, rfl, rfl, nofun⟩

theorem plain_ofExcept (given : Except ε α) : (ofExcept given : Task σ ε α).Plain := by
  cases given with
  | ok value => exact plain_pure value
  | error cause => exact plain_fail cause

/-- A property that plain tasks and requests have, and that a task has if the tasks have it that it
is put together from. -/
structure Composes (holds : ∀ {ε α : Type}, Task σ ε α → Prop) : Prop where
  plain : ∀ {ε α : Type} {task : Task σ ε α}, task.Plain → holds task
  ask : ∀ {ε : Type} (request : Request), holds (ask request : Task σ ε request.Answer)
  bind : ∀ {ε α β : Type} {task : Task σ ε α} {f : α → Task σ ε β}, holds task →
    (∀ value, holds (f value)) → holds (task >>= f)
  mapError : ∀ {ε ε' α : Type} {task : Task σ ε α} (f : ε → ε'), holds task →
    holds (task.mapError f)
  attempt : ∀ {ε ε' α : Type} {task : Task σ ε α}, holds task →
    holds (task.attempt : Task σ ε' (Except ε α))
  onCopy : ∀ {ε α : Type} {task : Task σ ε α} (copy : Resource), holds task →
    holds (task.onCopy copy)

namespace Composes

variable {holds : ∀ {ε α : Type}, Task σ ε α → Prop}

theorem pure (h : Composes @holds) (value : α) : holds (Pure.pure value : Task σ ε α) :=
  h.plain (plain_pure value)

theorem renew (h : Composes @holds) {request : Task σ WorkError (Except StoreError Resource)}
    (hRequest : holds request) : holds (Edit.renew request) :=
  h.bind hRequest fun _ => h.bind (h.plain (plain_ofExcept _)) fun resource =>
    h.plain (plain_setResource resource)

theorem capture (h : Composes @holds) (resource : Resource) :
    holds (Edit.capture resource : Task σ WorkError Snapshot) :=
  h.plain (plain_ofExcept _)

/-- Fetching is put together from a request and plain tasks. -/
theorem fetch (h : Composes @holds) : holds (Edit.fetch : Task σ WorkError Edit.Base) :=
  h.bind (h.plain plain_resource) fun _ => h.bind (h.renew (h.ask _)) fun _ =>
    h.bind (h.plain plain_resource) fun resource => h.bind (h.capture resource) fun _ =>
      h.pure _

theorem writeMain (h : Composes @holds) (base : Edit.Base) :
    holds (Edit.writeMain base : Task σ WorkError Unit) :=
  h.bind (h.plain plain_resource) fun _ => h.renew (h.ask _)

theorem writeStatus (h : Composes @holds) (base : Edit.Base) :
    holds (Edit.writeStatus base : Task σ WorkError Unit) :=
  h.bind (h.plain plain_resource) fun _ => h.renew (h.ask _)

/-- Writing the status after the rest is put together from plain tasks and a request. -/
theorem writeStatusAfterMain (h : Composes @holds) (before after : Option Json) :
    holds (Edit.writeStatusAfterMain before after : Task σ WorkError Unit) :=
  h.bind (h.plain plain_resource) fun _ => h.bind (h.plain (plain_ofExcept _)) fun _ =>
    h.bind (h.plain (plain_ofExcept _)) fun _ => h.renew (h.ask _)

/-- To write what has changed, without a hook. -/
theorem persist (h : Composes @holds) (base : Edit.Base) (aborted : Bool) :
    holds (Edit.persist base aborted none : Task σ WorkError Written) := by
  refine h.bind (h.plain plain_resource) fun resource => ?_
  dsimp only
  split
  · exact h.plain (plain_fail _)
  · split
    · exact h.pure _
    · have hTarget : holds (Edit.target base none : Task σ WorkError Snapshot) :=
        h.bind (h.plain plain_resource) fun _ => h.bind (h.capture _) fun _ => h.pure _
      refine h.bind hTarget fun after => ?_
      split
      · exact h.pure _
      · exact h.bind (h.writeMain base) fun _ => h.pure _
      · exact h.bind (h.writeMain base) fun _ =>
          h.bind (h.writeStatusAfterMain _ _) fun _ => h.pure _
      · exact h.bind (h.writeStatus base) fun _ => h.pure _

/-- An edit that has no hook. -/
theorem run (h : Composes @holds) {μ : Type} {edit : Edit σ μ} (hMutate : holds edit.mutate)
    (hNone : edit.onChange = none) : holds edit.run := by
  refine h.bind (h.attempt h.fetch) fun fetched => ?_
  cases fetched with
  | error error => exact h.pure _
  | ok base =>
      refine h.bind hMutate fun value => h.bind ?_ fun _ => h.pure _
      rw [hNone]
      exact h.attempt (h.persist base _)

/-- A finalizer has the properties of its cleanup. -/
theorem enforce (h : Composes @holds) {finalizer : Finalizer σ}
    (hCleanup : ∀ cleanup, finalizer.cleanup = some cleanup → holds cleanup) :
    holds finalizer.enforce := by
  have hWrite (resource : Resource) : holds (Finalizer.write resource : Task σ _ Unit) :=
    h.renew (h.ask _)
  have hCleanUp : holds finalizer.cleanUp := by
    unfold Finalizer.cleanUp
    cases hSome : finalizer.cleanup with
    | none => exact h.pure ()
    | some cleanup => exact h.mapError _ (hCleanup cleanup hSome)
  refine h.bind (h.plain plain_resource) fun resource => ?_
  split
  · refine h.bind hCleanUp fun _ => h.bind ?_ fun _ => h.pure true
    refine h.bind (h.plain plain_resource) fun resource => ?_
    split
    · exact hWrite _
    · exact h.pure ()
  · refine h.bind ?_ fun _ => h.pure false
    refine h.bind (h.plain plain_resource) fun resource => ?_
    split
    · exact hWrite _
    · exact h.pure ()

end Composes

end Task

end Reconciliation
