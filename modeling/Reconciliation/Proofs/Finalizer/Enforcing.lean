import Reconciliation.Finalizer
import Reconciliation.Proofs.Edit.Stages
import Reconciliation.Proofs.Store.Holding
import Reconciliation.Proofs.Task.Requests

/-!
What comes of seeing to a finalizer. `Taken` lists the two ways in which a resource comes to hold a
finalizer, and in both the stored document holds it too.
-/
namespace Reconciliation

theorem Resource.hasFinalizer_addFinalizer (name : String) (resource : Resource) :
    (resource.addFinalizer name).hasFinalizer name = true := by
  unfold Resource.addFinalizer
  split
  · assumption
  · simp [Resource.hasFinalizer, Resource.mapMetadata]

theorem Resource.isTerminating_addFinalizer (name : String) (resource : Resource) :
    (resource.addFinalizer name).isTerminating = resource.isTerminating := by
  unfold Resource.addFinalizer
  split <;> rfl

theorem Resource.key_addFinalizer (name : String) (resource : Resource) :
    (resource.addFinalizer name).key = resource.key := by
  unfold Resource.addFinalizer
  split <;> rfl

namespace Finalizer

variable {σ : Type} {finalizer : Finalizer σ} {now : Timestamp} {scene scene' : Scene σ}
  {store store' : Store} {made : List Request}

/-- How a resource comes to hold a finalizer, with the requests that are made for that. -/
inductive Taken (finalizer : Finalizer σ) (resource : Resource) (store : Store) :
    List Request → Resource → Store → Prop where
  | already (hHas : resource.hasFinalizer finalizer.name = true) :
    Taken finalizer resource store [] resource store
  | added {written : Resource} {store' : Store}
    (hLacks : resource.hasFinalizer finalizer.name = false)
    (hUpdate : store.update (resource.addFinalizer finalizer.name) = (.ok written, store')) :
    Taken finalizer resource store [.update (resource.addFinalizer finalizer.name)] written store'

theorem write_apply (resource : Resource) (scene : Scene σ) :
    write resource scene = Edit.renewal (.update resource) id scene := by
  refine congrArg (Program.call _) (funext fun answer => ?_)
  cases answer <;> rfl

theorem hold_apply (finalizer : Finalizer σ) (scene : Scene σ) :
    finalizer.hold scene =
      if scene.resource.hasFinalizer finalizer.name = true then .done (.ok (), scene)
      else Edit.renewal (.update (scene.resource.addFinalizer finalizer.name)) id scene := by
  show (if (!scene.resource.hasFinalizer finalizer.name) = true then
    write (scene.resource.addFinalizer finalizer.name) else pure ()) scene = _
  cases scene.resource.hasFinalizer finalizer.name with
  | true => rfl
  | false => exact write_apply _ scene

/-- To hold a resource is to take it, with nothing else done. -/
theorem ends_hold_ok_iff :
    finalizer.hold.Ends now scene store made ⟨.ok (), scene', store'⟩ ↔
      finalizer.Taken scene.resource store made scene'.resource store' ∧
        scene'.state = scene.state := by
  constructor
  · rintro ⟨hExec, hRequests⟩
    rw [Task.exec, hold_apply] at hExec
    rw [hold_apply] at hRequests
    cases hHas : scene.resource.hasFinalizer finalizer.name with
    | true =>
        rw [if_pos hHas] at hExec hRequests
        cases hExec
        cases hRequests
        exact ⟨.already hHas, rfl⟩
    | false =>
        rw [if_neg (by rw [hHas]; exact Bool.false_ne_true)] at hExec hRequests
        rcases hUpdate : store.update (scene.resource.addFinalizer finalizer.name) with ⟨answer, store₁⟩
        simp only [Edit.renewal, Program.run, Program.requests, Request.serve, hUpdate]
          at hExec hRequests
        cases answer with
        | error error => cases hExec
        | ok written =>
            cases hExec
            cases hRequests
            exact ⟨.added hHas hUpdate, rfl⟩
  · obtain ⟨result, state⟩ := scene'
    rintro ⟨hTaken, rfl⟩
    cases hTaken with
    | already hHas => exact ⟨by rw [Task.exec, hold_apply, if_pos hHas]; rfl,
        by rw [hold_apply, if_pos hHas]; rfl⟩
    | added hLacks hUpdate =>
        have hApply := hold_apply finalizer scene
        rw [if_neg (by rw [hLacks]; exact Bool.false_ne_true)] at hApply
        constructor
        · rw [Task.exec, hApply]
          simp only [Edit.renewal, Program.run, Request.serve, hUpdate, id]
        · rw [hApply]
          simp only [Edit.renewal, Program.requests, Request.serve, hUpdate, id]

theorem exec_write (resource : Resource) (now : Timestamp) (scene : Scene σ) (store : Store) :
    (write resource).exec now scene store =
      match store.update resource with
      | (.ok written, store') => ⟨.ok (), { scene with resource := written }, store'⟩
      | (.error error, store') => ⟨.error (.error (.store error)), scene, store'⟩ := by
  rw [write, Edit.renew, Task.exec_bind, Task.exec_update, Execution.andThen_ok]
  rcases store.update resource with ⟨error | written, store'⟩ <;> rfl

theorem exec_release (finalizer : Finalizer σ) (now : Timestamp) (scene : Scene σ)
    (store : Store) :
    finalizer.release.exec now scene store =
      if scene.resource.hasFinalizer finalizer.name = true then
        (write (scene.resource.removeFinalizer finalizer.name)).exec now scene store
      else ⟨.ok (), scene, store⟩ := by
  rw [release, Task.exec_bind, Task.exec_resource, Execution.andThen_ok]
  split <;> rfl

theorem exec_hold (finalizer : Finalizer σ) (now : Timestamp) (scene : Scene σ) (store : Store) :
    finalizer.hold.exec now scene store =
      if scene.resource.hasFinalizer finalizer.name = true then ⟨.ok (), scene, store⟩
      else (write (scene.resource.addFinalizer finalizer.name)).exec now scene store := by
  rw [hold, Task.exec_bind, Task.exec_resource, Execution.andThen_ok]
  cases scene.resource.hasFinalizer finalizer.name <;> rfl

/-- Where its failure is reported, a cleanup ends as it does on its own. -/
theorem cleanUp_apply_of_done {cleanup : Task σ Report Unit} {result : Except (Stop Report) Unit}
    (hCleanup : finalizer.cleanup = some cleanup) (hDone : cleanup scene = .done (result, scene')) :
    finalizer.cleanUp scene =
      .done (result.mapError (Stop.map (.cleanup finalizer.name)), scene') := by
  rw [cleanUp, hCleanup]
  show Program.bind (cleanup scene) _ = _
  rw [hDone]
  rcases result with (_ | _) | _ <;> rfl

/-- A cleanup that makes no requests makes none either where its failure is reported. -/
theorem quiet_cleanUp (h : ∀ cleanup, finalizer.cleanup = some cleanup → cleanup.Quiet) :
    finalizer.cleanUp.Quiet := by
  intro scene
  cases hCleanup : finalizer.cleanup with
  | none =>
      rw [cleanUp, hCleanup]
      exact ⟨_, rfl⟩
  | some cleanup =>
      obtain ⟨⟨result, left⟩, hDone⟩ := h cleanup hCleanup scene
      exact ⟨_, cleanUp_apply_of_done hCleanup hDone⟩

/-- A resource that is being deleted is cleaned up and released. -/
theorem enforce_apply_of_terminating (h : scene.resource.isTerminating = true) :
    finalizer.enforce scene =
      (finalizer.cleanUp >>= fun _ => finalizer.release >>= fun _ => pure true) scene := by
  show (if scene.resource.isTerminating = true then _ else _ : Task σ WorkError Bool) scene = _
  rw [if_pos h]

theorem enforce_apply_of_alive (h : scene.resource.isTerminating = false) :
    finalizer.enforce scene = (finalizer.hold >>= fun _ => pure false) scene := by
  show (if scene.resource.isTerminating = true then _ else _ : Task σ WorkError Bool) scene = _
  rw [h, if_neg Bool.false_ne_true]

/-- A resource that is being deleted is cleaned up and then released; any other one is held. -/
theorem exec_enforce (finalizer : Finalizer σ) (now : Timestamp) (scene : Scene σ)
    (store : Store) :
    finalizer.enforce.exec now scene store =
      if scene.resource.isTerminating = true then
        (finalizer.cleanUp.exec now scene store).andThen fun _ scene store =>
          (finalizer.release.exec now scene store).andThen fun _ scene store =>
            ⟨.ok true, scene, store⟩
      else (finalizer.hold.exec now scene store).andThen fun _ scene store =>
        ⟨.ok false, scene, store⟩ := by
  rw [enforce, Task.exec_bind, Task.exec_resource, Execution.andThen_ok]
  split
  · rw [Task.exec_bind]
    refine congrArg (Execution.andThen _) ?_
    funext _ scene store
    exact Task.exec_bind now scene store finalizer.release fun _ => pure true
  · rw [Task.exec_bind]
    rfl

/-- There is more to do of a resource on which the finalizer has been seen to if and only if it is
not being deleted. -/
theorem ends_enforce_eq_false_iff :
    finalizer.enforce.Ends now scene store made ⟨.ok false, scene', store'⟩ ↔
      scene.resource.isTerminating = false ∧
        finalizer.Taken scene.resource store made scene'.resource store' ∧
        scene'.state = scene.state := by
  constructor
  · intro h
    obtain ⟨_, _, _, _, _, rfl, hResource, hRest⟩ := Task.ends_bind_ok_iff.1 h
    obtain ⟨hExec, rfl⟩ := hResource
    cases hExec
    cases hTerminating : scene.resource.isTerminating with
    | true =>
        rw [if_pos hTerminating] at hRest
        obtain ⟨_, _, _, _, _, -, -, hReleased⟩ := Task.ends_bind_ok_iff.1 hRest
        obtain ⟨_, _, _, _, _, -, -, hDone⟩ := Task.ends_bind_ok_iff.1 hReleased
        cases (Task.ends_pure_iff.1 hDone).2
    | false =>
        rw [if_neg (by rw [hTerminating]; exact Bool.false_ne_true)] at hRest
        obtain ⟨_, _, _, _, _, rfl, hHold, hDone⟩ := Task.ends_bind_ok_iff.1 hRest
        obtain ⟨rfl, hEnd⟩ := Task.ends_pure_iff.1 hDone
        cases hEnd
        refine ⟨rfl, ?_⟩
        rw [List.append_nil]
        exact ends_hold_ok_iff.1 hHold
  · rintro ⟨hLives, hTaken⟩
    have hEnforce : (finalizer.hold >>= fun _ => pure false).Ends now scene store made
        ⟨.ok false, scene', store'⟩ :=
      Task.ends_bind_ok_iff.2 ⟨made, [], (), _, _, (List.append_nil made).symm,
        ends_hold_ok_iff.2 hTaken, Task.ends_pure_iff.2 ⟨rfl, rfl⟩⟩
    exact ⟨by rw [Task.exec, enforce_apply_of_alive hLives]; exact hEnforce.exec,
      by rw [enforce_apply_of_alive hLives]; exact hEnforce.requests⟩

/-- A resource that has come to hold a finalizer stands in the store with it, and is marked if it
was marked when it was fetched. -/
theorem Taken.exists_stored {resource result : Resource} {document : Json}
    (h : finalizer.Taken resource store made result store') (hSound : store.Sound)
    (hGet : store.objects.get? resource.key = some document)
    (hRead : Resource.ofJson document = .ok resource) :
    ∃ document', store'.objects.get? resource.key = some document' ∧
      document'.Holds finalizer.name ∧ document'.isMarked = resource.isTerminating ∧
      Resource.ofJson document' = .ok result := by
  cases h with
  | already hHas =>
      have hParts := (hSound.stored hGet).1
      exact ⟨document, hGet, (Json.holds_iff_of_ofJson hParts hRead).2 hHas,
        Json.isMarked_of_ofJson hParts hRead, hRead⟩
  | added hLacks hUpdate =>
      obtain ⟨document', -, hSame, hRead', hGet'⟩ := Store.exists_written_of_update hUpdate
      have hHolds := hSame.holds (Resource.holds_toObject.2
        (resource.hasFinalizer_addFinalizer finalizer.name))
      refine ⟨document', ?_, hHolds, ?_, hRead'⟩
      · rw [← resource.key_addFinalizer finalizer.name, hGet',
          if_neg (by rw [hHolds.isReleased]; exact Bool.false_ne_true)]
      · rw [hSame.isMarked, Resource.isMarked_toObject,
          resource.isTerminating_addFinalizer finalizer.name]

end Finalizer

end Reconciliation
