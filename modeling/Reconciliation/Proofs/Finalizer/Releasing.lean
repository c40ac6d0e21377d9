import Reconciliation.Proofs.Edit.Effect
import Reconciliation.Proofs.Finalizer.Enforcing
import Reconciliation.Proofs.Store.Showing

/-!
What is left of a finalizer once it has been seen to on a resource that is being deleted. The release
goes by the resource as the cleanup has left it in hand. If the finalizer is there, it is taken off
the stored resource; if the cleanup has taken it off already, nothing is written, and the stored
resource keeps it.
-/
namespace Reconciliation

theorem Resource.hasFinalizer_removeFinalizer (name : String) (resource : Resource) :
    (resource.removeFinalizer name).hasFinalizer name = false := by
  simp [removeFinalizer, hasFinalizer, mapMetadata]

/-- An update is answered with the finalizers that it was asked to write. -/
theorem Store.hasFinalizer_of_update {store store' : Store} {resource result : Resource}
    (h : store.update resource = (.ok result, store')) (name : String) :
    result.hasFinalizer name = resource.hasFinalizer name := by
  obtain ⟨document, hParts, hSame, hRead, -⟩ := exists_written_of_update h
  rw [Bool.eq_iff_iff, ← Json.holds_iff_of_ofJson hParts hRead, ← Resource.holds_toObject]
  exact ⟨hSame.symm.holds, hSame.holds⟩

namespace Finalizer

variable {σ : Type} {finalizer : Finalizer σ} {now : Timestamp} {scene scene' : Scene σ}
  {store store' : Store}

/-- How a resource comes to be free of a finalizer. -/
inductive Freed (finalizer : Finalizer σ) (resource : Resource) (store : Store) :
    Resource → Store → Prop where
  | already (hLacks : resource.hasFinalizer finalizer.name = false) :
    Freed finalizer resource store resource store
  | taken {written : Resource} {store' : Store}
    (hHas : resource.hasFinalizer finalizer.name = true)
    (hUpdate : store.update (resource.removeFinalizer finalizer.name) = (.ok written, store')) :
    Freed finalizer resource store written store'

/-- A release that goes through has freed the resource in hand. -/
theorem freed_of_release (h : finalizer.release.exec now scene store = ⟨.ok (), scene', store'⟩) :
    finalizer.Freed scene.resource store scene'.resource store' := by
  rw [exec_release] at h
  cases hHas : scene.resource.hasFinalizer finalizer.name with
  | false =>
      rw [hHas, if_neg Bool.false_ne_true] at h
      cases h
      exact .already hHas
  | true =>
      rw [if_pos hHas, exec_write] at h
      rcases hUpdate : store.update (scene.resource.removeFinalizer finalizer.name) with
        ⟨error | written, last⟩
      · rw [hUpdate] at h
        cases h
      · rw [hUpdate] at h
        cases h
        exact .taken hHas hUpdate

/-- A finalizer that has been seen to on a stored resource that is being deleted is still there
afterwards if and only if the cleanup has taken it off the resource in hand. -/
theorem hasFinalizer_of_enforce_iff (hStore : store.Reachable)
    (hHeld : store.peek scene.resource.key = some scene.resource)
    (hTerminating : scene.resource.isTerminating = true)
    (hQuiet : ∀ cleanup, finalizer.cleanup = some cleanup → cleanup.Quiet)
    (hKey : (finalizer.cleanUp.exec now scene store).scene.resource.key = scene.resource.key)
    (hEnforce : finalizer.enforce.exec now scene store = ⟨.ok true, scene', store'⟩) :
    (∃ found, store'.peek scene.resource.key = some found ∧
        found.hasFinalizer finalizer.name = true) ↔
      scene.resource.hasFinalizer finalizer.name = true ∧
        (finalizer.cleanUp.exec now scene store).scene.resource.hasFinalizer finalizer.name =
          false := by
  rw [Task.exec, enforce_apply_of_terminating hTerminating, ← Task.exec] at hEnforce
  obtain ⟨_, cleaned, store₁, hCleaned, hRest⟩ := Task.exec_bind_eq_ok_iff.1 hEnforce
  obtain ⟨_, _, _, hReleased, hReturn⟩ := Task.exec_bind_eq_ok_iff.1 hRest
  rw [Task.exec_pure] at hReturn
  cases hReturn
  obtain ⟨rfl, -⟩ := (quiet_cleanUp hQuiet).exec_store hCleaned store
  rw [hCleaned] at hKey ⊢
  have hFreed := freed_of_release hReleased
  generalize scene'.resource = result at hFreed
  cases hFreed with
  | already hLacks =>
      constructor
      · rintro ⟨found, hFound, hHas⟩
        cases hHeld.symm.trans hFound
        exact ⟨hHas, hLacks⟩
      · rintro ⟨hHas, -⟩
        exact ⟨_, hHeld, hHas⟩
  | taken hHas hUpdate =>
      have hReplies := hStore.replies_update (cleaned.resource.removeFinalizer finalizer.name)
      rw [hUpdate] at hReplies
      cases hReplies with
      | given hSame hCurrent =>
          have hWritten : result.key = scene.resource.key := hSame.trans hKey
          constructor
          · rintro ⟨found, hFound, hStays⟩
            rw [hCurrent found (hWritten.symm ▸ hFound), Store.hasFinalizer_of_update hUpdate,
              Resource.hasFinalizer_removeFinalizer] at hStays
            cases hStays
          · rintro ⟨-, hLacks⟩
            cases hHas.symm.trans hLacks

def leavingStore : Store :=
  ((Store.insert (Edit.plainResource.addFinalizer "f") {}).2.delete default
    Edit.plainResource.key).2

def leaving : Resource := Edit.plainResource.mapMetadata fun metadata =>
  { metadata with version := some "2", finalizers := ["f"], deletion := some default }

theorem leavingStore_reachable : leavingStore.Reachable :=
  (Store.Reachable.serve .empty default (.insert (Edit.plainResource.addFinalizer "f"))).serve
    default (.delete Edit.plainResource.key)

/-- A finalizer whose cleanup changes the specification and hands over to another finalizer. -/
def handover : Finalizer Unit where
  name := "f"
  cleanup := some (Task.modifyResource fun resource =>
    { resource.addFinalizer "g" with spec := .bool true })

/-- The finalizer is off the stored resource then, and the other one is on it. -/
theorem hasFinalizer_of_enforce_iff_of_handover :
    let cleaned := (handover.cleanUp.exec default ⟨leaving, ()⟩ leavingStore).scene.resource
    let ended := handover.enforce.exec default ⟨leaving, ()⟩ leavingStore
    leavingStore.Reachable ∧ leavingStore.peek leaving.key = some leaving ∧
      leaving.isTerminating = true ∧
      (∀ cleanup, handover.cleanup = some cleanup → cleanup.Quiet) ∧
      cleaned.key = leaving.key ∧ ended.result = .ok true ∧
      (ended.store.peek leaving.key).map (·.metadata.finalizers) = some ["g"] ∧
      ((∃ found, ended.store.peek leaving.key = some found ∧ found.hasFinalizer "f" = true) ↔
        leaving.hasFinalizer "f" = true ∧ cleaned.hasFinalizer "f" = false) := by
  intro cleaned ended
  have hHeld : leavingStore.peek leaving.key = some leaving := by decide +kernel
  have hQuiet : ∀ cleanup, handover.cleanup = some cleanup → cleanup.Quiet := by
    rintro _ ⟨⟩ scene
    exact ⟨_, rfl⟩
  have hKey : cleaned.key = leaving.key := by decide +kernel
  have hResult : ended.result = .ok true := Except.of_toOption_eq_some (by decide +kernel)
  have hEnforce : handover.enforce.exec default ⟨leaving, ()⟩ leavingStore =
      ⟨.ok true, ended.scene, ended.store⟩ := by
    rw [← hResult]
  exact ⟨leavingStore_reachable, hHeld, rfl, hQuiet, hKey, hResult, by decide +kernel,
    hasFinalizer_of_enforce_iff leavingStore_reachable hHeld rfl hQuiet hKey hEnforce⟩

/-- A finalizer whose cleanup takes it off the resource in hand. -/
def hasty : Finalizer Unit where
  name := "f"
  cleanup := some (Task.modifyResource (Resource.removeFinalizer "f"))

/-- A finalizer that its cleanup takes off in hand stays on the stored resource, though it is said
that there is nothing else to do. -/
theorem not_freed_of_hasty :
    let cleaned := (hasty.cleanUp.exec default ⟨leaving, ()⟩ leavingStore).scene.resource
    let ended := hasty.enforce.exec default ⟨leaving, ()⟩ leavingStore
    leavingStore.Reachable ∧ leavingStore.peek leaving.key = some leaving ∧
      leaving.isTerminating = true ∧
      (∀ cleanup, hasty.cleanup = some cleanup → cleanup.Quiet) ∧
      cleaned.key = leaving.key ∧ cleaned.metadata.version = leaving.metadata.version ∧
      ended.result = .ok true ∧
      ¬∀ found, ended.store.peek leaving.key = some found → found.hasFinalizer "f" = false := by
  intro cleaned ended
  have hQuiet : ∀ cleanup, hasty.cleanup = some cleanup → cleanup.Quiet := by
    rintro _ ⟨⟩ scene
    exact ⟨_, rfl⟩
  have hStays : ended.store.peek leaving.key = some leaving := by decide +kernel
  refine ⟨leavingStore_reachable, by decide +kernel, rfl, hQuiet, by decide +kernel,
    by decide +kernel, Except.of_toOption_eq_some (by decide +kernel), fun hFreed => ?_⟩
  cases hFreed leaving hStays

end Finalizer

end Reconciliation
