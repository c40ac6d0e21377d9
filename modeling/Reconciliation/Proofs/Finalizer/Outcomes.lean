import Reconciliation.Proofs.Finalizer.Phases
import Reconciliation.Proofs.Finalizer.Releasing

/-!
What comes of seeing to a finalizer whose cleanup leaves the resource in hand and the store alone.
`SeenTo` has one case for each way to end, and `Outcomes` says what is in the store and in hand then,
for resources that are being deleted and for others.
-/
namespace Reconciliation

namespace Resource

def withFinalizers (finalizers : List String) : Resource → Resource :=
  mapMetadata fun metadata => { metadata with finalizers }

def withVersion (version : String) : Resource → Resource :=
  mapMetadata fun metadata => { metadata with version := some version }

theorem hasFinalizer_iff {resource : Resource} {name : String} :
    resource.hasFinalizer name = true ↔ name ∈ resource.metadata.finalizers :=
  List.contains_iff_mem

theorem addFinalizer_eq {resource : Resource} {name : String}
    (h : name ∉ resource.metadata.finalizers) :
    resource.addFinalizer name =
      resource.withFinalizers (resource.metadata.finalizers ++ [name]) :=
  if_neg (mt hasFinalizer_iff.1 h)

theorem removeFinalizer_eq (resource : Resource) (name : String) :
    resource.removeFinalizer name =
      resource.withFinalizers (resource.metadata.finalizers.filter (· ≠ name)) := rfl

/-- What a resource is read as that was written under a new version and with the status it has. -/
theorem ofJson_setStatus_withVersion {resource : Resource} {status : Option Json}
    (hSound : resource.metadata.Sound) (hStatus : Status.MayReadFrom status resource.status)
    (hWritable : resource.unwritable = none) (version : String) :
    ofJson (((Json.object resource.toObject).setStatus status).withVersion version) =
      .ok (resource.withVersion version) := by
  have hMetadata := Metadata.readFrom_toObject hSound
  exact (ofJson_eq_ok_iff ((resource.parts.setStatus status).withVersion version)).2 {
    metadata := Metadata.readFrom_insert_version_iff.2 ⟨rfl, hMetadata.name, hMetadata.space,
      hMetadata.generation, hMetadata.finalizers, hMetadata.deletion⟩
    spec := rfl
    status := hStatus
    writable := hWritable }

end Resource

namespace Store

variable {store : Store} {resource : Resource}

/-- What comes of an update that changes nothing but the finalizers of a resource. It is refused, or
the resource stands in the store with these finalizers, unless that releases it. -/
inductive Relists (store : Store) (resource : Resource) (finalizers : List String) :
    Except StoreError Resource × Store → Prop where
  | refused {error : StoreError}
    (hRefuses : store.Refuses .update resource.key resource.metadata.version error) :
    Relists store resource finalizers (.error error, store.count .update)
  | written {document : Json} {written : Resource} {store' : Store}
    (hWritten : written =
      (resource.withFinalizers finalizers).withVersion (toString (store.version + 1)))
    (hRead : Resource.ofJson document = .ok written)
    (hGet : store'.objects.get? resource.key =
      if resource.isTerminating = true ∧ finalizers = [] then none else some document)
    (hElsewhere : ∀ key ≠ resource.key, store'.objects.get? key = store.objects.get? key) :
    Relists store resource finalizers (.ok written, store')

/-- An update that changes nothing but the finalizers relists the resource. -/
theorem Knows.relists (h : store.Knows resource.key resource) (hSound : store.Sound)
    (hWritable : resource.unwritable = none) (finalizers : List String) :
    store.Relists resource finalizers (store.update (resource.withFinalizers finalizers)) := by
  obtain ⟨number, -, hToken, hOnly⟩ := h
  let changed := resource.withFinalizers finalizers
  have hChanged : changed.unwritable = none := hWritable
  have hUpdate : store.update changed = store.write .update resource.key resource.metadata.version
      fun stored => (Json.object changed.toObject).setStatus stored.status? := by
    rw [update, Resource.toJson_eq_ok_iff.2 ⟨hChanged, rfl⟩]
    rfl
  rcases write_cases .update resource.key resource.metadata.version
      (fun stored => (Json.object changed.toObject).setStatus stored.status?) store with
    ⟨error, hRefuses, hWrite⟩ | ⟨document, hGet, hVersion, hWrite⟩
  · rw [hUpdate, hWrite]
    exact .refused hRefuses
  · -- The version that is expected is the one of the resource, so the document is.
    obtain ⟨-, hRead⟩ := hOnly hGet (hVersion _ hToken)
    have hParts := (hSound.stored hGet).1
    have hMetadata : changed.metadata.Sound := (Json.readFrom_of_ofJson hParts hRead).sound
    have hStatus := Resource.mayReadFrom_of_ofJson hParts hRead
    have hWritten := Resource.ofJson_setStatus_withVersion hMetadata hStatus hChanged
      (toString (store.version + 1))
    have hReleased := Json.isReleased_iff_of_ofJson
      ((changed.hasParts.setStatus document.status?).withVersion _) hWritten
    rw [hUpdate, hWrite, hWritten]
    refine .written rfl hWritten ?_ fun key hKey => ?_
    · rw [get?_commit, if_pos rfl]
      exact if_congr hReleased rfl rfl
    · rw [get?_commit, if_neg hKey]
      rfl

section

variable {finalizers : List String} {written : Resource} {store' : Store}

theorem Relists.written_eq (h : store.Relists resource finalizers (.ok written, store')) :
    written = (resource.withFinalizers finalizers).withVersion (toString (store.version + 1)) := by
  cases h with
  | written hWritten => exact hWritten

/-- A resource goes if and only if it is being deleted and was on its last finalizer. -/
theorem Relists.contains_eq_false_iff
    (h : store.Relists resource finalizers (.ok written, store')) :
    store'.contains resource.key = false ↔ resource.isTerminating = true ∧ finalizers = [] := by
  cases h with
  | written _ _ hGet =>
      rw [contains, hGet]
      split <;> simp_all

/-- A resource that stays is read back with these finalizers. -/
theorem Relists.peek_eq (h : store.Relists resource finalizers (.ok written, store'))
    (hStays : store'.contains resource.key = true) :
    store'.peek resource.key = some written := by
  have hHeld : ¬(resource.isTerminating = true ∧ finalizers = []) := fun hFree => by
    rw [h.contains_eq_false_iff.2 hFree] at hStays
    cases hStays
  cases h with
  | written _ hRead hGet => exact peek_eq_some (hGet.trans (if_neg hHeld)) hRead

/-- No other resource is touched. -/
theorem Relists.elsewhere (h : store.Relists resource finalizers (.ok written, store'))
    {key : Key} (hKey : key ≠ resource.key) :
    store'.objects.get? key = store.objects.get? key := by
  cases h with
  | written _ _ _ hElsewhere => exact hElsewhere key hKey

end

end Store

/-- A task that makes no requests and leaves the resource alone. -/
def Task.Detached {σ ε α : Type} (task : Task σ ε α) : Prop :=
  ∀ scene, ∃ result state, task scene = .done (result, { scene with state })

namespace Finalizer

variable {σ : Type} {finalizer : Finalizer σ} {now : Timestamp} {scene scene' : Scene σ}
  {store store' : Store}

theorem detached_cleanUp (h : ∀ cleanup, finalizer.cleanup = some cleanup → cleanup.Detached) :
    finalizer.cleanUp.Detached := by
  intro scene
  cases hCleanup : finalizer.cleanup with
  | none =>
      rw [cleanUp, hCleanup]
      exact ⟨_, _, rfl⟩
  | some cleanup =>
      obtain ⟨result, state, hDone⟩ := h cleanup hCleanup scene
      exact ⟨_, state, cleanUp_apply_of_done hCleanup hDone⟩

/-- How it ends to see to a finalizer whose cleanup is detached. -/
inductive SeenTo (finalizer : Finalizer σ) (now : Timestamp) (scene : Scene σ) (store : Store) :
    Execution σ WorkError Bool → Prop where
  | uncleaned {reason : Stop WorkError} {state : σ}
    (hTerminating : scene.resource.isTerminating = true)
    (hReason : (finalizer.cleanUp.exec now scene store).result = .error reason) :
    SeenTo finalizer now scene store ⟨.error reason, { scene with state }, store⟩
  | refused {error : StoreError} {state : σ}
    (hRefuses : store.Refuses .update scene.resource.key scene.resource.metadata.version error) :
    SeenTo finalizer now scene store
      ⟨.error (.error (.store error)), { scene with state }, store.count .update⟩
  | held (hAlive : scene.resource.isTerminating = false)
    (hHas : finalizer.name ∈ scene.resource.metadata.finalizers) :
    SeenTo finalizer now scene store ⟨.ok false, scene, store⟩
  | taken {written : Resource} {store' : Store} (hAlive : scene.resource.isTerminating = false)
    (hLacks : finalizer.name ∉ scene.resource.metadata.finalizers)
    (hRelists : store.Relists scene.resource
      (scene.resource.metadata.finalizers ++ [finalizer.name]) (.ok written, store')) :
    SeenTo finalizer now scene store ⟨.ok false, { scene with resource := written }, store'⟩
  | free {state : σ} (hTerminating : scene.resource.isTerminating = true)
    (hCleaned : (finalizer.cleanUp.exec now scene store).result = .ok ())
    (hLacks : finalizer.name ∉ scene.resource.metadata.finalizers) :
    SeenTo finalizer now scene store ⟨.ok true, { scene with state }, store⟩
  | released {written : Resource} {state : σ} {store' : Store}
    (hTerminating : scene.resource.isTerminating = true)
    (hCleaned : (finalizer.cleanUp.exec now scene store).result = .ok ())
    (hHas : finalizer.name ∈ scene.resource.metadata.finalizers)
    (hRelists : store.Relists scene.resource
      (scene.resource.metadata.finalizers.filter (· ≠ finalizer.name)) (.ok written, store')) :
    SeenTo finalizer now scene store ⟨.ok true, ⟨written, state⟩, store'⟩

/-- A write of other finalizers is refused, or the resource is relisted. -/
theorem exec_write_cases (scene : Scene σ)
    (hKnown : store.Knows scene.resource.key scene.resource) (hSound : store.Sound)
    (hWritable : scene.resource.unwritable = none) (finalizers : List String) (now : Timestamp) :
    (∃ error, store.Refuses .update scene.resource.key scene.resource.metadata.version error ∧
      (write (scene.resource.withFinalizers finalizers)).exec now scene store =
        ⟨.error (.error (.store error)), scene, store.count .update⟩) ∨
    ∃ written store', store.Relists scene.resource finalizers (.ok written, store') ∧
      (write (scene.resource.withFinalizers finalizers)).exec now scene store =
        ⟨.ok (), { scene with resource := written }, store'⟩ := by
  have hRelists := hKnown.relists hSound hWritable finalizers
  rw [exec_write]
  generalize store.update (scene.resource.withFinalizers finalizers) = outcome at hRelists
  obtain ⟨error | written, store'⟩ := outcome
  · cases hRelists with
    | refused hRefuses => exact .inl ⟨error, hRefuses, rfl⟩
  · exact .inr ⟨written, store', hRelists, rfl⟩

section

variable (hKnown : store.Knows scene.resource.key scene.resource) (hSound : store.Sound)
  (hWritable : scene.resource.unwritable = none)

include hKnown hSound hWritable

/-- A resource that is not being deleted is held, unless that is refused. -/
theorem seenTo_of_alive (hAlive : scene.resource.isTerminating = false) (now : Timestamp) :
    finalizer.SeenTo now scene store (finalizer.enforce.exec now scene store) := by
  rw [exec_enforce, hAlive, if_neg Bool.false_ne_true, exec_hold]
  by_cases hHas : finalizer.name ∈ scene.resource.metadata.finalizers
  · rw [if_pos (Resource.hasFinalizer_iff.2 hHas)]
    exact .held hAlive hHas
  · rw [if_neg (mt Resource.hasFinalizer_iff.1 hHas), Resource.addFinalizer_eq hHas]
    rcases exec_write_cases scene hKnown hSound hWritable
        (scene.resource.metadata.finalizers ++ [finalizer.name]) now with
      ⟨error, hRefuses, hWrite⟩ | ⟨written, store', hRelists, hWrite⟩
    · rw [hWrite]
      exact .refused hRefuses
    · rw [hWrite]
      exact .taken hAlive hHas hRelists

/-- A resource that is being deleted is cleaned up and released, unless one of these fails. -/
theorem seenTo_of_terminating (hTerminating : scene.resource.isTerminating = true)
    (hDetached : ∀ cleanup, finalizer.cleanup = some cleanup → cleanup.Detached)
    (now : Timestamp) :
    finalizer.SeenTo now scene store (finalizer.enforce.exec now scene store) := by
  obtain ⟨result, state, hDone⟩ := detached_cleanUp hDetached scene
  have hCleanUp : finalizer.cleanUp.exec now scene store =
      ⟨result, { scene with state }, store⟩ := by
    rw [Task.exec, hDone]
    rfl
  rw [exec_enforce, if_pos hTerminating, hCleanUp]
  cases result with
  | error reason => exact .uncleaned hTerminating (congrArg Execution.result hCleanUp)
  | ok _ =>
      have hCleaned := congrArg Execution.result hCleanUp
      rw [Execution.andThen_ok, exec_release]
      by_cases hHas : finalizer.name ∈ scene.resource.metadata.finalizers
      · rw [if_pos (Resource.hasFinalizer_iff.2 hHas), Resource.removeFinalizer_eq]
        -- The state is all that the cleanup has changed, and the writing does not depend on it.
        rcases exec_write_cases { scene with state } hKnown hSound hWritable
            (scene.resource.metadata.finalizers.filter (· ≠ finalizer.name)) now with
          ⟨error, hRefuses, hWrite⟩ | ⟨written, store', hRelists, hWrite⟩
        · rw [hWrite]
          exact .refused hRefuses
        · rw [hWrite]
          exact .released hTerminating hCleaned hHas hRelists
      · rw [if_neg (mt Resource.hasFinalizer_iff.1 hHas)]
        exact .free hTerminating hCleaned hHas

theorem seenTo_enforce
    (hDetached : ∀ cleanup, finalizer.cleanup = some cleanup → cleanup.Detached)
    (now : Timestamp) :
    finalizer.SeenTo now scene store (finalizer.enforce.exec now scene store) := by
  cases hTerminating : scene.resource.isTerminating with
  | true => exact seenTo_of_terminating hKnown hSound hWritable hTerminating hDetached now
  | false => exact seenTo_of_alive hKnown hSound hWritable hTerminating now

end

/-- What comes of seeing to a finalizer on a resource that stands in the store. -/
structure Outcomes (finalizer : Finalizer σ) (now : Timestamp) (scene : Scene σ) (store : Store) :
    Prop where
  /-- It succeeds unless the cleanup or the update fails. -/
  result : .update ∉ store.failing →
    (scene.resource.isTerminating = true →
      (finalizer.cleanUp.exec now scene store).result = .ok ()) →
    (finalizer.enforce.exec now scene store).result = .ok scene.resource.isTerminating
  /-- A resource that is not being deleted holds the finalizer then, and what it held before. -/
  held : ∀ {scene' store'},
    finalizer.enforce.exec now scene store = ⟨.ok false, scene', store'⟩ →
    scene.resource.isTerminating = false ∧
      scene'.resource =
        (if finalizer.name ∈ scene.resource.metadata.finalizers then scene.resource
        else (scene.resource.withFinalizers
          (scene.resource.metadata.finalizers ++ [finalizer.name])).withVersion
            (toString (store.version + 1))) ∧
      store'.peek scene.resource.key = some scene'.resource
  /-- Its cleanup has no part in that, -/
  unasked : scene.resource.isTerminating = false → ∀ cleanup,
    ({ finalizer with cleanup } : Finalizer σ).enforce scene = finalizer.enforce scene
  /-- and nothing is asked of the store when the finalizer is seen to once more. -/
  again : ∀ {scene' store'},
    finalizer.enforce.exec now scene store = ⟨.ok false, scene', store'⟩ →
    finalizer.enforce scene' = .done (.ok false, scene')
  /-- A resource that is being deleted has lost the finalizer, and leaves the store with its last
  one. -/
  released : ∀ {scene' store'},
    finalizer.enforce.exec now scene store = ⟨.ok true, scene', store'⟩ →
    scene.resource.isTerminating = true ∧
      (finalizer.cleanUp.exec now scene store).result = .ok () ∧
      scene'.resource =
        (if finalizer.name ∈ scene.resource.metadata.finalizers then
          (scene.resource.withFinalizers
            (scene.resource.metadata.finalizers.filter (· ≠ finalizer.name))).withVersion
              (toString (store.version + 1))
        else scene.resource) ∧
      (store'.contains scene.resource.key = false ↔
        finalizer.name ∈ scene.resource.metadata.finalizers ∧
          ∀ other ∈ scene.resource.metadata.finalizers, other = finalizer.name)
  agrees : ∀ {value scene' store'},
    finalizer.enforce.exec now scene store = ⟨.ok value, scene', store'⟩ →
    store'.contains scene.resource.key = true →
    store'.peek scene.resource.key = some scene'.resource
  elsewhere : ∀ key ≠ scene.resource.key,
    (finalizer.enforce.exec now scene store).store.objects.get? key = store.objects.get? key
  /-- What fails changes nothing, whatever others have asked of the store in the meantime: either
  the cleanup has failed, or the update was refused. -/
  failed : ∀ {later}, later.Reachable → store.Later later → ∀ {reason scene' store'},
    finalizer.enforce.exec now scene later = ⟨.error reason, scene', store'⟩ →
    store' = { later with calls := store'.calls } ∧ scene'.resource = scene.resource ∧
      (scene.resource.isTerminating = true ∧
          (finalizer.cleanUp.exec now scene later).result = .error reason ∨
        ∃ error, reason = .error (.store error) ∧
          later.Refuses .update scene.resource.key scene.resource.metadata.version error)

/-- If a cleanup leaves the resource and the store alone, then so does every failure, and what
succeeds changes nothing but the finalizer. -/
theorem outcomes_of_detached (hStore : store.Reachable)
    (hHeld : store.peek scene.resource.key = some scene.resource)
    (hDetached : ∀ cleanup, finalizer.cleanup = some cleanup → cleanup.Detached)
    (now : Timestamp) : finalizer.Outcomes now scene store := by
  obtain ⟨document, hFinds, -, -, hWritable⟩ := hStore.sound.exists_finds hHeld
  have hKnown := hStore.sound.knows_of_peek hHeld
  have hSeen : ∀ {execution}, finalizer.enforce.exec now scene store = execution →
      finalizer.SeenTo now scene store execution := fun h =>
    h ▸ seenTo_enforce hKnown hStore.sound hWritable hDetached now
  have hStands : store.contains scene.resource.key = true :=
    Option.isSome_iff_exists.2 ⟨document, hFinds.get_eq⟩
  exact {
    result := by
      intro hAllowed hCleaned
      generalize hEnforce : finalizer.enforce.exec now scene store = execution
      cases hSeen hEnforce with
      | uncleaned hTerminating hReason => cases hReason.symm.trans (hCleaned hTerminating)
      | refused hRefuses => exact absurd (hFinds.mem_failing hRefuses) hAllowed
      | held hAlive | taken hAlive => exact congrArg Except.ok hAlive.symm
      | free hTerminating | released hTerminating => exact congrArg Except.ok hTerminating.symm
    held := by
      intro scene' store' h
      cases hSeen h with
      | held hAlive hHas => exact ⟨hAlive, (if_pos hHas).symm, hHeld⟩
      | taken hAlive hLacks hRelists =>
          refine ⟨hAlive, hRelists.written_eq.trans (if_neg hLacks).symm, hRelists.peek_eq ?_⟩
          rw [← Bool.not_eq_false, hRelists.contains_eq_false_iff, hAlive]
          exact fun hFree => Bool.false_ne_true hFree.1
    unasked := fun hAlive cleanup => by
      rw [enforce_apply_of_alive hAlive, enforce_apply_of_alive hAlive]
      rfl
    again := by
      intro scene' store' h
      cases hSeen h with
      | held hAlive hHas => exact enforce_of_holding hAlive (Resource.hasFinalizer_iff.2 hHas)
      | taken hAlive _ hRelists =>
          obtain rfl := hRelists.written_eq
          refine enforce_of_holding hAlive (Resource.hasFinalizer_iff.2 ?_)
          exact List.mem_append_right _ (List.mem_singleton_self finalizer.name)
    released := by
      intro scene' store' h
      cases hSeen h with
      | free hTerminating hCleaned hLacks =>
          refine ⟨hTerminating, hCleaned, (if_neg hLacks).symm, ?_⟩
          rw [hStands]
          exact ⟨nofun, fun hLast => absurd hLast.1 hLacks⟩
      | released hTerminating hCleaned hHas hRelists =>
          refine ⟨hTerminating, hCleaned, hRelists.written_eq.trans (if_pos hHas).symm, ?_⟩
          rw [hRelists.contains_eq_false_iff, List.filter_eq_nil_iff]
          simp [hTerminating, hHas]
    agrees := by
      intro value scene' store' h hStays
      cases hSeen h with
      | held | free => exact hHeld
      | taken _ _ hRelists | released _ _ _ hRelists => exact hRelists.peek_eq hStays
    elsewhere := by
      intro key hKey
      generalize hEnforce : finalizer.enforce.exec now scene store = execution
      cases hSeen hEnforce with
      | taken _ _ hRelists | released _ _ _ hRelists => exact hRelists.elsewhere hKey
      | uncleaned | refused | held | free => rfl
    failed := by
      intro later hLater hSince reason scene' store' h
      have hFailed := seenTo_enforce (hKnown.later hSince) hLater.sound hWritable hDetached now
      rw [h] at hFailed
      cases hFailed with
      | uncleaned hTerminating hReason => exact ⟨rfl, rfl, .inl ⟨hTerminating, hReason⟩⟩
      | refused hRefuses => exact ⟨rfl, rfl, .inr ⟨_, rfl, hRefuses⟩⟩ }

def twiceHeld : Resource := Edit.plainResource.mapMetadata fun metadata =>
  { metadata with version := some "2", finalizers := ["f", "g", "f"], deletion := some default }

def twiceHeldStore : Store :=
  ((Store.insert (Edit.plainResource.withFinalizers ["f", "g", "f"]) {}).2.delete default
    twiceHeld.key).2

/-- A finalizer that counts its cleanups. -/
def counting : Finalizer Nat where
  name := "f"
  cleanup := some (Task.modifyState fun _ count => count + 1)

/-- Both are taken off at once after one cleanup, and the other finalizer keeps the resource. -/
theorem outcomes_of_counting :
    let ended := counting.enforce.exec default ⟨twiceHeld, 0⟩ twiceHeldStore
    twiceHeldStore.Reachable ∧ twiceHeldStore.peek twiceHeld.key = some twiceHeld ∧
      (∀ cleanup, counting.cleanup = some cleanup → cleanup.Detached) ∧
      ended.result = .ok true ∧ ended.scene.state = 1 ∧
      ended.scene.resource.metadata.finalizers = ["g"] ∧
      ended.store.contains twiceHeld.key = true ∧
      counting.Outcomes default ⟨twiceHeld, 0⟩ twiceHeldStore := by
  intro ended
  have hStore : twiceHeldStore.Reachable :=
    (Store.Reachable.serve .empty default
      (.insert (Edit.plainResource.withFinalizers ["f", "g", "f"]))).serve default
        (.delete twiceHeld.key)
  have hHeld : twiceHeldStore.peek twiceHeld.key = some twiceHeld := by decide +kernel
  have hDetached : ∀ cleanup, counting.cleanup = some cleanup → cleanup.Detached := by
    rintro _ ⟨⟩ scene
    exact ⟨_, _, rfl⟩
  exact ⟨hStore, hHeld, hDetached, Except.of_toOption_eq_some (by decide +kernel),
    by decide +kernel, by decide +kernel, by decide +kernel,
    outcomes_of_detached hStore hHeld hDetached default⟩

end Finalizer

end Reconciliation
