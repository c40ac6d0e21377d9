import Reconciliation.Proofs.Engine.Invocation
import Reconciliation.Proofs.Engine.Order
import Reconciliation.Proofs.Engine.Tracking
import Reconciliation.Proofs.Finalizer.Releasing

/-!
The record of a finalizer that could not be seen to. An engine writes it if the cleanup of a resource
that is to be deleted fails, but also if the store refuses the finalizer to be put on a resource or
to be taken off it. `Finalizer.Fails` tells these apart. In all other cases no status is written
before the steps.
-/
namespace Reconciliation

namespace Store

variable {store store' : Store} {key : Key}

/-- No status is written between two stores. -/
def KeepsStatus (store store' : Store) : Prop :=
  ∀ ⦃key document'⦄, store'.objects.get? key = some document' →
    ∃ document, store.objects.get? key = some document ∧ document'.status? = document.status?

theorem KeepsStatus.refl (store : Store) : store.KeepsStatus store :=
  fun _ document hStored => ⟨document, hStored, rfl⟩

/-- An update leaves each stored status as it is. -/
theorem keepsStatus_update (hSound : store.Sound) (resource : Resource) :
    store.KeepsStatus (store.update resource).2 := by
  intro key document' hStored
  have hCases : (Request.serve default (.update resource) store).2.objects.get? key =
      some document' := hStored
  rcases get?_serve_cases hCases with hSame | ⟨draft, hDraft, -, rfl⟩
  · exact ⟨document', hSame, rfl⟩
  · obtain ⟨stored, hFound, hStatus⟩ := hDraft.exists_status?_eq hSound
      (show (Request.update resource).WritesMain from trivial)
    exact ⟨stored, hFound, ((hDraft.hasParts hSound).status?_withVersion _).trans hStatus⟩

/-- The standing of a resource is read from its status alone. -/
theorem KeepsStatus.standing_eq (h : store.KeepsStatus store') (hSound : store.Sound)
    (hSound' : store'.Sound) {before after : Resource} (hBefore : store.peek key = some before)
    (hAfter : store'.peek key = some after) : after.standing = before.standing := by
  obtain ⟨document', hStored', hRead'⟩ := of_peek_eq_some hAfter
  obtain ⟨document, hStored, hRead⟩ := of_peek_eq_some hBefore
  obtain ⟨found, hFound, hStatus⟩ := h hStored'
  cases hStored.symm.trans hFound
  obtain ⟨_, _, _, hParts⟩ := (hSound.stored hStored).1
  obtain ⟨_, _, _, hParts'⟩ := (hSound'.stored hStored').1
  have hSays := Status.mayReadFrom_iff.2 ((Resource.ofJson_eq_ok_iff hParts).1 hRead).status
  have hSays' := Status.mayReadFrom_iff.2 ((Resource.ofJson_eq_ok_iff hParts').1 hRead').status
  rw [← hParts'.status, hStatus, hParts.status, hSays] at hSays'
  rw [Resource.standing, Resource.standing, Except.ok.inj hSays']

end Store

variable {σ : Type} {now : Timestamp} {scene scene' : Scene σ} {store store' : Store}

namespace Finalizer

variable {finalizer : Finalizer σ} {error : WorkError}

/-- How seeing to a finalizer fails, and what is left then. -/
inductive Fails (finalizer : Finalizer σ) (now : Timestamp) (scene : Scene σ) (store : Store) :
    WorkError → Scene σ → Store → Prop where
  /-- The resource is to be deleted, and its cleanup has run and failed. -/
  | uncleaned {cleanup : Task σ Report Unit} {report : Report} {left : Scene σ} {last : Store}
    (hTerminating : scene.resource.isTerminating = true)
    (hCleanup : finalizer.cleanup = some cleanup)
    (hFailed : cleanup.exec now scene store = ⟨.error (.error report), left, last⟩) :
    Fails finalizer now scene store (.cleanup finalizer.name report) left last
  /-- The resource is to be deleted and has been cleaned up, and the store does not take the
  finalizer off it. -/
  | unreleased {left : Scene σ} {cleaned last : Store} {cause : StoreError}
    (hTerminating : scene.resource.isTerminating = true)
    (hCleaned : finalizer.cleanUp.exec now scene store = ⟨.ok (), left, cleaned⟩)
    (hHas : left.resource.hasFinalizer finalizer.name = true)
    (hRefused : cleaned.update (left.resource.removeFinalizer finalizer.name) =
      (.error cause, last)) :
    Fails finalizer now scene store (.store cause) left last
  /-- The resource is not to be deleted, and the store does not put the finalizer on it. -/
  | unheld {last : Store} {cause : StoreError} (hLives : scene.resource.isTerminating = false)
    (hLacks : scene.resource.hasFinalizer finalizer.name = false)
    (hRefused : store.update (scene.resource.addFinalizer finalizer.name) = (.error cause, last)) :
    Fails finalizer now scene store (.store cause) scene last

/-- A write fails only if the store refuses it, and then nothing has changed in hand. -/
theorem exists_refused_of_write {resource : Resource}
    (h : (write resource).exec now scene store = ⟨.error (.error error), scene', store'⟩) :
    ∃ cause, error = .store cause ∧ scene' = scene ∧
      store.update resource = (.error cause, store') := by
  rw [exec_write] at h
  rcases hUpdate : store.update resource with ⟨cause | written, last⟩
  · rw [hUpdate] at h
    cases h
    exact ⟨cause, rfl, rfl, rfl⟩
  · rw [hUpdate] at h
    cases h

/-- Cleaning up fails only if there is a cleanup that fails. -/
theorem exists_failed_of_cleanUp
    (h : finalizer.cleanUp.exec now scene store = ⟨.error (.error error), scene', store'⟩) :
    ∃ cleanup report, finalizer.cleanup = some cleanup ∧ error = .cleanup finalizer.name report ∧
      cleanup.exec now scene store = ⟨.error (.error report), scene', store'⟩ := by
  rw [cleanUp] at h
  cases hCleanup : finalizer.cleanup with
  | none =>
      rw [hCleanup] at h
      cases h
  | some cleanup =>
      rw [hCleanup, Task.exec_mapError] at h
      rcases hExec : cleanup.exec now scene store with ⟨(payload | report) | ⟨⟩, left, last⟩
      · rw [hExec] at h
        cases h
      · rw [hExec] at h
        cases h
        exact ⟨cleanup, report, rfl, rfl, hExec⟩
      · rw [hExec] at h
        cases h

theorem refused_of_release
    (h : finalizer.release.exec now scene store = ⟨.error (.error error), scene', store'⟩) :
    scene.resource.hasFinalizer finalizer.name = true ∧ ∃ cause, error = .store cause ∧
      scene' = scene ∧ store.update (scene.resource.removeFinalizer finalizer.name) =
        (.error cause, store') := by
  rw [exec_release] at h
  cases hHas : scene.resource.hasFinalizer finalizer.name with
  | false =>
      rw [hHas, if_neg Bool.false_ne_true] at h
      cases h
  | true =>
      rw [if_pos hHas] at h
      exact ⟨rfl, exists_refused_of_write h⟩

theorem refused_of_hold
    (h : finalizer.hold.exec now scene store = ⟨.error (.error error), scene', store'⟩) :
    scene.resource.hasFinalizer finalizer.name = false ∧ ∃ cause, error = .store cause ∧
      scene' = scene ∧ store.update (scene.resource.addFinalizer finalizer.name) =
        (.error cause, store') := by
  rw [exec_hold] at h
  cases hHas : scene.resource.hasFinalizer finalizer.name with
  | true =>
      rw [if_pos hHas] at h
      cases h
  | false =>
      rw [hHas, if_neg Bool.false_ne_true] at h
      exact ⟨rfl, exists_refused_of_write h⟩

/-- Seeing to a finalizer fails in no other ways than these. -/
theorem fails_of_enforce
    (h : finalizer.enforce.exec now scene store = ⟨.error (.error error), scene', store'⟩) :
    finalizer.Fails now scene store error scene' store' := by
  rw [exec_enforce] at h
  cases hTerminating : scene.resource.isTerminating with
  | true =>
      rw [if_pos hTerminating] at h
      rcases hCleaned : finalizer.cleanUp.exec now scene store with ⟨reason | ⟨⟩, left, cleaned⟩
      · rw [hCleaned, Execution.andThen_error] at h
        cases h
        obtain ⟨_, _, hCleanup, rfl, hFailed⟩ := exists_failed_of_cleanUp hCleaned
        exact .uncleaned hTerminating hCleanup hFailed
      · rw [hCleaned, Execution.andThen_ok, Execution.andThen_return_eq_error_iff] at h
        obtain ⟨hHas, cause, rfl, rfl, hRefused⟩ := refused_of_release h
        exact .unreleased hTerminating hCleaned hHas hRefused
  | false =>
      rw [hTerminating, if_neg Bool.false_ne_true, Execution.andThen_return_eq_error_iff] at h
      obtain ⟨hLacks, cause, rfl, rfl, hRefused⟩ := refused_of_hold h
      exact .unheld hTerminating hLacks hRefused

/-- In each of these ways, seeing to a finalizer fails. -/
theorem Fails.exec_enforce (h : finalizer.Fails now scene store error scene' store') :
    finalizer.enforce.exec now scene store = ⟨.error (.error error), scene', store'⟩ := by
  rw [Finalizer.exec_enforce]
  cases h with
  | @uncleaned _ report _ _ hTerminating hCleanup hFailed =>
      have hCleanUp : finalizer.cleanUp.exec now scene store =
          ⟨.error (.error (.cleanup finalizer.name report)), scene', store'⟩ := by
        rw [cleanUp, hCleanup, Task.exec_mapError, hFailed]
        rfl
      rw [if_pos hTerminating, hCleanUp]
      rfl
  | unreleased hTerminating hCleaned hHas hRefused =>
      rw [if_pos hTerminating, hCleaned, Execution.andThen_ok, exec_release, if_pos hHas, exec_write,
        hRefused]
      rfl
  | unheld hLives hLacks hRefused =>
      rw [hLives, if_neg Bool.false_ne_true, exec_hold, hLacks, if_neg Bool.false_ne_true,
        exec_write, hRefused]
      rfl

/-- There are no other ways to fail. -/
theorem exec_enforce_eq_error_iff :
    finalizer.enforce.exec now scene store = ⟨.error (.error error), scene', store'⟩ ↔
      finalizer.Fails now scene store error scene' store' :=
  ⟨fails_of_enforce, Fails.exec_enforce⟩

/-- The store once the cleanup has run, if it does. -/
def cleanedStore (finalizer : Finalizer σ) (now : Timestamp) (scene : Scene σ) (store : Store) :
    Store :=
  if scene.resource.isTerminating then (finalizer.cleanUp.exec now scene store).store else store

theorem cleanedStore_reachable (h : store.Reachable) :
    (finalizer.cleanedStore now scene store).Reachable := by
  rw [cleanedStore]
  split
  · exact h.exec rfl
  · exact h

theorem keepsStatus_write (hSound : store.Sound) (resource : Resource) :
    store.KeepsStatus ((write resource).exec now scene store).store := by
  have hKeeps := Store.keepsStatus_update hSound resource
  rw [exec_write]
  rcases hUpdate : store.update resource with ⟨cause | written, last⟩
  · rwa [hUpdate] at hKeeps
  · rwa [hUpdate] at hKeeps

theorem keepsStatus_release (hSound : store.Sound) :
    store.KeepsStatus (finalizer.release.exec now scene store).store := by
  rw [exec_release]
  split
  · exact keepsStatus_write hSound _
  · exact .refl store

theorem keepsStatus_hold (hSound : store.Sound) :
    store.KeepsStatus (finalizer.hold.exec now scene store).store := by
  rw [exec_hold]
  split
  · exact .refl store
  · exact keepsStatus_write hSound _

/-- Beside the cleanup, seeing to a finalizer writes no status. -/
theorem keepsStatus_enforce (hStore : store.Reachable) (finalizer : Finalizer σ)
    (now : Timestamp) (scene : Scene σ) :
    (finalizer.cleanedStore now scene store).KeepsStatus
      (finalizer.enforce.exec now scene store).store := by
  rw [exec_enforce, cleanedStore]
  cases scene.resource.isTerminating with
  | true =>
      rw [if_pos rfl, if_pos rfl]
      rcases hCleaned : finalizer.cleanUp.exec now scene store with ⟨reason | ⟨⟩, left, cleaned⟩
      · exact .refl cleaned
      · rw [Execution.andThen_ok, Execution.store_andThen_return]
        exact keepsStatus_release (hStore.exec hCleaned).sound
  | false =>
      rw [if_neg Bool.false_ne_true, if_neg Bool.false_ne_true, Execution.store_andThen_return]
      exact keepsStatus_hold hStore.sound

end Finalizer

namespace Engine

variable {engine : Engine σ} {finalizer : Finalizer σ} {key : Key} {state : σ}

/-- Unless it fails, seeing to the finalizer leaves each status as it is. -/
theorem keepsStatus_finalize_or_fails (hFinalizer : engine.finalizer = some finalizer)
    (hStore : store.Reachable) (now : Timestamp) (scene : Scene σ) :
    (finalizer.cleanedStore now scene store).KeepsStatus
        ((engine.finalize now).exec now scene store).store ∨
      ∃ error left last, finalizer.Fails now scene store error left last := by
  have hKeeps := finalizer.keepsStatus_enforce hStore now scene
  rw [finalize_eq hFinalizer now, Task.exec_bind, Task.exec_attempt]
  rcases hEnforce : finalizer.enforce.exec now scene store with
    ⟨(payload | error) | done, left, last⟩
  · rw [hEnforce] at hKeeps
    exact .inl hKeeps
  · exact .inr ⟨error, left, last, Finalizer.exec_enforce_eq_error_iff.1 hEnforce⟩
  · rw [hEnforce] at hKeeps
    cases done <;> exact .inl hKeeps

/-- The store once the cleanup has run, if an invocation comes to it. -/
def cleanedStore (engine : Engine σ) (finalizer : Finalizer σ) (now : Timestamp) (scene : Scene σ)
    (store : Store) : Store :=
  match (asks engine.preFinalizeSkipper).exec now scene store with
  | ⟨.ok false, asked, store⟩ => finalizer.cleanedStore now asked store
  | ⟨_, _, store⟩ => store

theorem cleanedStore_reachable (h : store.Reachable) :
    (engine.cleanedStore finalizer now scene store).Reachable := by
  obtain ⟨skipped, state, hAsked⟩ := exec_asks engine.preFinalizeSkipper now scene store
  rw [cleanedStore, hAsked]
  cases skipped with
  | true => exact h
  | false => exact Finalizer.cleanedStore_reachable h

theorem exec_lead_of_finalized {asked : Scene σ} {requeue : Requeue}
    (hAsked : (asks engine.preFinalizeSkipper).exec now scene store = ⟨.ok false, asked, store⟩)
    (hEnded : (engine.finalize now).exec now asked store = ⟨.ok (some requeue), scene', store'⟩) :
    (engine.lead now).exec now scene store = ⟨.ok (.finalized requeue), scene', store'⟩ := by
  rw [lead, Task.exec_bind, hAsked, Execution.andThen_ok, if_neg Bool.false_ne_true,
    Task.exec_bind, Task.widen, Task.exec_mapError, hEnded]
  rfl

/-- Seeing to the finalizer fails, once the skipper before it has let the resource through. -/
def Fails (engine : Engine σ) (finalizer : Finalizer σ) (now : Timestamp) (scene : Scene σ)
    (store : Store) (error : WorkError) (left : Scene σ) (last : Store) : Prop :=
  ∃ asked, (asks engine.preFinalizeSkipper).exec now scene store = ⟨.ok false, asked, store⟩ ∧
    finalizer.Fails now asked store error left last

/-- A failure is recorded, and nothing comes after that. -/
theorem Fails.exec_lead {error : WorkError} {left : Scene σ} {last : Store}
    (hFinalizer : engine.finalizer = some finalizer)
    (h : engine.Fails finalizer now scene store error left last) :
    ∃ resource, (engine.lead now).exec now scene store =
      ⟨.ok (.finalized engine.config.onFailure), { left with resource },
        (last.updateStatus (left.resource.recordUnfinalized now error)).2⟩ := by
  obtain ⟨asked, hAsked, hFails⟩ := h
  obtain ⟨resource, hEnded⟩ := exec_finalize_of_error hFinalizer
    (Finalizer.exec_enforce_eq_error_iff.2 hFails)
  exact ⟨resource, exec_lead_of_finalized hAsked hEnded⟩

/-- Beside the cleanup, nothing that comes before the steps writes a status but the record of a
failure. -/
theorem keepsStatus_or_fails (hFinalizer : engine.finalizer = some finalizer)
    (hStore : store.Reachable) (now : Timestamp) (scene : Scene σ) :
    (engine.cleanedStore finalizer now scene store).KeepsStatus
        ((engine.lead now).exec now scene store).store ∨
      ∃ error left last, engine.Fails finalizer now scene store error left last := by
  obtain ⟨skipped, state, hAsked, hLed⟩ := exec_lead engine now scene store
  rw [cleanedStore, hAsked]
  cases skipped with
  | true =>
      left
      rw [show ((engine.lead now).exec now scene store).store = store from hLed.2]
      exact .refl store
  | false =>
      rcases keepsStatus_finalize_or_fails hFinalizer hStore now { scene with state } with
        hKeeps | ⟨error, left, last, hFails⟩
      · exact .inl (hLed.2 ▸ hKeeps)
      · exact .inr ⟨error, left, last, _, hAsked, hFails⟩

/-- An invocation that the finalizer has ended does nothing else. -/
theorem run_eq_of_finalized {fetched : Resource} {requeue : Requeue}
    (hGet : (store.get key).1 = .ok fetched)
    (hLead : (engine.lead now).exec now ⟨fetched, state⟩ (store.count .get) =
      ⟨.ok (.finalized requeue), scene', store'⟩) :
    (engine.run now key state).run now store = ((.ok requeue, scene'.state), store') := by
  have hAnswer : store.get key = (.ok fetched, store.count .get) := Prod.ext hGet rfl
  rw [run_eq_of_get_ok hAnswer, process_eq, Task.exec_bind, hLead]
  rfl

/-- An invocation leaves the store as it is before the steps, unless it comes to a step. -/
theorem store_run_cases {fetched : Resource} (hGet : (store.get key).1 = .ok fetched)
    {led : Except (Stop WorkError) Lead}
    (hLead : (engine.lead now).exec now ⟨fetched, state⟩ (store.count .get) =
      ⟨led, scene', store'⟩) :
    ((engine.run now key state).run now store).2 = store' ∨
      ∃ first, (engine.itinerary now key state store).head? = some first ∧
        first.store = store' := by
  have hAnswer : store.get key = (.ok fetched, store.count .get) := Prod.ext hGet rfl
  rcases led with reason | lead
  · rw [run_eq_of_get_ok hAnswer, process_eq, Task.exec_bind, hLead]
    exact .inl rfl
  · cases lead with
    | ready =>
        rw [itinerary_of_ready hGet hLead, run_eq_of_ready hAnswer hLead]
        cases engine.steps with
        | nil => exact .inl rfl
        | cons step rest => exact .inr ⟨_, rfl, rfl⟩
    | passedOver | leftAlone | finalized =>
        rw [run_eq_of_get_ok hAnswer, process_eq, Task.exec_bind, hLead]
        exact .inl rfl

/-- What an engine makes of the failures of its finalizer in an invocation that has fetched its
resource. -/
structure RecordsFailures (engine : Engine σ) (finalizer : Finalizer σ) (now : Timestamp) (key : Key)
    (state : σ) (store : Store) (fetched : Resource) : Prop where
  /-- A failure ends the invocation, and nothing but the attempt to record it comes after it. -/
  recorded : ∀ {error left last},
    engine.Fails finalizer now ⟨fetched, state⟩ (store.count .get) error left last →
      (engine.run now key state).run now store = ((.ok engine.config.onFailure, left.state),
        (last.updateStatus (left.resource.recordUnfinalized now error)).2)
  /-- If a resource stands differently after the invocation than after the cleanup, there was such a
  failure, or the invocation has come to steps and the resource has stood as before until then. -/
  nothing_else : ∀ {key' before after},
    (engine.cleanedStore finalizer now ⟨fetched, state⟩ (store.count .get)).peek key' =
      some before →
    ((engine.run now key state).run now store).2.peek key' = some after →
    after.standing ≠ before.standing →
      (∃ error left last,
        engine.Fails finalizer now ⟨fetched, state⟩ (store.count .get) error left last) ∨
      ∃ first, (engine.itinerary now key state store).head? = some first ∧
        ∀ found, first.store.peek key' = some found → found.standing = before.standing

/-- With a finalizer, its failures are recorded, and up to the steps nothing else is. -/
theorem recordsFailures_of_get (hFinalizer : engine.finalizer = some finalizer)
    (hStore : store.Reachable) {fetched : Resource} (hGet : (store.get key).1 = .ok fetched)
    (now : Timestamp) (state : σ) :
    engine.RecordsFailures finalizer now key state store fetched := by
  have hCounted : (store.count .get).Reachable := hStore.serve now (.get key)
  constructor
  case recorded =>
    intro error left last hFails
    obtain ⟨resource, hLead⟩ := hFails.exec_lead hFinalizer
    exact (run_eq_of_finalized hGet hLead :)
  case nothing_else =>
    intro key' before after hBefore hAfter hChanged
    refine (keepsStatus_or_fails hFinalizer hCounted now ⟨fetched, state⟩).symm.imp_right ?_
    intro hKeeps
    rcases hLead : (engine.lead now).exec now ⟨fetched, state⟩ (store.count .get) with
      ⟨led, scene', store'⟩
    rw [hLead] at hKeeps
    have hSame {found : Resource} (hFound : store'.peek key' = some found) :
        found.standing = before.standing :=
      hKeeps.standing_eq (cleanedStore_reachable hCounted).sound (hCounted.exec hLead).sound
        hBefore hFound
    rcases store_run_cases hGet hLead with hStays | ⟨first, hFirst, hBegun⟩
    · exact absurd (hSame (hStays ▸ hAfter)) hChanged
    · exact ⟨first, hFirst, fun found hFound => hSame (hBegun ▸ hFound)⟩

def guarding (finalizer : Finalizer Unit) : Engine Unit where
  finalizer := some finalizer

def messy : Finalizer Unit where
  name := "f"
  cleanup := some do
    Task.modifyResource fun resource => { resource with spec := .bool true }
    Task.fail (.ofMessage "busy")

/-- Its failure is recorded on the stored resource, whose specification stays. -/
theorem recordsFailures_of_messy :
    let engine := guarding messy
    let ended := (engine.run default Finalizer.leaving.key ()).run default Finalizer.leavingStore
    engine.finalizer = some messy ∧ Finalizer.leavingStore.Reachable ∧
      (Finalizer.leavingStore.get Finalizer.leaving.key).1 = .ok Finalizer.leaving ∧
      ended.1.1 = .ok engine.config.onFailure ∧
      (ended.2.peek Finalizer.leaving.key).map (·.standing.phase) = some .finalizationError ∧
      (ended.2.peek Finalizer.leaving.key).map Resource.spec = some Finalizer.leaving.spec ∧
      (∃ error left last, engine.Fails messy default ⟨Finalizer.leaving, ()⟩
        (Finalizer.leavingStore.count .get) error left last) ∧
      engine.RecordsFailures messy default Finalizer.leaving.key () Finalizer.leavingStore
        Finalizer.leaving := by
  intro engine ended
  have hGet : (Finalizer.leavingStore.get Finalizer.leaving.key).1 = .ok Finalizer.leaving :=
    Except.of_toOption_eq_some (by decide +kernel)
  have hFails : engine.Fails messy default ⟨Finalizer.leaving, ()⟩
      (Finalizer.leavingStore.count .get) (.cleanup "f" (.ofMessage "busy"))
      ⟨{ Finalizer.leaving with spec := .bool true }, ()⟩ (Finalizer.leavingStore.count .get) :=
    ⟨_, rfl, .uncleaned rfl rfl rfl⟩
  have hFinalizer : engine.finalizer = some messy := rfl
  have hRecords := recordsFailures_of_get hFinalizer Finalizer.leavingStore_reachable hGet
    default ()
  have hEnded := hRecords.recorded hFails
  exact ⟨hFinalizer, Finalizer.leavingStore_reachable, hGet, congrArg (·.1.1) hEnded,
    by decide +kernel, by decide +kernel, ⟨_, _, _, hFails⟩, hRecords⟩

def inert : Finalizer Unit where
  name := "f"

/-- If a finalizer cannot be put on a resource that is not to be deleted, it is recorded that the
cleanup has failed. -/
theorem not_uncleaned_of_inert :
    let store := Edit.plainStore.failOn .update
    let ended := ((guarding inert).run default Edit.plainResource.key ()).run default store
    store.Reachable ∧ store.peek Edit.plainResource.key = some Edit.plainResource ∧
      Edit.plainResource.standing.find? finalizingType = none ∧
      ¬∀ after condition, ended.2.peek Edit.plainResource.key = some after →
        after.standing.phase = .finalizationError →
        after.standing.find? finalizingType = some condition → condition.status = .fails →
        condition.reason = finalizationFailed →
        Edit.plainResource.isTerminating = true ∧ ∃ cleanup, inert.cleanup = some cleanup := by
  intro store ended
  obtain ⟨after, hAfter, hPhase, condition, hFound, hStatus, hReason⟩ : ∃ after,
      ended.2.peek Edit.plainResource.key = some after ∧
        after.standing.phase = .finalizationError ∧
        ∃ condition, after.standing.find? finalizingType = some condition ∧
          condition.status = .fails ∧ condition.reason = finalizationFailed :=
    ⟨_, Option.eq_some_of_isSome (by decide +kernel), by decide +kernel, _,
      Option.eq_some_of_isSome (by decide +kernel), by decide +kernel, by decide +kernel⟩
  refine ⟨Edit.plainStore_reachable.serve default (.failOn .update), by decide +kernel, rfl, ?_⟩
  intro hOnly
  cases (hOnly after condition hAfter hPhase hFound hStatus hReason).1

end Engine

end Reconciliation
