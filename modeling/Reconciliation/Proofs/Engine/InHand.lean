import Reconciliation.Proofs.Engine.Order
import Reconciliation.Proofs.Engine.Tracking

/-!
What an invocation leaves in hand. An invocation that ends with a value leaves the stored resource
in hand, unless it stops where something has been changed in place and could not be written: the
cleanup has changed a resource that is to be deleted, or the first write of a step's work has
failed.
-/
namespace Reconciliation

/-- Two resources between which an edit sees no difference. -/
inductive Resource.Alike (resource : Resource) : Resource → Prop where
  | same : Alike resource resource
  | unchanged {resource' : Resource} {before after : Snapshot}
    (hBefore : resource.snapshot = .ok before) (hAfter : resource'.snapshot = .ok after)
    (hAgree : before.Agree after) : Alike resource resource'

theorem Resource.Alike.agree {resource resource' : Resource} {before after : Snapshot}
    (h : resource.Alike resource') (hBefore : resource.snapshot = .ok before)
    (hAfter : resource'.snapshot = .ok after) : before.Agree after := by
  cases h with
  | same =>
      cases hBefore.symm.trans hAfter
      exact ⟨rfl, rfl⟩
  | unchanged hFound hLeft hAgree =>
      cases hBefore.symm.trans hFound
      cases hAfter.symm.trans hLeft
      exact hAgree

/-- If anything can be read under the key of a resource, an edit sees no difference between them. -/
def Resource.Faithful (resource : Resource) (store : Store) : Prop :=
  ∀ found, store.peek resource.key = some found → found.Alike resource

namespace Resource

variable {resource resource' : Resource} {store store' : Store}

/-- What is current is faithful. -/
theorem Current.faithful (h : resource.Current store) : resource.Faithful store := by
  intro found hFound
  rw [h found hFound]
  exact .same

/-- What is faithful stays so while it tracks the store. -/
theorem Faithful.tracks (h : resource.Faithful store)
    (hTracks : store.Tracks resource resource' store') : resource'.Faithful store' := by
  cases hTracks with
  | renewed hCurrent => exact hCurrent.faithful
  | kept hNoMore => exact fun found hFound => h found (hNoMore _ found hFound)

/-- Anything is faithful where there is nothing. -/
theorem faithful_of_gone (h : store.contains resource.key = false) : resource.Faithful store := by
  intro found hFound
  obtain ⟨document, hStored, -⟩ := Store.of_peek_eq_some hFound
  have hThere : store.contains resource.key = true := Option.isSome_iff_exists.2 ⟨document, hStored⟩
  rw [h] at hThere
  cases hThere

end Resource

variable {σ : Type} {engine : Engine σ} {now : Timestamp} {own : Key → Prop}

namespace Visit

variable {visit : Visit σ} {scene scene' : Scene σ} {store store' : Store}

/-- The work of a step is stranded: it has left something in hand of the resource that was fetched
for it, and the first write of that has failed. -/
structure Strands (visit : Visit σ) (engine : Engine σ) (now : Timestamp) (base : Edit.Base)
    (left scene' : Scene σ) (store' : Store) : Prop where
  performed : ∃ scene store recorded,
    visit.approached engine now = ⟨.ok (.begun base), scene, store⟩ ∧
      (visit.step.perform now engine.config.catchesPanics engine.sink).exec now scene store =
        ⟨.ok recorded, left, store⟩
  ended_eq : ∃ recorded error,
    visit.ended engine now = ⟨.ok (.worked recorded (.error error)), scene', store'⟩
  /-- What the work has left stays in hand. -/
  scene_eq : scene' = left
  /-- What can be read is what was fetched. -/
  stored : ∀ found, store'.peek base.key = some found → found = base.resource

/-- Where the work of a step begins, the resource has just been fetched. -/
theorem fetched_of_begun {base : Edit.Base}
    (h : visit.approached engine now = ⟨.ok (.begun base), scene, store⟩) :
    ∃ marked store₁, (Engine.markStep visit.step now).exec now (visit.asked engine) visit.store =
        ⟨.ok (.ok ()), marked, store₁⟩ ∧
      Edit.fetch.exec now marked store₁ = ⟨.ok base, scene, store⟩ := by
  obtain ⟨hSkips, marked, store₁, fetched, hMark, hFetch⟩ := begins_iff.1 ⟨base, h⟩
  rw [approached_of_not_skipping hSkips, hMark, Execution.andThen_ok, Task.exec_attempt,
    hFetch] at h
  cases h
  exact ⟨marked, store₁, hMark, hFetch⟩

/-- Where the work of a step begins, what was fetched for it is current. -/
theorem current_of_begun {base : Edit.Base} (hStore : visit.store.Reachable)
    (h : visit.approached engine now = ⟨.ok (.begun base), scene, store⟩) :
    base.resource.snapshot = .ok base.snapshot ∧ base.resource.key = base.key ∧
      scene.resource = base.resource ∧ base.resource.Current store := by
  obtain ⟨marked, store₁, hMark, hFetch⟩ := fetched_of_begun h
  obtain ⟨-, hKey, hGet, hSnapshot, rfl⟩ := Edit.ends_fetch_ok_iff.1 ⟨hFetch, rfl⟩
  have hReplies := (hStore.exec hMark).replies_get marked.resource.key
  rw [hGet] at hReplies
  cases hReplies with
  | given hSame hCurrent => exact ⟨hSnapshot, hSame.trans hKey.symm, rfl, hCurrent⟩

/-- Once its work has begun, a visit leaves in hand what is stored under the key of what was
fetched, unless its work is stranded. -/
theorem ended_cases_of_begun {base : Edit.Base} {fate : Fate} (hQuiet : visit.step.Quiet)
    (hStore : visit.store.Reachable)
    (hApproached : visit.approached engine now = ⟨.ok (.begun base), scene, store⟩)
    (hEnded : visit.ended engine now = ⟨.ok fate, scene', store'⟩) :
    scene'.resource.key = base.key ∧ scene'.resource.Faithful store' ∨
      ∃ left, visit.Strands engine now base left scene' store' := by
  obtain ⟨hSnapshot, hKey, -, hCurrent⟩ := current_of_begun hStore hApproached
  have hCarried := hEnded
  rw [ended_eq, hApproached, Execution.andThen_ok] at hCarried
  obtain ⟨recorded, left, store₁, hPerform, hRest⟩ := Task.exec_bind_eq_ok_iff.1 hCarried
  obtain ⟨written, scene₁, store₂, hPersist, hReturn⟩ := Task.exec_bind_eq_ok_iff.1 hRest
  rw [Task.exec_pure] at hReturn
  cases hReturn
  obtain ⟨rfl, -⟩ := hQuiet.perform.exec_store hPerform store
  have hPersists := Edit.persists_of_exec (hStore.exec hApproached)
    (Task.exec_attempt_eq_ok_iff.1 hPersist)
  generalize hResult : written.mapError Stop.error = result at hPersists
  cases hPersists with
  | current hSame hNow => exact .inl ⟨hSame, hNow.faithful⟩
  | unchanged hSame hAfter hAgree =>
      refine .inl ⟨hSame, fun found hFound => ?_⟩
      rw [hSame, ← hKey] at hFound
      rw [hCurrent found hFound]
      exact .unchanged hSnapshot hAfter hAgree
  | failed hNoMore =>
      obtain ⟨error, rfl, -⟩ := Except.mapError_eq_error_iff.1 hResult
      refine .inr ⟨_, ⟨_, _, _, hApproached, hPerform⟩, ⟨_, _, hEnded⟩, rfl, fun found hFound => ?_⟩
      rw [← hKey] at hFound
      exact hCurrent found (hNoMore _ found hFound)

/-- A visit leaves in hand what is stored, under one of the given keys, unless its work is stranded.
-/
theorem ended_cases {fate : Fate} (hQuiet : visit.step.Quiet)
    (hHook : visit.step.marks = true → ∀ hook, visit.step.hook = some hook → hook.Keeps own)
    (hStore : visit.store.Reachable) (hOwn : own visit.found.resource.key)
    (hFaithful : visit.found.resource.Faithful visit.store)
    (hEnded : visit.ended engine now = ⟨.ok fate, scene', store'⟩) :
    own scene'.resource.key ∧ scene'.resource.Faithful store' ∨
      ∃ base left, own base.key ∧ visit.Strands engine now base left scene' store' := by
  have hTracks : visit.store.Tracks visit.found.resource
      (visit.approached engine now).scene.resource (visit.approached engine now).store :=
    Engine.tracks_approach hQuiet now now visit.found hStore
  have hStays : own (visit.approached engine now).scene.resource.key :=
    (Engine.stays_approach hHook now).exec now visit.found hOwn hStore
  rcases hApproached : visit.approached engine now with ⟨reason | approach, scene, store⟩
  · rw [ended_eq, hApproached] at hEnded
    cases hEnded
  · rw [hApproached] at hTracks hStays
    cases approach with
    | skipped | unmarked | unfetched =>
        rw [ended_eq, hApproached, Execution.andThen_ok] at hEnded
        cases hEnded
        exact .inl ⟨hStays, hFaithful.tracks hTracks⟩
    | begun base =>
        obtain ⟨-, hKey, hScene, -⟩ := current_of_begun hStore hApproached
        have hBase : own base.key := by
          rw [hScene, hKey] at hStays
          exact hStays
        rcases ended_cases_of_begun hQuiet hStore hApproached hEnded with
          ⟨hSame, hShown⟩ | ⟨left, hStrands⟩
        · exact .inl ⟨hSame.symm ▸ hBase, hShown⟩
        · exact .inr ⟨base, left, hBase, hStrands⟩

/-- What a visit that is passed leaves in hand is stored. -/
theorem Passes.faithful (hPasses : visit.Passes engine now) (hQuiet : visit.step.Quiet)
    (hHook : visit.step.marks = true → ∀ hook, visit.step.hook = some hook → hook.Keeps own)
    (hStore : visit.store.Reachable) (hOwn : own visit.found.resource.key)
    (hFaithful : visit.found.resource.Faithful visit.store) :
    own (visit.ended engine now).scene.resource.key ∧
      (visit.ended engine now).scene.resource.Faithful (visit.ended engine now).store := by
  obtain ⟨fate, hFate, hGoes⟩ := hPasses
  have hEnded : visit.ended engine now =
      ⟨.ok fate, (visit.ended engine now).scene, (visit.ended engine now).store⟩ := by
    rw [← hFate]
  rcases ended_cases hQuiet hHook hStore hOwn hFaithful hEnded with hFound | ⟨_, _, -, hStrands⟩
  · exact hFound
  · obtain ⟨_, _, hStranded⟩ := hStrands.ended_eq
    rw [hStranded] at hFate
    cases hFate
    cases hGoes

end Visit

namespace Engine

variable {scene scene' : Scene σ} {store store' : Store}

/-- What a visit finds is stored. -/
theorem faithful_of_mem_visits (h : engine.Confined own) (hStore : store.Reachable)
    (hOwn : own scene.resource.key) (hFaithful : scene.resource.Faithful store) :
    ∀ visit ∈ engine.visits now engine.steps scene store, visit.store.Reachable ∧
      own visit.found.resource.key ∧ visit.found.resource.Faithful visit.store := by
  refine visits_induction (fun found store => store.Reachable ∧ own found.resource.key ∧
    found.resource.Faithful store) ⟨hStore, hOwn, hFaithful⟩ fun visit hStep hPasses hFound => ?_
  obtain ⟨hReachable, hKey, hResource⟩ := hFound
  exact ⟨hReachable.exec rfl, hPasses.faithful (h.quiet _ hStep) (h.marking _ hStep) hReachable hKey
    hResource⟩

/-- What an invocation on the resource in hand leaves in hand. -/
inductive InHand (engine : Engine σ) (now : Timestamp) (scene : Scene σ) (store : Store)
    (scene' : Scene σ) (store' : Store) : Prop where
  /-- What is stored. -/
  | shown (hKey : engine.Strays scene.resource.key scene'.resource.key)
    (hFaithful : scene'.resource.Faithful store')
  /-- What the cleanup has made of a resource that is to be deleted and is still there. -/
  | cleaned {finalizer : Finalizer σ} {fetched : Resource} {state : σ}
    (hFinalizer : engine.finalizer = some finalizer)
    (hFetched : (store.get scene.resource.key).1 = .ok fetched)
    (hTerminating : fetched.isTerminating = true)
    (hLeft : scene'.resource =
      (finalizer.cleanUp.exec now ⟨fetched, state⟩ (store.count .get)).scene.resource)
    (hStored : ∀ found, store'.peek scene.resource.key = some found → found = fetched)
  /-- What the work of the last step has made of the resource that is still there. -/
  | stranded {last : Visit σ} {base : Edit.Base} {left : Scene σ}
    (hLast : (engine.itinerary now scene.resource.key scene.state store).getLast? = some last)
    (hKey : engine.Strays scene.resource.key base.key)
    (hStrands : last.Strands engine now base left scene' store')

/-- A cleanup that makes no requests leaves the store alone. -/
theorem Quiet.store_cleanUp (h : engine.Quiet) {finalizer : Finalizer σ}
    (hFinalizer : engine.finalizer = some finalizer) (now : Timestamp) (scene : Scene σ)
    (store : Store) : (finalizer.cleanUp.exec now scene store).store = store := by
  have hCleanUp : finalizer.cleanUp.Quiet :=
    Finalizer.quiet_cleanUp fun cleanup hCleanup => h.cleanup finalizer cleanup hFinalizer hCleanup
  exact (hCleanUp.exec_store rfl store).1

section

variable {fetched : Resource} {lead : Lead}

theorem Quiet.strays_of_lead (hQuiet : engine.Quiet) (hStore : store.Reachable)
    (hGet : (store.get scene.resource.key).1 = .ok fetched)
    (hLead : (engine.lead now).exec now ⟨fetched, scene.state⟩ (store.count .get) =
      ⟨.ok lead, scene', store'⟩) : engine.Strays scene.resource.key scene'.resource.key := by
  have hFetched : engine.Strays scene.resource.key fetched.key := by
    rw [(hStore.current_of_get hGet).1]
    exact .found
  have hLed := (stays_lead (hQuiet.confined scene.resource.key) now).exec now
    ⟨fetched, scene.state⟩ hFetched (hStore.serve now (.get scene.resource.key))
  have hScene : ((engine.lead now).exec now ⟨fetched, scene.state⟩
      (store.count .get)).scene = scene' := by
    rw [hLead]
  rw [← hScene]
  exact hLed

/-- If no step is visited, what is in hand is stored, or the cleanup has changed it. -/
theorem Quiet.inHand_of_lead (hQuiet : engine.Quiet) (hStore : store.Reachable)
    (hGet : (store.get scene.resource.key).1 = .ok fetched)
    (hLead : (engine.lead now).exec now ⟨fetched, scene.state⟩ (store.count .get) =
      ⟨.ok lead, scene', store'⟩) : engine.InHand now scene store scene' store' := by
  have hCounted : (store.count .get).Reachable := hStore.serve now (.get scene.resource.key)
  obtain ⟨hKey, hCurrent⟩ := hStore.current_of_get hGet
  have hShown (hTracks : (store.count .get).Tracks fetched scene'.resource store') :
      engine.InHand now scene store scene' store' :=
    .shown (hQuiet.strays_of_lead hStore hGet hLead) (hCurrent.faithful.tracks hTracks)
  by_cases hAlive : ∀ finalizer, engine.finalizer = some finalizer → fetched.isTerminating = false
  · have hTracks := tracks_lead_of_alive engine now ⟨fetched, scene.state⟩ hAlive hCounted
    rw [hLead] at hTracks
    exact hShown hTracks
  · push Not at hAlive
    obtain ⟨finalizer, hFinalizer, hMarked⟩ := hAlive
    have hTerminating : fetched.isTerminating = true := Bool.not_eq_false _ ▸ hMarked
    have hCases := tracks_lead_of_terminating now ⟨fetched, scene.state⟩ hFinalizer hTerminating
      hCounted
    rw [hLead] at hCases
    rcases hCases with hTracks | ⟨state, hCleaned⟩
    · exact hShown hTracks
    · rcases hCleaned.current_or_kept with hNow | ⟨hLeft, hNoMore⟩
      · exact hShown (.renewed hNow)
      · refine .cleaned hFinalizer hGet hTerminating hLeft fun found hFound => ?_
        have hEarlier := hNoMore _ found hFound
        rw [hQuiet.store_cleanUp hFinalizer, ← hKey] at hEarlier
        exact hCurrent found hEarlier

/-- If the steps are visited, what is in hand is stored, or the work of the last one is stranded. -/
theorem Quiet.inHand_of_ready (hQuiet : engine.Quiet) (hStore : store.Reachable)
    (hGet : (store.get scene.resource.key).1 = .ok fetched) {led : Scene σ} {store₁ : Store}
    {requeue : Requeue}
    (hLead : (engine.lead now).exec now ⟨fetched, scene.state⟩ (store.count .get) =
      ⟨.ok .ready, led, store₁⟩)
    (hRun : (engine.runSteps now engine.steps).exec now led store₁ =
      ⟨.ok requeue, scene', store'⟩) : engine.InHand now scene store scene' store' := by
  have hCounted : (store.count .get).Reachable := hStore.serve now (.get scene.resource.key)
  have hOwn := hQuiet.strays_of_lead hStore hGet hLead
  have hFaithful : led.resource.Faithful store₁ := by
    have hTracks := tracks_lead_of_alive engine now ⟨fetched, scene.state⟩
      (fun finalizer hFinalizer => ((secures_of_lead ⟨hLead, rfl⟩ (.inr rfl)).of_some hFinalizer).1)
      hCounted
    rw [hLead] at hTracks
    exact (hStore.current_of_get hGet).2.faithful.tracks hTracks
  rw [exec_runSteps] at hRun
  cases hLast : (engine.visits now engine.steps led store₁).getLast? with
  | none =>
      rw [hLast] at hRun
      cases hRun
      exact .shown hOwn hFaithful
  | some last =>
      rw [hLast] at hRun
      obtain ⟨hRequeue, hScene, hStore'⟩ := Execution.mk.inj hRun
      obtain ⟨fate, hFate, -⟩ := Except.map_eq_ok_iff.1 hRequeue
      have hConfined := hQuiet.confined scene.resource.key
      have hMem := List.mem_of_getLast? hLast
      have hStep := step_mem_of_mem_visits hMem
      obtain ⟨hReachable, hKey, hFound⟩ :=
        faithful_of_mem_visits hConfined (hCounted.exec hLead) hOwn hFaithful last hMem
      have hEnded : last.ended engine now = ⟨.ok fate, scene', store'⟩ := by
        rw [← hFate, ← hScene, ← hStore']
      rcases last.ended_cases (hConfined.quiet _ hStep) (hConfined.marking _ hStep) hReachable hKey
        hFound hEnded with ⟨hLastKey, hShown⟩ | ⟨base, left, hBase, hStrands⟩
      · exact .shown hLastKey hShown
      · exact .stranded (itinerary_of_ready hGet hLead ▸ hLast) hBase hStrands

/-- An invocation that ends with a value leaves in hand what is stored, unless the cleanup or the
work of its last step has changed the resource and that could not be written. -/
theorem Quiet.inHand_of_runIn (hQuiet : engine.Quiet) (hStore : store.Reachable) {requeue : Requeue}
    (hRun : (engine.runIn now).exec now scene store = ⟨.ok requeue, scene', store'⟩) :
    engine.InHand now scene store scene' store' := by
  rw [runIn, Task.exec_bind, Task.exec_resource, Execution.andThen_ok, Task.exec_bind,
    Task.exec_get, Execution.andThen_ok] at hRun
  cases hGet : (store.get scene.resource.key).1 with
  | error error =>
      rw [hGet] at hRun
      cases error with
      | notFound missing =>
          cases hRun
          have hGone : store.contains scene.resource.key = false :=
            (get_eq_notFound_iff.1 ⟨missing, hGet⟩).2
          exact .shown .found (Resource.faithful_of_gone hGone)
      | _ => cases hRun
  | ok fetched =>
      rw [hGet] at hRun
      have hProcess : (engine.process now).exec now ⟨fetched, scene.state⟩ (store.count .get) =
          ⟨.ok requeue, scene', store'⟩ := hRun
      rw [process_eq] at hProcess
      obtain ⟨lead, led, store₁, hLead, hFollow⟩ := Task.exec_bind_eq_ok_iff.1 hProcess
      cases lead with
      | passedOver | leftAlone | finalized =>
          cases hFollow
          exact hQuiet.inHand_of_lead hStore hGet hLead
      | ready =>
          have hSteps := (Task.ends_widen_ok_iff.1 ⟨hFollow, rfl⟩).exec
          exact hQuiet.inHand_of_ready hStore hGet hLead hSteps

end

def amending : Engine Unit where
  steps := [Step.ofOptions "Ready"
    (Task.modifyResource fun resource => { resource with spec := .bool true }) {}]

theorem quiet_amending : amending.Quiet where
  steps step hStep := by
    obtain rfl := List.mem_singleton.1 hStep
    exact ⟨fun _ => ⟨_, rfl⟩, by rintro _ ⟨⟩, by rintro _ ⟨⟩⟩
  cleanup _ _ hFinalizer := nomatch hFinalizer

/-- If the status cannot be written, what was written before it is in hand. -/
theorem inHand_of_amending :
    let store := Edit.plainStore.failOn .patchStatus
    let ended := (amending.runIn default).exec default ⟨Edit.plainResource, ()⟩ store
    amending.Quiet ∧ store.Reachable ∧ ended.result = .ok amending.config.onFailure ∧
      ended.store.version = 2 ∧ ended.scene.resource.spec = .bool true ∧
      ended.store.peek Edit.plainResource.key = some ended.scene.resource ∧
      amending.InHand default ⟨Edit.plainResource, ()⟩ store ended.scene ended.store := by
  intro store ended
  have hStore : store.Reachable := Edit.plainStore_reachable.serve default (.failOn .patchStatus)
  have hResult : ended.result = .ok amending.config.onFailure :=
    Except.of_toOption_eq_some (by decide +kernel)
  have hRun : (amending.runIn default).exec default ⟨Edit.plainResource, ()⟩ store =
      ⟨.ok amending.config.onFailure, ended.scene, ended.store⟩ := by
    rw [← hResult]
  exact ⟨quiet_amending, hStore, hResult, by decide +kernel, by decide +kernel, by decide +kernel,
    quiet_amending.inHand_of_runIn hStore hRun⟩

/-- If nothing can be written, the change is in hand nevertheless. -/
theorem not_faithful_of_amending :
    let store := Edit.plainStore.failOn .patch
    let ended := (amending.runIn default).exec default ⟨Edit.plainResource, ()⟩ store
    amending.Quiet ∧ store.Reachable ∧ ended.result = .ok amending.config.onFailure ∧
      ended.store.peek Edit.plainResource.key = some Edit.plainResource ∧
      ended.scene.resource.key = Edit.plainResource.key ∧
      ended.scene.resource.spec = .bool true ∧ ¬ended.scene.resource.Faithful ended.store := by
  intro store ended
  have hStore : store.Reachable := Edit.plainStore_reachable.serve default (.failOn .patch)
  have hResult : ended.result = .ok amending.config.onFailure :=
    Except.of_toOption_eq_some (by decide +kernel)
  have hPeek : ended.store.peek Edit.plainResource.key = some Edit.plainResource := by
    decide +kernel
  have hKey : ended.scene.resource.key = Edit.plainResource.key := by decide +kernel
  refine ⟨quiet_amending, hStore, hResult, hPeek, hKey, by decide +kernel, fun hFaithful => ?_⟩
  have hAlike := hFaithful Edit.plainResource (by rw [hKey]; exact hPeek)
  obtain ⟨after, hAfter, hDiffers⟩ : ∃ after, ended.scene.resource.snapshot = .ok after ∧
      ¬(Json.object Edit.plainResource.toObject).snapshot.Agree after := by
    refine ⟨(Json.object ended.scene.resource.toObject).snapshot,
      Resource.snapshot_eq_ok_iff.2 ⟨?_, rfl⟩, ?_⟩
    · decide +kernel
    · decide +kernel
  exact hDiffers (hAlike.agree rfl hAfter)

end Engine

end Reconciliation
