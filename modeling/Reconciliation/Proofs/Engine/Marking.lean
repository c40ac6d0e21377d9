import Reconciliation.Proofs.Condition.Setting
import Reconciliation.Proofs.Engine.Exiting
import Reconciliation.Proofs.Engine.InHand
import Reconciliation.Proofs.Store.Restating

/-!
Steps that are marked as under way. The mark is on the stored resource before the work of the step
begins, and the work begins on that resource; apart from the status, nothing of it has changed. If the
mark cannot be written, the invocation ends there, with the resource as it was.
-/
namespace Reconciliation

namespace Edit

variable {σ : Type} {now : Timestamp} {scene scene' : Scene σ} {store store' : Store} {base : Base}
  {written : Written}

/-- A status that has been written is the one that is stored, and what is stored is in hand. -/
theorem of_renew_updateStatus {resource : Resource} (hStore : store.Reachable)
    (hExec : (renew (Task.updateStatus resource)).exec now scene store = ⟨.ok (), scene', store'⟩) :
    ∃ old new, store.Restates resource.key (resource.status.map Status.toJson) old new store' ∧
      Resource.ofJson new = .ok scene'.resource ∧ scene'.resource.key = resource.key := by
  have hWrite : (Task.updateStatus resource : Task σ WorkError _).exec now scene store = _ :=
    Task.exec_updateStatus now scene store resource
  rcases hAnswer : (store.updateStatus resource).1 with error | result
  · rw [hAnswer] at hWrite
    rw [exec_renew_of_error hWrite] at hExec
    cases hExec
  · rw [hAnswer] at hWrite
    rw [exec_renew_of_ok hWrite] at hExec
    cases hExec
    rcases Store.updateStatus_cases hStore resource with
      ⟨error, hError, -⟩ | ⟨old, new, hRestates, hResult⟩
    · cases hAnswer.symm.trans hError
    · have hRead := Except.mapError_eq_ok_iff.1 (hResult.symm.trans hAnswer)
      have hWritten := hStore.serve now (.updateStatus resource)
      exact ⟨old, new, hRestates, hRead, (hWritten.keyed hRestates.written).key_of_ofJson
        (hWritten.sound.stored hRestates.written).1 hRead⟩

theorem Writes.readableAt {resource result : Resource} {after : Snapshot} {made : List Request}
    (h : Writes base resource after store written made result store') (hStore : store.Reachable)
    (hReadable : store.ReadableAt resource.key) : store'.ReadableAt result.key := by
  cases h with
  | nothing => exact hReadable
  | main _ _ hPatch =>
      exact hStore.readableAt_of_given default (.patch resource base.resource) rfl hPatch rfl
  | @mainAndStatus _ before target _ _ _ _ _ hPatch _ _ hPatchStatus =>
      have hFirst := hStore.serve default (.patch resource base.resource)
      rw [show (Request.patch resource base.resource).serve default store = _ from hPatch] at hFirst
      exact hFirst.readableAt_of_given default (.patchStatus target before) rfl hPatchStatus rfl
  | statusOnly _ _ hPatch =>
      exact hStore.readableAt_of_given default (.patchStatus resource base.resource) rfl hPatch rfl

/-- What has been written by an edit can be read. -/
theorem readableAt_of_persist (hStore : store.Reachable) (hReadable : store.ReadableAt base.key)
    (hPersist : (persist base false none).exec now scene store = ⟨.ok written, scene', store'⟩) :
    store'.ReadableAt scene'.resource.key := by
  by_cases hKey : scene.resource.key = base.key
  · cases hAfter : scene.resource.snapshot with
    | error error =>
        rw [exec_persist_of_snapshot_error hKey hAfter] at hPersist
        cases hPersist
    | ok after =>
        rw [Task.exec, persist_of_snapshot hKey hAfter] at hPersist
        obtain ⟨made, hWrites⟩ := exists_writes_of_exec hPersist
        exact hWrites.readableAt hStore (hKey ▸ hReadable)
  · rw [Task.exec, persist_apply, if_pos hKey] at hPersist
    cases hPersist

end Edit

namespace Step

variable {σ : Type} {step : Step σ}

def underWay (step : Step σ) : Condition where
  type := step.type
  status := .unknown
  reason := step.markReason
  message := "Processing"

theorem Sound.markCondition_eq (h : step.Sound) : step.markCondition = .ok step.underWay :=
  Condition.make_eq_ok h.type_ne h.markReason _ _

/-- The hook, run on a resource that says that the step is under way. -/
def marking (step : Step σ) (now : Timestamp) (scene : Scene σ) (store : Store) :
    Execution σ Report Unit :=
  step.runHook.exec now { scene with resource := scene.resource.setCondition now step.underWay } store

section

variable {now : Timestamp} {scene marked : Scene σ} {store store' : Store}

/-- The hook works on a copy, and what it leaves is written. -/
theorem Sound.mark_eq (h : step.Sound) (now : Timestamp) (scene : Scene σ) (store : Store) :
    (step.mark now).exec now scene store =
      (((step.runHook.mapError WorkError.hook).onCopy
        (scene.resource.setCondition now step.underWay)) >>= fun copied =>
          Edit.renew (Task.updateStatus copied.2)).exec now scene store := by
  rw [mark, h.markCondition_eq]
  rfl

/-- A marked resource keeps its key if the hook leaves it that. -/
theorem key_marking (now : Timestamp) (scene : Scene σ) (store : Store)
    (hHook : ∀ hook, step.hook = some hook → hook.Keeps (· = scene.resource.key)) :
    (step.marking now scene store).scene.resource.key = scene.resource.key := by
  unfold marking runHook
  cases hKeeps : step.hook with
  | none => rfl
  | some hook =>
      obtain ⟨ended, hDone, hKey⟩ := hHook hook hKeeps
        { scene with resource := scene.resource.setCondition now step.underWay } rfl
      rw [Option.getD_some, Task.exec, hDone]
      exact hKey

theorem Sound.exec_mark_of_error (h : step.Sound) {reason : Stop Report}
    (hMarking : step.marking now scene store = ⟨.error reason, marked, store'⟩) :
    (step.mark now).exec now scene store =
      ⟨.error (reason.map .hook), { marked with resource := scene.resource }, store'⟩ := by
  rw [h.mark_eq, Task.exec_bind, Task.exec_onCopy, Task.exec_mapError, ← marking, hMarking]
  rfl

theorem Sound.exec_mark_of_ok (h : step.Sound)
    (hMarking : step.marking now scene store = ⟨.ok (), marked, store'⟩) :
    (step.mark now).exec now scene store =
      (Edit.renew (Task.updateStatus marked.resource)).exec now
        { marked with resource := scene.resource } store' := by
  rw [h.mark_eq, Task.exec_bind, Task.exec_onCopy, Task.exec_mapError, ← marking, hMarking]
  rfl

end

end Step

variable {σ : Type} {engine : Engine σ} {now : Timestamp}

def Approach.isBegun : Approach → Bool
  | begun _ => true
  | skipped | unmarked _ | unfetched _ => false

namespace Visit

variable {visit : Visit σ} {scene : Scene σ} {store : Store}

theorem begins_of_isBegun
    (h : (visit.approached engine now).result.toOption.any Approach.isBegun = true) :
    visit.Begins engine now (visit.approached engine now).scene
      (visit.approached engine now).store := by
  rcases hApproached : visit.approached engine now with ⟨reason | approach, scene, store⟩
  · rw [hApproached] at h
    cases h
  · rw [hApproached] at h
    cases approach with
    | skipped | unmarked | unfetched => cases h
    | begun base => exact ⟨base, hApproached⟩

/-- What a visit that is passed leaves can be read. -/
theorem Passes.readableAt (hPasses : visit.Passes engine now) (hQuiet : visit.step.Quiet)
    (hStore : visit.store.Reachable) (hReadable : visit.store.ReadableAt visit.found.resource.key) :
    (visit.ended engine now).store.ReadableAt (visit.ended engine now).scene.resource.key := by
  obtain ⟨fate, hFate, hGoes⟩ := hPasses
  rcases hApproached : visit.approached engine now with ⟨reason | approach, scene, store⟩
  · rw [ended_eq, hApproached] at hFate
    cases hFate
  · rw [ended_eq, hApproached, Execution.andThen_ok] at hFate ⊢
    cases approach with
    | skipped =>
        rw [approached_of_skipping (skipping_of_approached hApproached)] at hApproached
        cases hApproached
        exact hReadable
    | unmarked | unfetched =>
        cases hFate
        cases hGoes
    | begun base =>
        rcases hCarried : (engine.carryOut now visit.step (.begun base)).exec now scene store with
          ⟨result, scene', store'⟩
        rw [hCarried] at hFate
        cases hFate
        obtain ⟨recorded, left, store₁, hPerform, hRest⟩ := Task.exec_bind_eq_ok_iff.1 hCarried
        obtain ⟨outcome, scene₁, store₂, hPersist, hReturn⟩ := Task.exec_bind_eq_ok_iff.1 hRest
        rw [Task.exec_pure] at hReturn
        cases hReturn
        obtain ⟨rfl, -⟩ := hQuiet.perform.exec_store hPerform store
        obtain ⟨marked, store₂, hMark, hFetch⟩ := fetched_of_begun hApproached
        obtain ⟨-, -, hGet, -⟩ := Edit.ends_fetch_ok_iff.1 ⟨hFetch, rfl⟩
        have hFetched := (hStore.exec hMark).readableAt_of_given default (.get marked.resource.key)
          rfl hGet rfl
        rw [(current_of_begun hStore hApproached).2.1] at hFetched
        cases outcome with
        | error error => cases hGoes
        | ok written =>
            exact Edit.readableAt_of_persist (hStore.exec hApproached) hFetched
              (Task.exec_attempt_eq_ok_iff.1 hPersist)

/-- The hook at work on the resource that says that the step is under way. -/
def marking (visit : Visit σ) (engine : Engine σ) (now : Timestamp) : Execution σ Report Unit :=
  visit.step.marking now (visit.asked engine) visit.store

/-- The work of a step begins on the stored resource, which is marked. -/
structure BeginsMarked (visit : Visit σ) (engine : Engine σ) (now : Timestamp) (scene : Scene σ)
    (store : Store) (marked : Scene σ) (old new : Json) : Prop where
  marking_eq : visit.marking engine now = ⟨.ok (), marked, visit.store⟩
  /-- The stored status is what the hook has left; all the rest is what it was before. -/
  restates : visit.store.Restates visit.found.resource.key
    (marked.resource.status.map Status.toJson) old new store
  /-- What is in hand is what is stored. -/
  read : Resource.ofJson new = .ok scene.resource
  /-- It is read as the hook has left it, as far as nothing else stands in the place of its parts.
  -/
  reads : ¬marked.resource.Shadows → scene.resource.status = marked.resource.status
  conditions_eq : (∀ status, marked.resource.status = some status →
    status.extra.get? "conditions" = none) →
    scene.resource.standing.conditions = marked.resource.standing.conditions

/-- An invocation ends before the work of a step begins, and nothing has changed. -/
structure GivesUp (visit : Visit σ) (engine : Engine σ) (now : Timestamp) (key : Key) (state : σ)
    (store : Store) : Prop where
  never : ∀ scene store, ¬visit.Begins engine now scene store
  resource_eq : (visit.ended engine now).scene.resource = visit.found.resource
  unharmed : visit.store.Unharmed (visit.ended engine now).store
  /-- What is asked for is what the step has for failures, or else what the engine has. -/
  run_eq : (engine.run now key state).run now store =
    ((.ok (.firstOf [visit.step.onFailure, some engine.config.onFailure]),
      (visit.ended engine now).scene.state), (visit.ended engine now).store)
  runIn_eq : ∀ scene : Scene σ, scene.resource.key = key → scene.state = state →
    (engine.runIn now).exec now scene store =
      ⟨.ok (.firstOf [visit.step.onFailure, some engine.config.onFailure]),
        (visit.ended engine now).scene, (visit.ended engine now).store⟩

/-- Where the work of a step begins that is to be marked, it has been marked. -/
theorem Begins.exists_marked (h : visit.Begins engine now scene store) (hStep : visit.step.Sound)
    (hMarks : visit.step.marks = true) (hHook : visit.step.runHook.Quiet)
    (hStore : visit.store.Reachable)
    (hKey : (visit.marking engine now).scene.resource.key = visit.found.resource.key) :
    ∃ marked old new, visit.BeginsMarked engine now scene store marked old new := by
  obtain ⟨-, left, store₁, base, hMark, hFetch⟩ := begins_iff.1 h
  rw [Engine.markStep, if_pos hMarks, Task.exec_attempt_eq_ok_iff] at hMark
  rcases hMarking : visit.marking engine now with ⟨reason | _, marked, store₂⟩
  · rw [hStep.exec_mark_of_error hMarking] at hMark
    cases hMark
  · obtain ⟨rfl, -⟩ := hHook.exec_store hMarking visit.store
    rw [hMarking] at hKey
    rw [hStep.exec_mark_of_ok hMarking] at hMark
    obtain ⟨old, new, hRestates, hRead, hSame⟩ := Edit.of_renew_updateStatus hStore hMark
    obtain ⟨-, -, hGet, -, rfl⟩ := Edit.ends_fetch_ok_iff.1 ⟨hFetch, rfl⟩
    obtain ⟨⟨document, hStored, hFound⟩, rfl⟩ := Store.of_get_eq_ok hGet
    rw [hSame] at hStored
    cases hRestates.written.symm.trans hStored
    have hParts := ((hStore.exec hMark).sound.stored hStored).1
    have hMay := hRestates.status_eq ▸ Resource.mayReadFrom_of_ofJson hParts hFound
    exact ⟨marked, old, new, hMarking, hKey ▸ ⟨hRestates.stored, hStored, hRestates.sameBody,
      hRestates.status_eq⟩, hFound, Resource.status_eq_of_mayReadFrom hMay,
      Resource.conditions_eq_of_mayReadFrom hMay⟩

/-- A step that cannot be marked is given up. -/
theorem approached_of_unmarked {error : WorkError} (hSkips : (visit.skipping engine).1 = false)
    (hMarks : visit.step.marks = true)
    (hMark : (visit.step.mark now).exec now (visit.asked engine) visit.store =
      ⟨.error (.error error), scene, store⟩) :
    visit.approached engine now = ⟨.ok (.unmarked error), scene, store⟩ := by
  rw [approached_of_not_skipping hSkips, Engine.markStep, if_pos hMarks, Task.exec_attempt, hMark]
  rfl

/-- A step that could not be marked ends the invocation. -/
theorem givesUp_of_unmarked {key : Key} {state : σ} {store₀ : Store} {error : WorkError}
    (hVisit : visit ∈ engine.itinerary now key state store₀)
    (hApproached : visit.approached engine now = ⟨.ok (.unmarked error), scene, store⟩)
    (hResource : scene.resource = visit.found.resource) (hUnharmed : visit.store.Unharmed store) :
    visit.GivesUp engine now key state store₀ := by
  have hEnded : visit.ended engine now = ⟨.ok (.unmarked error), scene, store⟩ := by
    rw [ended_eq, hApproached, Execution.andThen_ok]
    rfl
  have hStops : ¬visit.Passes engine now := by
    rintro ⟨fate, hFate, hGoes⟩
    rw [hEnded] at hFate
    cases hFate
    cases hGoes
  have hLast := Engine.getLast?_itinerary_of_not_passes hVisit hStops
  have hAsked : visit.requeue engine now =
      .ok (.firstOf [visit.step.onFailure, some engine.config.onFailure]) := by
    rw [requeue, hEnded]
    rfl
  constructor
  case never =>
    rintro scene' store' ⟨base, hBegun⟩
    cases hApproached.symm.trans hBegun
  case resource_eq => rw [hEnded, hResource]
  case unharmed => rw [hEnded]; exact hUnharmed
  case run_eq =>
    rw [Engine.run_eq_of_getLast? hLast, hAsked]
    rfl
  case runIn_eq =>
    rintro scene rfl rfl
    rw [Engine.exec_runIn_of_getLast? hLast, hAsked]
    rfl

end Visit

namespace Engine

variable {key : Key} {state : σ} {store : Store} {visit : Visit σ}

/-- What a visit of an invocation finds in hand is what is stored, if anything is, and that can be
read. -/
theorem Quiet.exists_held (hQuiet : engine.Quiet) (hStore : store.Reachable)
    (hVisit : visit ∈ engine.itinerary now key state store) :
    visit.store.Reachable ∧
      ∀ stored, visit.store.objects.get? visit.found.resource.key = some stored →
        ∃ held, Resource.ofJson stored = .ok held ∧ held.Alike visit.found.resource := by
  obtain ⟨fetched, led, store₁, hGet, hLead, hVisits⟩ := of_mem_itinerary hVisit
  rw [hVisits] at hVisit
  have hCounted : (store.count .get).Reachable := hStore.serve now (.get key)
  have hLed : store₁.Reachable := hCounted.exec hLead
  obtain ⟨⟨document, hStored, hRead⟩, -⟩ := Store.of_get_eq_ok (Prod.ext hGet rfl)
  obtain ⟨hKey, document', hStored', hRead', -, -⟩ :=
    (secures_of_lead ⟨hLead, rfl⟩ (.inr rfl)).exists_stored hCounted hLed hStored hRead
  have hPeek : store₁.peek led.resource.key = some led.resource :=
    hKey ▸ Store.peek_eq_some hStored' hRead'
  have hCurrent : led.resource.Current store₁ :=
    fun found hFound => Option.some.inj (hFound.symm.trans hPeek)
  obtain ⟨hReachable, -, hFaithful⟩ := faithful_of_mem_visits (hQuiet.confined key) hLed
    (hKey ▸ .found) hCurrent.faithful visit hVisit
  have hReadable : visit.store.Reachable ∧ visit.store.ReadableAt visit.found.resource.key :=
    visits_induction (fun found store => store.Reachable ∧ store.ReadableAt found.resource.key)
      ⟨hLed, fun _ => ⟨_, hPeek⟩⟩ (fun visit hStep hPasses hFound =>
        ⟨hFound.1.exec rfl, hPasses.readableAt (hQuiet.steps _ hStep) hFound.1 hFound.2⟩) visit hVisit
  refine ⟨hReachable, fun stored hFound => ?_⟩
  obtain ⟨held, hHeld⟩ := hReadable.2 (Option.isSome_iff_exists.2 ⟨stored, hFound⟩)
  obtain ⟨_, hSame, hRead⟩ := Store.of_peek_eq_some hHeld
  cases hFound.symm.trans hSame
  exact ⟨held, hRead, hFaithful held hHeld⟩

/-- The mark of a step is on the stored resource before the work begins, or nothing happens. -/
structure MarksFirst (engine : Engine σ) (now : Timestamp) (key : Key) (state : σ) (store : Store)
    (visit : Visit σ) : Prop where
  /-- Before, no difference is seen between what is in hand and what is stored. -/
  held : ∀ stored, visit.store.objects.get? visit.found.resource.key = some stored →
    ∃ held, Resource.ofJson stored = .ok held ∧ held.Alike visit.found.resource
  /-- What the hook is given has the mark. -/
  given : visit.step.underWay.Stands
    (visit.found.resource.setCondition now visit.step.underWay).standing.conditions
  begins : ∀ {scene store'}, visit.Begins engine now scene store' →
    ∃ marked old new, visit.BeginsMarked engine now scene store' marked old new
  fails : ∀ {report marked}, visit.marking engine now =
      ⟨.error (.error report), marked, visit.store⟩ →
    visit.GivesUp engine now key state store
  refused : ∀ {marked error}, visit.marking engine now = ⟨.ok (), marked, visit.store⟩ →
    (visit.store.updateStatus marked.resource).1 = .error error →
    (∀ cause, error ≠ .codec (.unreadable cause)) → visit.GivesUp engine now key state store

/-- A step that is marked begins on the stored resource with the mark on it, if its hook keeps the
key; if the mark could not be written, and it is not that the resource cannot be read any more, the
invocation gives up. -/
theorem marksFirst_of_mem_itinerary {registrations : List (Registration σ)}
    (hBuild : build registrations = .ok engine) (hQuiet : engine.Quiet) (hStore : store.Reachable)
    (hVisit : visit ∈ engine.itinerary now key state store) (hMarks : visit.step.marks = true)
    (hSkips : (visit.skipping engine).1 = false)
    (hHook : ∀ hook, visit.step.hook = some hook → hook.Keeps (· = visit.found.resource.key)) :
    MarksFirst engine now key state store visit := by
  obtain ⟨hReachable, hHeld⟩ := hQuiet.exists_held hStore hVisit
  have hStep := build_sound hBuild visit.step (step_mem_of_mem_itinerary hVisit)
  have hRunHook := (hQuiet.steps _ (step_mem_of_mem_itinerary hVisit)).runHook
  constructor
  case held => exact hHeld
  case given => exact Condition.stands_setIn now visit.step.underWay _
  case begins =>
    intro scene store' hBegins
    exact hBegins.exists_marked hStep hMarks hRunHook hReachable
      (Step.key_marking now (visit.asked engine) visit.store hHook)
  case fails =>
    intro report marked hMarking
    exact Visit.givesUp_of_unmarked hVisit (Visit.approached_of_unmarked hSkips hMarks
      (hStep.exec_mark_of_error hMarking)) rfl (Store.unharmed_of_kept rfl)
  case refused =>
    intro marked error hMarking hRefused hCause
    have hMark : (visit.step.mark now).exec now (visit.asked engine) visit.store =
        ⟨.error (.error (.store error)), { marked with resource := visit.found.resource },
          (visit.store.updateStatus marked.resource).2⟩ := by
      rw [hStep.exec_mark_of_ok hMarking]
      refine Edit.exec_renew_of_error ?_
      rw [Task.exec_updateStatus, hRefused]
    refine Visit.givesUp_of_unmarked hVisit (Visit.approached_of_unmarked hSkips hMarks hMark) rfl ?_
    rcases Store.updateStatus_cases hReachable marked.resource with
      ⟨_, -, -, hUnharmed⟩ | ⟨old, new, -, hAnswer⟩
    · exact hUnharmed
    · obtain ⟨cause, hUnread, rfl⟩ :=
        Except.mapError_eq_error_iff.1 (hAnswer.symm.trans hRefused)
      obtain ⟨reading, rfl⟩ := Resource.exists_unreadable_of_ofJson hUnread
      exact absurd rfl (hCause reading)

/-- A step that is marked, and whose hook moves the resource to another phase. -/
def announced : Step Unit :=
  Step.ofOptions "Ready" (pure ()) {
    marks := true
    hook := some (Task.modifyResource (Resource.setPhase .pending)) }

def announcing : Engine Unit where
  steps := [announced]

theorem quiet_announcing : announcing.Quiet where
  steps step hStep := by
    obtain rfl := List.mem_singleton.1 hStep
    exact ⟨fun _ => ⟨_, rfl⟩, by rintro _ ⟨⟩ scene; exact ⟨_, rfl⟩, by rintro _ ⟨⟩⟩
  cleanup _ _ hFinalizer := nomatch hFinalizer

/-- The work of the step finds the mark and the phase. -/
theorem marksFirst_of_announcing :
    let visit : Visit Unit := ⟨announced, ⟨Edit.plainResource, ()⟩, Edit.plainStore.count .get⟩
    let scene := (visit.approached announcing default).scene
    build [.step "Ready" announced.work { marks := true, hook := announced.hook }] =
        .ok announcing ∧
      announcing.Quiet ∧ Edit.plainStore.Reachable ∧
      visit ∈ announcing.itinerary default Edit.plainResource.key () Edit.plainStore ∧
      visit.step.marks = true ∧ (visit.skipping announcing).1 = false ∧
      (∀ hook, visit.step.hook = some hook → hook.Keeps (· = visit.found.resource.key)) ∧
      visit.Begins announcing default scene (visit.approached announcing default).store ∧
      scene.resource.standing.phase = .pending ∧
      scene.resource.standing.find? "Ready" =
        some { visit.step.underWay with since := some default } ∧
      MarksFirst announcing default Edit.plainResource.key () Edit.plainStore visit := by
  intro visit scene
  have hBuild : build [.step "Ready" announced.work { marks := true, hook := announced.hook }] =
      .ok announcing := rfl
  have hVisits : announcing.itinerary default Edit.plainResource.key () Edit.plainStore =
      announcing.visits default announcing.steps ⟨Edit.plainResource, ()⟩
        (Edit.plainStore.count .get) := itinerary_of_ready rfl rfl
  have hVisit : visit ∈ announcing.itinerary default Edit.plainResource.key () Edit.plainStore := by
    rw [hVisits]
    exact List.mem_cons_self
  have hHook : ∀ hook, visit.step.hook = some hook → hook.Keeps (· = visit.found.resource.key) := by
    rintro _ ⟨⟩ found hKey
    exact ⟨_, rfl, hKey⟩
  exact ⟨hBuild, quiet_announcing, Edit.plainStore_reachable, hVisit, rfl, rfl, hHook,
    Visit.begins_of_isBegun (by decide +kernel), by decide +kernel, by decide +kernel,
    marksFirst_of_mem_itinerary hBuild quiet_announcing Edit.plainStore_reachable hVisit rfl rfl
      hHook⟩

/-- A step that keeps a copy of the status among the further members of the status. -/
def hoarding : Step Unit :=
  Step.ofOptions "Hoarded"
    (Task.modifyResource (Resource.mapStatus fun status => { status with extra := status.toObject }))
    {}

def idling : Step Unit := Step.ofOptions "Ready" (pure ()) { marks := true }

def smothering : Engine Unit where
  steps := [hoarding, idling]

theorem quiet_smothering : smothering.Quiet where
  steps step hStep := by
    simp only [smothering, List.mem_cons, List.not_mem_nil, or_false] at hStep
    rcases hStep with rfl | rfl
    · exact ⟨fun _ => ⟨_, rfl⟩, by rintro _ ⟨⟩, by rintro _ ⟨⟩⟩
    · exact ⟨fun _ => ⟨_, rfl⟩, by rintro _ ⟨⟩, by rintro _ ⟨⟩⟩
  cleanup _ _ hFinalizer := nomatch hFinalizer

def served : Resource :=
  { Edit.plainResource with
    status := some { standing := { conditions := [{
      type := "Served"
      status := .holds
      reason := "Ok"
      message := "" }] } } }

def servedStore : Store := (Store.insert served {}).2

theorem servedStore_reachable : servedStore.Reachable :=
  .serve .empty default (.insert served)

/-- The copy stands in the place of the conditions when the second step is marked: its work begins
without the mark, in hand as in the store. -/
theorem not_underWay_of_smothering :
    let first : Visit Unit := ⟨hoarding, ⟨served, ()⟩, servedStore.count .get⟩
    let ended := first.ended smothering default
    let visit : Visit Unit := ⟨idling, ended.scene, ended.store⟩
    let begun := visit.approached smothering default
    build [.step "Hoarded" hoarding.work {}, .step "Ready" idling.work { marks := true }] =
        .ok smothering ∧
      smothering.Quiet ∧ servedStore.Reachable ∧
      visit ∈ smothering.itinerary default served.key () servedStore ∧
      visit.step.marks = true ∧ visit.step.hook = none ∧
      visit.Begins smothering default begun.scene begun.store ∧
      begun.scene.resource.standing.has "Ready" = false ∧
      begun.store.peek served.key = some begun.scene.resource := by
  intro first ended visit begun
  have hVisits : smothering.itinerary default served.key () servedStore =
      smothering.visits default smothering.steps ⟨served, ()⟩ (servedStore.count .get) :=
    itinerary_of_ready rfl rfl
  have hResult : ended.result = .ok (.worked {} (.ok .nothing)) :=
    Except.of_toOption_eq_some (by decide +kernel)
  have hEnded : ended = ⟨.ok (.worked {} (.ok .nothing)), ended.scene, ended.store⟩ := by
    rw [← hResult]
  refine ⟨rfl, quiet_smothering, servedStore_reachable, ?_, rfl, rfl,
    Visit.begins_of_isBegun (by decide +kernel), by decide +kernel, by decide +kernel⟩
  rw [hVisits, show smothering.steps = [hoarding, idling] from rfl, visits_cons hEnded rfl]
  exact List.mem_cons_of_mem _ List.mem_cons_self

end Engine

end Reconciliation
