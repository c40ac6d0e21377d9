import Reconciliation.Proofs.Condition.Setting
import Reconciliation.Proofs.Engine.Order
import Reconciliation.Proofs.Engine.Passages
import Reconciliation.Proofs.Engine.StepReadBack

/-!
What an invocation leaves that gets through all of its steps. The conditions of all steps stand on the
stored resource then, and its metadata are those that the steps have found, the version apart.
-/
namespace Reconciliation

/-- The metadata and the conditions of a resource are the same after work on it, and nothing else
stands in the place of the conditions. -/
structure Resource.SameRecord (before after : Resource) : Prop where
  metadata : after.metadata = before.metadata
  conditions : after.standing.conditions = before.standing.conditions
  clear : ∀ status, after.status = some status → status.extra.get? "conditions" = none

/-- A resource with the same record has nothing in the way of a condition that is set. -/
theorem Resource.SameRecord.exists_status_setCondition {before after : Resource}
    (h : before.SameRecord after) (now : Timestamp) (condition : Condition) :
    ∃ status, (after.setCondition now condition).status = some status ∧
      status.extra.get? "conditions" = none ∧
      status.standing.conditions = Condition.setIn now condition before.standing.conditions := by
  refine ⟨_, rfl, ?_, ?_⟩
  · cases hStatus : after.status with
    | none => rfl
    | some status => exact h.clear status hStatus
  · rw [← h.conditions, Resource.standing]
    cases after.status <;> rfl

/-- What is stored under a key has these metadata, the version apart, and these conditions stand on
it. -/
structure Store.Carries (store : Store) (key : Key) (metadata : Metadata)
    (conditions : List Condition) : Prop where
  reachable : store.Reachable
  stored : ∃ document found version, store.objects.get? key = some document ∧
    Resource.ofJson document = .ok found ∧ found.metadata = { metadata with version } ∧
    ∀ condition ∈ conditions, condition.Stands found.standing.conditions

namespace Store.Carries

variable {store store' : Store} {key : Key} {metadata : Metadata} {conditions : List Condition}

/-- What is read under the key has these metadata and conditions. -/
theorem of_get (h : store.Carries key metadata conditions) {resource : Resource} {last : Store}
    (hGet : store.get key = (.ok resource, last)) :
    ∃ document version, store.objects.get? key = some document ∧
      Resource.ofJson document = .ok resource ∧ resource.metadata = { metadata with version } ∧
      ∀ condition ∈ conditions, condition.Stands resource.standing.conditions := by
  obtain ⟨document, found, version, hStored, hRead, hFound⟩ := h.stored
  obtain ⟨⟨_, hStored', hRead'⟩, -⟩ := Store.of_get_eq_ok hGet
  cases hStored.symm.trans hStored'
  cases hRead.symm.trans hRead'
  exact ⟨document, version, hStored, hRead, hFound⟩

/-- A condition that is set on what was fetched, and written, stands beside those that stood before.
-/
theorem setCondition (h : store.Carries key metadata conditions) (hLives : metadata.deletion = none)
    {condition : Condition} (hFresh : ∀ old ∈ conditions, old.type ≠ condition.type)
    {base : Edit.Base} (hKey : base.key = key)
    (hGet : store.get key = (.ok base.resource, store.count .get))
    (hSnapshot : base.resource.snapshot = .ok base.snapshot) {left result : Resource}
    (hSame : base.resource.SameRecord left) {now : Timestamp} {after : Snapshot}
    (hAfter : (left.setCondition now condition).snapshot = .ok after) {written : Written}
    {made : List Request} (hWrites : Edit.Writes base (left.setCondition now condition) after
      (store.count .get) written made result store') (hReachable : store'.Reachable) :
    result.key = key ∧ store'.Carries key metadata (condition :: conditions) := by
  obtain ⟨document, version, hStored, hRead, hFound, hStands⟩ := h.of_get hGet
  have hSound := h.reachable.sound
  have hMetadata : (left.setCondition now condition).metadata = { metadata with version } :=
    hSame.metadata.trans hFound
  have hBaseKey : base.resource.key = key :=
    (h.reachable.keyed hStored).key_of_ofJson (hSound.stored hStored).1 hRead
  have hNamed : (left.setCondition now condition).key = base.key := by
    rw [hKey, ← hBaseKey, Resource.key, hMetadata, ← hFound]
    rfl
  have hStays : (left.setCondition now condition).isTerminating = false := by
    rw [Resource.isTerminating, hMetadata]
    exact Option.isSome_eq_false_iff.2 (Option.isNone_iff_eq_none.2 hLives)
  obtain ⟨document', found, hStored', hRead', hLeaves, hResultKey⟩ := hWrites.exists_left
    ⟨hSound.stored, hSound.distinct⟩ (hKey ▸ hStored) hRead hSnapshot hAfter hNamed (.inr hStays)
  -- What stands there now need not be the status that was set, but its conditions are those.
  obtain ⟨new, hNew, hClear, hSet⟩ := hSame.exists_status_setCondition now condition
  obtain ⟨_, _, _, hParts⟩ := (hSound.stored hStored).1
  obtain ⟨status, hStatus, hConditions⟩ := Edit.StatusAfter.conditions_eq (hNew ▸ hLeaves.status)
    ((Resource.ofJson_eq_ok_iff hParts).1 hRead).status hClear
  have hLeft : found.standing.conditions =
      Condition.setIn now condition base.resource.standing.conditions := by
    rw [Resource.standing, hStatus, Option.elim, hConditions, hSet]
  refine ⟨hResultKey.trans hKey, hReachable, document', found, found.metadata.version,
    hKey ▸ hStored', hRead', ?_, ?_⟩
  · rw [hLeaves.metadata, hMetadata]
  · intro old hOld
    rw [hLeft]
    rcases List.mem_cons.1 hOld with rfl | hStood
    · exact Condition.stands_setIn _ _ _
    · exact (hStands old hStood).setIn (hFresh old hStood)

end Store.Carries

namespace Step

variable {σ : Type} {step : Step σ} {now : Timestamp} {resource : Resource}

def success (step : Step σ) (metadata : Metadata) : Condition :=
  { step.conditionFor (.ok ()) with generation := metadata.generation }

theorem settle_ok : step.settle now (.ok ()) resource =
    resource.setCondition now (step.success resource.metadata) := rfl

/-- What comes of work that succeeds, if there is no hook. -/
theorem exec_perform_of_ok (hStep : step.Sound) (hHook : step.hook = none) {scene left : Scene σ}
    {store store' : Store} (hWork : step.work.exec now scene store = ⟨.ok (), left, store'⟩)
    (catches : Bool) (sink : Option (EventSink σ)) :
    ∃ state, (step.perform now catches sink).exec now scene store =
      ⟨.ok {}, ⟨step.settle now (.ok ()) left.resource, state⟩, store'⟩ := by
  have hAttempt : (step.attemptWork catches).exec now scene store = ⟨.ok (.ok ()), left, store'⟩ :=
    exec_attemptWork_of_exec hWork nofun
  have hShow : step.showFailure (step.conditionFor (.ok ())) = pure () := rfl
  refine ⟨(step.judged sink (.ok ()) left).state, ?_⟩
  rw [perform, Task.exec_bind, hAttempt, Execution.andThen_ok, record_eq, Task.exec_bind,
    exec_settling hStep, hShow, runHook, hHook]
  rfl

end Step

namespace Engine

variable {σ : Type}

/-- An engine that asks no skippers, whose steps have a condition each and neither mark it nor have
hooks, and in which nothing that users supply makes requests. -/
structure Bare (engine : Engine σ) : Prop where
  preFinalizeSkipper : engine.preFinalizeSkipper = none
  skipper : engine.skipper = none
  stepSkipper : engine.stepSkipper = none
  types : (engine.steps.map Step.type).Nodup
  marks : ∀ step ∈ engine.steps, step.marks = false
  hook : ∀ step ∈ engine.steps, step.hook = none
  sound : ∀ step ∈ engine.steps, step.Sound
  quiet : ∀ step ∈ engine.steps, step.Quiet

variable {engine : Engine σ} {now : Timestamp} {step : Step σ} {scene scene' : Scene σ}
  {store store' : Store} {made : List Request}

/-- Without a skipper and without a mark, the work of a step begins once the resource is fetched. -/
theorem ends_approach_begun_iff (hSkipper : engine.stepSkipper = none) (hMarks : step.marks = false)
    {base : Edit.Base} :
    (engine.approach now step).Ends now scene store made ⟨.ok (.begun base), scene', store'⟩ ↔
      Edit.fetch.Ends now scene store made ⟨.ok base, scene', store'⟩ := by
  have hSkips : engine.skips step = pure false := by rw [skips, hSkipper]
  have hMark : (markStep step now : Task σ Empty _) = pure (.ok ()) := by
    rw [markStep, hMarks, if_neg Bool.false_ne_true]
  rw [approach, hSkips, hMark, pure_bind, if_neg Bool.false_ne_true, pure_bind,
    Task.ends_bind_ok_iff]
  constructor
  · rintro ⟨first, rest, fetched, scene₁, store₁, rfl, hFetch, hRest⟩
    cases fetched with
    | error error => cases (Task.ends_pure_iff.1 hRest).2
    | ok found =>
        obtain ⟨rfl, hEnd⟩ := Task.ends_pure_iff.1 hRest
        cases hEnd
        rw [List.append_nil]
        exact Task.ends_attempt_ok_iff.1 hFetch
  · intro hFetch
    exact ⟨made, [], .ok base, scene', store', (List.append_nil _).symm,
      Task.ends_attempt_ok_iff.2 hFetch, Task.ends_pure_iff.2 ⟨rfl, rfl⟩⟩

end Engine

namespace Visit

variable {σ : Type} {visit : Visit σ} {engine : Engine σ} {now : Timestamp}

/-- The work of the step is done and written. It succeeds, and leaves the metadata and the
conditions alone. -/
structure Settles (visit : Visit σ) (engine : Engine σ) (now : Timestamp) : Prop where
  worked : ∃ recorded written, (visit.ended engine now).result = .ok (.worked recorded (.ok written))
  succeeds : ∀ scene store, visit.Begins engine now scene store →
    (visit.step.work.exec now scene store).result = .ok () ∧
      scene.resource.SameRecord (visit.step.work.exec now scene store).scene.resource

/-- A visit that settles is an edit of the stored resource. -/
theorem Settles.exists_edited (h : visit.Settles engine now) (hSkipper : engine.stepSkipper = none)
    (hMarks : visit.step.marks = false) :
    ∃ fetched recorded written,
      visit.store.get visit.found.resource.key = (.ok fetched, visit.store.count .get) ∧
      (visit.step.work.exec now { visit.found with resource := fetched }
        (visit.store.count .get)).result = .ok () ∧
      fetched.SameRecord (visit.step.work.exec now { visit.found with resource := fetched }
        (visit.store.count .get)).scene.resource ∧
      (visit.ended engine now).result = .ok (.worked recorded (.ok written)) ∧
      (visit.step.edit now engine.config.catchesPanics engine.sink).run.exec now visit.found
        visit.store = ⟨.ok { mutation := some recorded, written := .ok written },
          (visit.ended engine now).scene, (visit.ended engine now).store⟩ := by
  obtain ⟨recorded, written, hEnded⟩ := h.worked
  obtain ⟨base, scene, store, hApproached⟩ := exists_begun_of_worked hEnded
  obtain ⟨hWork, hSame⟩ := h.succeeds scene store ⟨base, hApproached⟩
  have hFetch := (Engine.ends_approach_begun_iff hSkipper hMarks).1 ⟨hApproached, rfl⟩
  obtain ⟨-, -, hGet, -, rfl⟩ := Edit.ends_fetch_ok_iff.1 hFetch
  obtain ⟨-, rfl⟩ := Store.of_get_eq_ok hGet
  refine ⟨base.resource, recorded, written, hGet, hWork, hSame, hEnded, ?_⟩
  have hCarried : visit.ended engine now = (engine.carryOut now visit.step (.begun base)).exec now
      { visit.found with resource := base.resource } (visit.store.count .get) := by
    rw [ended_eq, hApproached, Execution.andThen_ok]
  rw [hCarried] at hEnded ⊢
  rcases hExec : (engine.carryOut now visit.step (.begun base)).exec now
    { visit.found with resource := base.resource } (visit.store.count .get) with
    ⟨result, scene', store'⟩
  rw [hExec] at hEnded
  obtain rfl : result = .ok (.worked recorded (.ok written)) := hEnded
  obtain ⟨found, worked, store₁, hPerform, hRest⟩ := Task.exec_bind_eq_ok_iff.1 hExec
  obtain ⟨ended, last, store₂, hPersist, hDone⟩ := Task.exec_bind_eq_ok_iff.1 hRest
  cases hDone
  exact Edit.exec_run_of_fetch_ok hFetch.exec hPerform hPersist

variable {key : Key} {metadata : Metadata} {conditions : List Condition}

/-- A visit that settles adds the condition of its step to those that stand on the stored resource.
-/
theorem Settles.carries (h : visit.Settles engine now) (hBare : engine.Bare)
    (hStep : visit.step ∈ engine.steps) (hKey : visit.found.resource.key = key)
    (hLives : metadata.deletion = none) (hCarries : visit.store.Carries key metadata conditions)
    (hFresh : ∀ condition ∈ conditions, condition.type ≠ visit.step.type) :
    visit.Passes engine now ∧ (visit.ended engine now).scene.resource.key = key ∧
      (visit.ended engine now).store.Carries key metadata
        (visit.step.success metadata :: conditions) := by
  obtain ⟨fetched, recorded, written, hGet, hWork, hSame, hEnded, hRun⟩ :=
    h.exists_edited hBare.stepSkipper (hBare.marks _ hStep)
  obtain ⟨course, made, hValue, -, hWrites, -⟩ :=
    Edit.exists_course_of_exec (hBare.quiet _ hStep).perform (by rintro _ ⟨⟩) hRun rfl
      fun _ _ => rfl
  obtain ⟨rfl, hCount⟩ : course.base.resource = fetched ∧ course.fetched = visit.store.count .get := by
    have hCourse := course.get_eq.symm.trans hGet
    exact ⟨Except.ok.inj (congrArg Prod.fst hCourse), congrArg Prod.snd hCourse⟩
  rcases hWorked : visit.step.work.exec now { visit.found with resource := course.base.resource }
    (visit.store.count .get) with ⟨ended, left, last⟩
  rw [hWorked] at hWork hSame
  obtain rfl : ended = .ok () := hWork
  obtain ⟨state, hPerform⟩ := Step.exec_perform_of_ok (hBare.sound _ hStep) (hBare.hook _ hStep)
    hWorked engine.config.catchesPanics engine.sink
  have hMutate := (hCount ▸ hPerform).symm.trans course.mutate_eq
  have hRecorded : recorded = {} := by
    rw [Option.some.inj hValue]
    exact (Except.ok.inj (congrArg Execution.result hMutate)).symm
  subst hKey
  obtain ⟨_, version, -, -, hFound, -⟩ := hCarries.of_get hGet
  have hResource : course.settled.resource =
      left.resource.setCondition now (visit.step.success metadata) := by
    have hSuccess : visit.step.success left.resource.metadata = visit.step.success metadata := by
      rw [hSame.metadata, hFound]
      rfl
    rw [← hSuccess, ← Step.settle_ok]
    exact (congrArg (fun execution => execution.scene.resource) hMutate).symm
  have hReachable := hCarries.reachable.run (engine.visitStep now visit.step visit.found) now
  obtain ⟨hLeftKey, hCarriesOn⟩ := hCarries.setCondition hLives hFresh course.key_eq hGet
    course.snapshot_eq hSame (hResource ▸ course.after_eq) (hResource ▸ hCount ▸ hWrites) hReachable
  exact ⟨⟨_, hEnded, hRecorded ▸ rfl⟩, hLeftKey, hCarriesOn⟩

end Visit

namespace Engine

variable {σ : Type} {engine : Engine σ} {now : Timestamp} {key : Key} {state : σ} {store : Store}

/-- Steps whose visits all settle have their conditions on the stored resource in the end. -/
theorem carries_of_visits (hBare : engine.Bare) {metadata : Metadata}
    (hLives : metadata.deletion = none) {steps : List (Step σ)} (hSteps : ∀ step ∈ steps, step ∈ engine.steps)
    (hTypes : (steps.map Step.type).Nodup) {scene : Scene σ}
    (hSettles : ∀ visit ∈ engine.visits now steps scene store, visit.Settles engine now)
    (hKey : scene.resource.key = key) {conditions : List Condition}
    (hCarries : store.Carries key metadata conditions)
    (hFresh : ∀ condition ∈ conditions, ∀ step ∈ steps, condition.type ≠ step.type) :
    ((engine.runSteps now steps).exec now scene store).store.Carries key metadata
      ((steps.map fun step => step.success metadata).reverse ++ conditions) := by
  induction steps generalizing scene store conditions with
  | nil => exact hCarries
  | cons step rest ih =>
      obtain ⟨hType, hRest⟩ := List.nodup_cons.1 hTypes
      have hVisit : (Visit.mk step scene store).Settles engine now := hSettles _ List.mem_cons_self
      obtain ⟨hPasses, hLeftKey, hLeft⟩ := hVisit.carries hBare (hSteps step List.mem_cons_self)
        hKey hLives hCarries
        fun condition hCondition => hFresh condition hCondition step List.mem_cons_self
      rcases visits_cases engine now step rest scene store with
        ⟨hStops, -⟩ | ⟨fate, scene', store', hGoes, hEnded, hVisits⟩
      · exact absurd hPasses hStops
      · rw [hEnded] at hLeftKey hLeft
        rw [hVisits] at hSettles
        have hDone := ih (fun step hStep => hSteps step (List.mem_cons_of_mem _ hStep)) hRest
          (fun visit hMem => hSettles visit (List.mem_cons_of_mem _ hMem)) hLeftKey hLeft ?_
        · have hExec : (engine.runSteps now (step :: rest)).exec now scene store =
              (engine.runSteps now rest).exec now scene' store' := by
            simp only [runSteps, Task.exec_bind, exec_runStep, hEnded, Except.map, controlAfter, hGoes,
              Bool.false_eq_true, if_false, Execution.andThen_ok]
          rw [hExec, List.map_cons, List.reverse_cons, List.append_assoc]
          exact hDone
        · -- Later steps set conditions of other types.
          intro condition hCondition later hLater
          rcases List.mem_cons.1 hCondition with rfl | hOld
          · exact fun hSame => hType (List.mem_map.2 ⟨later, hLater, hSame.symm⟩)
          · exact hFresh condition hOld later (List.mem_cons_of_mem _ hLater)

/-- An invocation that comes to its steps and settles each of them, and so gets through them all. -/
structure Completes (engine : Engine σ) (now : Timestamp) (key : Key) (state : σ) (store : Store) :
    Prop where
  ready : ∃ resource scene store', (store.get key).1 = .ok resource ∧
    resource.isTerminating = false ∧
    (engine.lead now).exec now ⟨resource, state⟩ (store.count .get) = ⟨.ok .ready, scene, store'⟩
  settles : ∀ visit ∈ engine.itinerary now key state store, visit.Settles engine now

/-- A resource that an engine has nothing left to do about, if the work of its steps does not change
it: it can be written, is not being deleted, holds the finalizer, and has the conditions of all
steps. -/
structure Settled (engine : Engine σ) (key : Key) (resource : Resource) : Prop where
  key_eq : resource.key = key
  writable : resource.unwritable = none
  lives : resource.isTerminating = false
  holds : ∀ finalizer, engine.finalizer = some finalizer →
    resource.hasFinalizer finalizer.name = true
  stands : ∀ step ∈ engine.steps,
    (step.success resource.metadata).Stands resource.standing.conditions

/-- A completed invocation leaves a resource that is settled. -/
theorem Completes.exists_settled (h : engine.Completes now key state store) (hBare : engine.Bare)
    (hStore : store.Reachable) :
    ∃ document found, (engine.trace now key state store).store.objects.get? key = some document ∧
      Resource.ofJson document = .ok found ∧ engine.Settled key found := by
  obtain ⟨resource, scene, store', hGet, hLives, hLead⟩ := h.ready
  have hSettles := h.settles
  rw [itinerary_of_ready hGet hLead] at hSettles
  have hFetched : (store.count .get).Reachable := hStore.serve now (.get key)
  have hLed : store'.Reachable := hFetched.exec hLead
  obtain ⟨⟨document, hStored, hRead⟩, -⟩ := Store.of_get_eq_ok (Prod.ext hGet rfl)
  obtain ⟨hKey, document', hStored', hRead', hMarks, hHolds⟩ :=
    (secures_of_lead ⟨hLead, rfl⟩ (.inr rfl)).exists_stored hFetched hLed hStored hRead
  have hParts := (hLed.sound.stored hStored').1
  have hStays : scene.resource.metadata.deletion = none := by
    have hMarked := (Json.isMarked_of_ofJson hParts hRead').symm.trans (hMarks.trans hLives)
    exact Option.isNone_iff_eq_none.1 (Option.isSome_eq_false_iff.1 hMarked)
  have hCame : store'.Carries key scene.resource.metadata [] :=
    ⟨hLed, document', scene.resource, _, hStored', hRead', rfl, by simp⟩
  have hCarries := carries_of_visits hBare hStays (fun _ hStep => hStep) hBare.types hSettles hKey
    hCame (by simp)
  obtain ⟨last, found, version, hLast, hFound, hMetadata, hStands⟩ := hCarries.stored
  have hTrace : (engine.trace now key state store).store =
      ((engine.runSteps now engine.steps).exec now scene store').store :=
    congrArg Prod.snd (run_eq_of_ready (Prod.ext hGet rfl) hLead)
  have hLastParts := (hCarries.reachable.sound.stored hLast).1
  refine ⟨last, found, hTrace ▸ hLast, hFound, ?_⟩
  exact {
    key_eq := (hCarries.reachable.keyed hLast).key_of_ofJson hLastParts hFound
    writable := by
      obtain ⟨_, _, _, hLastParts⟩ := hLastParts
      exact ((Resource.ofJson_eq_ok_iff hLastParts).1 hFound).writable
    lives := by
      rw [Resource.isTerminating, hMetadata, hStays]
      rfl
    holds := by
      intro finalizer hFinalizer
      rw [Resource.hasFinalizer, hMetadata]
      exact (Json.holds_iff_of_ofJson hParts hRead').1 (hHolds finalizer hFinalizer)
    stands := by
      intro step hStep
      have hSame : step.success found.metadata = step.success scene.resource.metadata := by
        rw [hMetadata]
        rfl
      rw [hSame]
      exact hStands _ (by simpa using ⟨step, hStep, rfl⟩) }

end Engine

end Reconciliation
