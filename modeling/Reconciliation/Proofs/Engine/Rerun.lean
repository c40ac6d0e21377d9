import Reconciliation.Proofs.Engine.Completion
import Reconciliation.Proofs.Finalizer.Phases

namespace Reconciliation

namespace Edit

variable {σ : Type} {scene : Scene σ}

/-- A resource that is as it was fetched is not written. -/
theorem persist_of_unchanged {base : Base} (hKey : scene.resource.key = base.key)
    (hSnapshot : scene.resource.snapshot = .ok base.snapshot) :
    persist base false none scene = .done (.ok .nothing, scene) := by
  have hMain : base.snapshot.MainAgree base.snapshot := Json.Agree.refl _
  have hStatus : base.snapshot.StatusAgree base.snapshot := rfl
  rw [persist_of_snapshot hKey hSnapshot, write, decide_eq_true hMain, decide_eq_true hStatus]
  rfl

end Edit

namespace Step

variable {σ : Type} {step : Step σ} {now : Timestamp} {resource : Resource} {scene : Scene σ}
  {store : Store}

/-- A resource on which the condition for a success stands is settled as it is. -/
theorem settle_ok_of_stands
    (h : (step.success resource.metadata).Stands resource.standing.conditions) :
    step.settle now (.ok ()) resource = resource := by
  obtain ⟨metadata, spec, status, unwritable⟩ := resource
  cases status with
  | none =>
      obtain ⟨_, hFind⟩ := h
      cases hFind
  | some status =>
      rw [settle_ok]
      have hSet := h.setIn_eq now
      simp only [Resource.standing, Option.elim] at hSet
      simp only [Resource.setCondition, Resource.mapStanding, Resource.mapStatus, Standing.set,
        Option.getD_some, hSet]

/-- Work that leaves a resource alone on which the condition for a success stands changes nothing by
being recorded. -/
theorem ends_perform_of_stands (hStep : step.Sound) (hQuiet : step.Quiet) (hHook : step.hook = none)
    {left : Scene σ} (hWork : step.work.exec now scene store = ⟨.ok (), left, store⟩)
    (hStands : (step.success left.resource.metadata).Stands left.resource.standing.conditions)
    (catches : Bool) (sink : Option (EventSink σ)) :
    ∃ state, (step.perform now catches sink).Ends now scene store []
      ⟨.ok {}, ⟨left.resource, state⟩, store⟩ := by
  obtain ⟨state, hPerform⟩ := exec_perform_of_ok hStep hHook hWork catches sink
  rw [settle_ok_of_stands hStands] at hPerform
  exact ⟨state, hQuiet.perform.ends hPerform⟩

end Step

/-- The work of the step succeeds and leaves the resource alone, if it begins. -/
def Visit.Rests {σ : Type} (visit : Visit σ) (engine : Engine σ) (now : Timestamp) : Prop :=
  ∀ scene store, visit.Begins engine now scene store →
    (visit.step.work.exec now scene store).result = .ok () ∧
      (visit.step.work.exec now scene store).scene.resource = scene.resource

namespace Engine

variable {σ : Type} {engine : Engine σ} {now : Timestamp} {key : Key} {resource : Resource}
  {store : Store} {state : σ}

/-- A visit that rests fetches the resource once. -/
theorem Settled.ends_visitStep (h : engine.Settled key resource) (hBare : engine.Bare)
    (hGet : store.get key = (.ok resource, store.count .get)) {step : Step σ}
    (hStep : step ∈ engine.steps)
    (hRests : (Visit.mk step ⟨resource, state⟩ store).Rests engine now) :
    ∃ state', (engine.visitStep now step).Ends now ⟨resource, state⟩ store [.get key]
      ⟨.ok (.worked {} (.ok .nothing)), ⟨resource, state'⟩, store.count .get⟩ := by
  obtain ⟨snapshot, hSnapshot⟩ : ∃ snapshot, resource.snapshot = .ok snapshot :=
    ⟨_, Resource.snapshot_eq_ok_iff.2 ⟨h.writable, rfl⟩⟩
  have hFetch : Edit.fetch.Ends now ⟨resource, state⟩ store [.get key]
      ⟨.ok ⟨key, resource, snapshot⟩, ⟨resource, state⟩, store.count .get⟩ :=
    Edit.ends_fetch_ok_iff.2
      ⟨by rw [h.key_eq], h.key_eq.symm, h.key_eq.symm ▸ hGet, hSnapshot, rfl⟩
  have hApproach := (ends_approach_begun_iff hBare.stepSkipper (hBare.marks step hStep)).2 hFetch
  obtain ⟨hResult, hLeft⟩ := hRests _ _ ⟨_, hApproach.exec⟩
  rcases hWork : step.work.exec now ⟨resource, state⟩ (store.count .get) with ⟨result, left, last⟩
  rw [hWork] at hResult hLeft
  dsimp only at hResult hLeft
  subst hResult hLeft
  obtain ⟨rfl, -⟩ := (hBare.quiet step hStep).work.exec_store hWork store
  obtain ⟨state', hPerform⟩ := Step.ends_perform_of_stands (hBare.sound step hStep)
    (hBare.quiet step hStep) (hBare.hook step hStep) hWork (h.stands step hStep)
    engine.config.catchesPanics engine.sink
  have hUnchanged : Edit.persist ⟨key, left.resource, snapshot⟩ false none ⟨left.resource, state'⟩ =
      .done (.ok .nothing, ⟨left.resource, state'⟩) := Edit.persist_of_unchanged h.key_eq hSnapshot
  have hPersist : (Edit.persist ⟨key, left.resource, snapshot⟩ false none).Ends now
      ⟨left.resource, state'⟩ (store.count .get) []
      ⟨.ok .nothing, ⟨left.resource, state'⟩, store.count .get⟩ :=
    ⟨by rw [Task.exec, hUnchanged]; rfl, by rw [hUnchanged]; rfl⟩
  -- Of the parts of a visit only the fetching asks the store for anything.
  refine ⟨state', Task.ends_bind_ok_iff.2 ⟨[.get key], [], _, _, _, rfl, hApproach, ?_⟩⟩
  refine Task.ends_bind_ok_iff.2 ⟨[], [], {}, _, _, rfl, hPerform, ?_⟩
  exact Task.ends_bind_ok_iff.2 ⟨[], [], _, _, _, rfl, Task.ends_attempt_ok_iff.2 hPersist,
    Task.ends_pure_iff.2 ⟨rfl, rfl⟩⟩

/-- Steps whose visits all rest fetch the resource once each and leave everything as it is. -/
theorem Settled.ends_runSteps (h : engine.Settled key resource) (hBare : engine.Bare)
    (hGet : store.get key = (.ok resource, store.count .get)) {steps : List (Step σ)}
    (hSteps : ∀ step ∈ steps, step ∈ engine.steps)
    (hRests : ∀ visit ∈ engine.visits now steps ⟨resource, state⟩ store, visit.Rests engine now) :
    ∃ state' store', (engine.runSteps now steps).Ends now ⟨resource, state⟩ store
        (List.replicate steps.length (.get key)) ⟨.ok .none, ⟨resource, state'⟩, store'⟩ ∧
      store'.resetCalls = store.resetCalls := by
  induction steps generalizing state store with
  | nil => exact ⟨state, store, Task.ends_pure_iff.2 ⟨rfl, rfl⟩, rfl⟩
  | cons step rest ih =>
      obtain ⟨state', hVisit⟩ := h.ends_visitStep hBare hGet (hSteps step List.mem_cons_self)
        (hRests _ List.mem_cons_self)
      rw [visits_cons hVisit.exec rfl] at hRests
      have hGetAgain : (store.count .get).get key = (.ok resource, (store.count .get).count .get) :=
        Prod.ext (congrArg Prod.fst hGet :) rfl
      obtain ⟨state'', store', hLater, hSame⟩ := ih hGetAgain
        (fun step hStep => hSteps step (List.mem_cons_of_mem _ hStep))
        (fun visit hMem => hRests visit (List.mem_cons_of_mem _ hMem))
      have hStep : (engine.runStep now step).Ends now ⟨resource, state⟩ store [.get key]
          ⟨.ok .proceed, ⟨resource, state'⟩, store.count .get⟩ := by
        rw [runStep_eq, map_eq_pure_bind]
        exact Task.ends_bind_ok_iff.2 ⟨[.get key], [], _, _, _, rfl, hVisit,
          Task.ends_pure_iff.2 ⟨rfl, rfl⟩⟩
      exact ⟨state'', store', Task.ends_bind_ok_iff.2 ⟨_, _, _, _, _, rfl, hStep, hLater⟩, hSame⟩

/-- An engine comes to its steps at once on a resource that it has seen to before. -/
theorem Settled.lead_eq (h : engine.Settled key resource) (hBare : engine.Bare) :
    engine.lead now ⟨resource, state⟩ = .done (.ok .ready, ⟨resource, state⟩) := by
  have hFinalize : engine.finalize now ⟨resource, state⟩ = .done (.ok none, ⟨resource, state⟩) := by
    unfold finalize
    cases hFinalizer : engine.finalizer with
    | none => rfl
    | some finalizer =>
        show (finalizer.enforce.attempt ⟨resource, state⟩).bind _ = _
        rw [Task.attempt, Finalizer.enforce_of_holding h.lives (h.holds finalizer hFinalizer)]
        rfl
  have hAsks : (asks engine.preFinalizeSkipper : Task σ WorkError Bool) = pure false := by
    rw [hBare.preFinalizeSkipper, asks]
  have hAsksAgain : (asks engine.skipper : Task σ WorkError Bool) = pure false := by
    rw [hBare.skipper, asks]
  rw [lead, hAsks, pure_bind, if_neg Bool.false_ne_true]
  show ((engine.finalize now).widen ⟨resource, state⟩).bind _ = _
  rw [Task.widen, Task.mapError, hFinalize]
  show ((asks engine.skipper : Task σ WorkError Bool) ⟨resource, state⟩).bind _ = _
  rw [hAsksAgain]
  rfl

/-- An invocation that has completed may be repeated at any time: if the work of all steps leaves
the resource alone then, it is fetched once and once more for each step, nothing else is asked of
the store, and nothing is changed there. -/
theorem Completes.rerun (h : engine.Completes now key state store) (hBare : engine.Bare)
    (hStore : store.Reachable) {again : Store}
    (hAgain : again.objects = (engine.trace now key state store).store.objects)
    (hGets : .get ∉ again.failing) {now' : Timestamp} {state' : σ}
    (hRests : ∀ visit ∈ engine.itinerary now' key state' again, visit.Rests engine now') :
    let rerun := engine.trace now' key state' again
    rerun.result = .ok .none ∧
      rerun.requests = List.replicate (engine.steps.length + 1) (.get key) ∧
      rerun.store.resetCalls = again.resetCalls := by
  obtain ⟨document, found, hStored, hRead, hSettled⟩ := h.exists_settled hBare hStore
  have hGet : again.get key = (.ok found, again.count .get) :=
    Store.get_eq_ok hGets (hAgain ▸ hStored) hRead
  have hGetAgain : (again.count .get).get key = (.ok found, (again.count .get).count .get) :=
    Prod.ext (congrArg Prod.fst hGet :) rfl
  have hLead : (engine.lead now').Ends now' ⟨found, state'⟩ (again.count .get) []
      ⟨.ok .ready, ⟨found, state'⟩, again.count .get⟩ :=
    ⟨by rw [Task.exec, hSettled.lead_eq hBare]; rfl, by rw [hSettled.lead_eq hBare]; rfl⟩
  rw [itinerary_of_ready (congrArg Prod.fst hGet) hLead.exec] at hRests
  obtain ⟨left, last, hSteps, hSame⟩ :=
    hSettled.ends_runSteps hBare hGetAgain (fun _ hStep => hStep) hRests
  have hProcess : (engine.process now').Ends now' ⟨found, state'⟩ (again.count .get)
      (List.replicate engine.steps.length (.get key)) ⟨.ok .none, ⟨found, left⟩, last⟩ := by
    rw [process_eq]
    exact Task.ends_bind_ok_iff.2 ⟨[], _, _, _, _, rfl, hLead, Task.ends_widen_ok_iff.2 hSteps⟩
  have hTrace : engine.trace now' key state' again =
      ⟨.ok .none, left, last, .get key :: List.replicate engine.steps.length (.get key)⟩ := by
    rw [trace_of_get (congrArg Prod.fst hGet), hProcess.exec, hProcess.requests]
  intro rerun
  rw [show rerun = _ from hTrace]
  exact ⟨rfl, rfl, hSame⟩

def counting (type : String) : Step Nat :=
  .ofOptions type (Task.modifyState fun _ count => count + 1) {}

def twofold : Engine Nat where
  steps := [counting "A", counting "B"]
  finalizer := some { name := "f" }

theorem exists_eq_counting {step : Step Nat} (hStep : step ∈ twofold.steps) :
    ∃ type, step = counting type := by
  simp only [twofold, List.mem_cons, List.not_mem_nil, or_false] at hStep
  rcases hStep with rfl | rfl <;> exact ⟨_, rfl⟩

theorem bare_twofold : twofold.Bare where
  preFinalizeSkipper := rfl
  skipper := rfl
  stepSkipper := rfl
  types := by decide
  marks _ hStep := by
    obtain ⟨_, rfl⟩ := exists_eq_counting hStep
    rfl
  hook _ hStep := by
    obtain ⟨_, rfl⟩ := exists_eq_counting hStep
    rfl
  sound := by
    intro step hStep
    simp only [twofold, List.mem_cons, List.not_mem_nil, or_false] at hStep
    rcases hStep with rfl | rfl <;> exact ⟨by decide, by decide, by decide, by decide⟩
  quiet _ hStep := by
    obtain ⟨_, rfl⟩ := exists_eq_counting hStep
    exact ⟨fun _ => ⟨_, rfl⟩, nofun, nofun⟩

/-- The status is written once the step has counted, and has had nothing in the place of its
conditions before. -/
def writesStatus (visit : Visit Nat) : Bool :=
  decide ((visit.ended twofold default).result.toOption = some (.worked {} (.ok .statusOnly))) &&
    (visit.approached twofold default).scene.resource.status.all fun status =>
      (status.extra.get? "conditions").isNone

theorem settles_of_writesStatus {visit : Visit Nat} (hStep : visit.step ∈ twofold.steps)
    (h : writesStatus visit = true) : visit.Settles twofold default := by
  obtain ⟨type, hCounting⟩ := exists_eq_counting hStep
  obtain ⟨hWorked, hClear⟩ := (Bool.and_eq_true _ _).mp h
  refine ⟨⟨{}, .statusOnly, ?_⟩, ?_⟩
  · have hWorked := of_decide_eq_true hWorked
    cases hResult : (visit.ended twofold default).result with
    | error reason =>
        rw [hResult] at hWorked
        cases hWorked
    | ok fate => exact congrArg Except.ok (Option.some.inj ((congrArg _ hResult).symm.trans hWorked))
  · rintro scene store ⟨base, hApproached⟩
    rw [hApproached] at hClear
    rw [hCounting]
    refine ⟨rfl, rfl, rfl, fun status hStatus => ?_⟩
    have hStatus : scene.resource.status = some status := hStatus
    rw [hStatus] at hClear
    exact Option.isNone_iff_eq_none.1 hClear

/-- The first invocation gets through both steps. -/
theorem completes_twofold : twofold.Completes default Edit.plainResource.key 0 Edit.plainStore := by
  have hVisits : (twofold.itinerary default Edit.plainResource.key 0 Edit.plainStore).all writesStatus =
      true := by decide +kernel
  have hTwo : (twofold.itinerary default Edit.plainResource.key 0 Edit.plainStore).length = 2 := by
    decide +kernel
  obtain ⟨first, hFirst⟩ := List.exists_mem_of_length_pos (hTwo ▸ Nat.two_pos)
  obtain ⟨resource, scene, store, hGet, hLead, hItinerary⟩ := of_mem_itinerary hFirst
  refine ⟨⟨resource, scene, store, hGet, ?_, hLead⟩, fun visit hVisit => ?_⟩
  · cases hGet
    rfl
  · refine settles_of_writesStatus ?_ (List.all_eq_true.1 hVisits visit hVisit)
    rw [hItinerary] at hVisit
    exact step_mem_of_mem_visits hVisit

/-- An hour later, two steps that count are done once more with what the first invocation has left.
-/
theorem rerun_of_twofold :
    let first := twofold.trace default Edit.plainResource.key 0 Edit.plainStore
    let later : Timestamp := ⟨3600, 0, by decide, by decide⟩
    let rerun := twofold.trace later Edit.plainResource.key first.state first.store
    twofold.Completes default Edit.plainResource.key 0 Edit.plainStore ∧ twofold.Bare ∧
      rerun.result = .ok .none ∧
      rerun.requests = List.replicate (twofold.steps.length + 1) (.get Edit.plainResource.key) ∧
      rerun.store.resetCalls = first.store.resetCalls := by
  intro first later rerun
  have hGets : .get ∉ first.store.failing := by decide +kernel
  refine ⟨completes_twofold, bare_twofold, completes_twofold.rerun bare_twofold
    Edit.plainStore_reachable rfl hGets fun visit hVisit scene store _ => ?_⟩
  obtain ⟨_, _, _, -, -, hItinerary⟩ := of_mem_itinerary hVisit
  rw [hItinerary] at hVisit
  obtain ⟨type, hCounting⟩ := exists_eq_counting (step_mem_of_mem_visits hVisit)
  rw [hCounting]
  exact ⟨rfl, rfl⟩

end Engine

end Reconciliation
