import Reconciliation.Proofs.Engine.Passages
import Reconciliation.Proofs.Engine.Visits

/-!
What comes of a visit to a step. Work that has begun is done on what was fetched for it, and what it
leaves is recorded and written. `Visit.Goes` has one constructor for each way in which a visit goes,
and `Visit.passes_iff` says after which visits the engine goes on.
-/
namespace Reconciliation

variable {σ : Type}

namespace Step

variable {step : Step σ} {now : Timestamp}

/-- What is left of a performance once the condition is on the resource: a failure is shown to the
callback, and the hook runs. -/
def wrapUp (step : Step σ) (outcome : Except Objection Unit) : Task σ Empty Recorded := do
  step.showFailure (step.conditionFor outcome)
  match ← step.runHook.attempt with
  | .ok () => return recordedFor outcome
  | .error report => return { recordedFor outcome with failure := some report }

/-- The hook runs after the callback, and only its failure adds to the record. -/
theorem wrapUp_eq (step : Step σ) (outcome : Except Objection Unit) :
    step.wrapUp outcome = do
      step.showFailure (step.conditionFor outcome)
      return recordedAfter outcome (← step.runHook.attempt) := by
  rw [wrapUp]
  refine congrArg (step.showFailure (step.conditionFor outcome) >>= ·) (funext fun _ =>
    congrArg ((step.runHook.attempt : Task σ Empty _) >>= ·) (funext fun hook => ?_))
  cases hook <;> rfl

/-- What is left of a visit once the condition is on the resource. -/
def conclude (step : Step σ) (base : Edit.Base) (outcome : Except Objection Unit) :
    Task σ Empty Fate := do
  let recorded ← step.wrapUp outcome
  return .worked recorded (← (Edit.persist base false none).attempt)

/-- The scene once the sink is told of an outcome and the condition is on the resource. -/
def settled (step : Step σ) (now : Timestamp) (sink : Option (EventSink σ))
    (outcome : Except Objection Unit) (left : Scene σ) : Scene σ :=
  ⟨step.settle now outcome left.resource, (step.judged sink outcome left).state⟩

/-- An outcome is recorded on the resource as the work has left it. -/
theorem exec_perform_of_outcome (hStep : step.Sound) {catches : Bool} {sink : Option (EventSink σ)}
    {outcome : Except Objection Unit} {scene left : Scene σ} {store last : Store}
    (hWork : (step.attemptWork catches).exec now scene store = ⟨.ok outcome, left, last⟩) :
    (step.perform now catches sink).exec now scene store =
      (step.wrapUp outcome).exec now (step.settled now sink outcome left) last := by
  rw [perform, Task.exec_bind, hWork, Execution.andThen_ok, record_eq, Task.exec_bind,
    exec_settling hStep, wrapUp, Task.exec_bind, settled]
  rcases (step.showFailure (step.conditionFor outcome)).exec now
    ⟨step.settle now outcome left.resource, (step.judged sink outcome left).state⟩ last with
    ⟨reason | _, shown, last'⟩
  · rfl
  · rfl

/-- A panic that is not caught ends the performance. -/
theorem exec_perform_of_uncaught {sink : Option (EventSink σ)} {scene left : Scene σ}
    {store last : Store} {payload : Payload}
    (hWork : step.work.exec now scene store = ⟨.error (.panic payload), left, last⟩) :
    (step.perform now false sink).exec now scene store =
      ⟨.error (.panic payload), left, last⟩ := by
  rw [perform, Task.exec_bind, attemptWork, if_neg Bool.false_ne_true, Task.exec_attempt, hWork]
  rfl

/-- What has to come of a step for the engine to go on: its condition has not failed, nothing asks
to stop, the hook succeeds, and what has changed since the resource was fetched is written. -/
structure Clears (step : Step σ) (now : Timestamp) (base : Edit.Base)
    (outcome : Except Objection Unit) (scene : Scene σ) (store : Store) (scene' : Scene σ)
    (store' : Store) : Prop where
  holds : (step.conditionFor outcome).isFalse = false
  stays : (recordedFor outcome).exit = false
  written : ∃ hooked store₁ after written made,
    (step.hook.getD (pure ())).exec now scene store = ⟨.ok (), hooked, store₁⟩ ∧
    hooked.resource.key = base.key ∧ hooked.resource.snapshot = .ok after ∧
    Edit.Writes base hooked.resource after store₁ written made scene'.resource store' ∧
    scene'.state = hooked.state

/-- The engine goes on after an outcome if and only if the step clears. -/
theorem exists_conclude_iff_clears {base : Edit.Base} {outcome : Except Objection Unit}
    {scene scene' : Scene σ} {store store' : Store} :
    (∃ fate, (step.conclude base outcome).exec now scene store = ⟨.ok fate, scene', store'⟩ ∧
        fate.halts = false) ↔
      step.Clears now base outcome scene store scene' store' := by
  constructor
  · rintro ⟨fate, hExec, hGoes⟩
    obtain ⟨recorded, _, _, hWrapUp, hRest⟩ := Task.exec_bind_eq_ok_iff.1 hExec
    obtain ⟨written, _, _, hPersist, hReturn⟩ := Task.exec_bind_eq_ok_iff.1 hRest
    cases hReturn
    simp only [Fate.halts, Bool.or_eq_false_iff, Bool.not_eq_false'] at hGoes
    obtain ⟨⟨hWritten, hSucceeds⟩, hExit⟩ := hGoes
    rw [wrapUp_eq] at hWrapUp
    obtain ⟨_, _, _, hShown, hHooked⟩ := Task.exec_bind_eq_ok_iff.1 hWrapUp
    obtain ⟨hook, _, _, hHook, hReturn⟩ := Task.exec_bind_eq_ok_iff.1 hHooked
    cases hReturn
    rw [Engine.isSome_failure_recordedAfter step, Bool.or_eq_false_iff, Bool.not_eq_false'] at hSucceeds
    obtain ⟨hHolds, hIsOk⟩ := hSucceeds
    rw [Engine.exit_recordedAfter] at hExit
    -- A condition that has not failed is shown to nobody.
    rw [showFailure, hHolds] at hShown
    cases hShown
    cases written with
    | error error => cases hWritten
    | ok written =>
        cases hook with
        | error report => cases hIsOk
        | ok _ =>
            obtain ⟨hKey, after, hAfter, hWrites, hState⟩ :=
              Edit.ends_persist_ok_iff.1 (Task.ends_attempt_ok_iff.1 ⟨hPersist, rfl⟩)
            exact ⟨hHolds, hExit, _, _, after, written, _,
              Task.exec_attempt_eq_ok_iff.1 hHook, hKey, hAfter, hWrites, hState⟩
  · rintro ⟨hHolds, hStays, hooked, store₁, after, written, made, hHook, hKey, hAfter, hWrites, hState⟩
    have hWrapUp : (step.wrapUp outcome).exec now scene store =
        ⟨.ok (recordedFor outcome), hooked, store₁⟩ := by
      rw [wrapUp_eq, showFailure, hHolds]
      exact Task.exec_bind_eq_ok_iff.2 ⟨(), scene, store, rfl, Task.exec_bind_eq_ok_iff.2
        ⟨.ok (), hooked, store₁, Task.exec_attempt_eq_ok_iff.2 hHook, rfl⟩⟩
    have hPersist : ((Edit.persist base false none).attempt : Task σ Empty _).exec now hooked store₁ =
        ⟨.ok (.ok written), scene', store'⟩ :=
      (Task.ends_attempt_ok_iff.2
        (Edit.ends_persist_ok_iff.2 ⟨hKey, after, hAfter, hWrites, hState⟩)).exec
    refine ⟨.worked (recordedFor outcome) (.ok written), ?_, ?_⟩
    · exact Task.exec_bind_eq_ok_iff.2 ⟨_, _, _, hWrapUp, Task.exec_bind_eq_ok_iff.2
        ⟨_, _, _, hPersist, rfl⟩⟩
    · have hFailure := Engine.isSome_failure_recordedAfter step outcome (.ok ())
      rw [hHolds] at hFailure
      rw [Fate.halts, hStays, show (recordedFor outcome).failure.isSome = _ from hFailure]
      rfl

end Step

namespace Visit

variable {visit : Visit σ} {engine : Engine σ} {now : Timestamp} {scene left : Scene σ}
  {store last : Store} {result : Except (Stop Objection) Unit} {payload : Payload}

/-- The work of a visit begins, and ends with `result` and what it leaves. -/
def Works (visit : Visit σ) (engine : Engine σ) (now : Timestamp)
    (result : Except (Stop Objection) Unit) (left : Scene σ) (last : Store) : Prop :=
  ∃ scene store, visit.Begins engine now scene store ∧
    visit.step.work.exec now scene store = ⟨result, left, last⟩

/-- What the resource was when it was fetched for the work, which is what it is compared with when
it is written. -/
structure Fetched (visit : Visit σ) (engine : Engine σ) (now : Timestamp) (base : Edit.Base) :
    Prop where
  result_eq : (visit.approached engine now).result = .ok (.begun base)
  get_eq : ∃ store : Store,
    store.get base.key = (.ok base.resource, (visit.approached engine now).store)
  resource_eq : base.resource = (visit.approached engine now).scene.resource
  snapshot_eq : base.resource.snapshot = .ok base.snapshot

/-- A base that work begins on was fetched. -/
theorem fetched_of_approached {base : Edit.Base}
    (h : visit.approached engine now = ⟨.ok (.begun base), scene, store⟩) :
    visit.Fetched engine now base := by
  obtain ⟨-, marked, store₁, -, hFetch⟩ := approached_begun_iff.1 h
  obtain ⟨-, hKey, hGet, hSnapshot, rfl⟩ := Edit.ends_fetch_ok_iff.1 ⟨hFetch, rfl⟩
  rw [← hKey] at hGet
  exact ⟨by rw [h], ⟨store₁, by rw [h, hGet]⟩, by rw [h], hSnapshot⟩

/-- There is at most one base for a visit. -/
theorem Fetched.eq {base base' : Edit.Base} (h : visit.Fetched engine now base)
    (h' : visit.Fetched engine now base') : base = base' :=
  Approach.begun.inj (Except.ok.inj (h.result_eq.symm.trans h'.result_eq))

/-- There is at most one way in which the work of a visit ends. -/
theorem Works.eq {result' : Except (Stop Objection) Unit} {left' : Scene σ} {last' : Store}
    (h : visit.Works engine now result left last) (h' : visit.Works engine now result' left' last') :
    result = result' ∧ left = left' ∧ last = last' := by
  obtain ⟨_, _, ⟨_, hBegins⟩, hWork⟩ := h
  obtain ⟨_, _, ⟨_, hBegins'⟩, hWork'⟩ := h'
  cases hBegins.symm.trans hBegins'
  cases hWork.symm.trans hWork'
  exact ⟨rfl, rfl, rfl⟩

/-- An outcome is recorded and written together with what the work has done until then. -/
theorem exists_ended_of_outcome (hStep : visit.step.Sound)
    (hBegins : visit.Begins engine now scene store) {outcome : Except Objection Unit}
    (hWork : (visit.step.attemptWork engine.config.catchesPanics).exec now scene store =
      ⟨.ok outcome, left, last⟩) :
    ∃ base, visit.Fetched engine now base ∧
      visit.ended engine now = (visit.step.conclude base outcome).exec now
        (visit.step.settled now engine.sink outcome left) last := by
  obtain ⟨base, hApproached⟩ := hBegins
  refine ⟨base, fetched_of_approached hApproached, ?_⟩
  rw [ended_eq, hApproached, Execution.andThen_ok, Engine.carryOut, Task.exec_bind,
    Step.exec_perform_of_outcome hStep hWork, Step.conclude, Task.exec_bind]

/-- A panic that is not caught ends the visit, with what the work has left. -/
theorem ended_of_uncaught (hCatches : engine.config.catchesPanics = false)
    (hBegins : visit.Begins engine now scene store)
    (hWork : visit.step.work.exec now scene store = ⟨.error (.panic payload), left, last⟩) :
    visit.ended engine now = ⟨.error (.panic payload), left, last⟩ := by
  obtain ⟨base, hApproached⟩ := hBegins
  rw [ended_eq, hApproached, Execution.andThen_ok, Engine.carryOut, Task.exec_bind, hCatches,
    Step.exec_perform_of_uncaught hWork]
  rfl

/-- How a visit goes. -/
inductive Goes (visit : Visit σ) (engine : Engine σ) (now : Timestamp) : Prop where
  /-- The step is left out, or cannot be marked or fetched, and nothing is done after that. -/
  | unreached (hWork : ∀ scene store, ¬visit.Begins engine now scene store)
    (hScene : (visit.ended engine now).scene = (visit.approached engine now).scene)
    (hStore : (visit.ended engine now).store = (visit.approached engine now).store)
  /-- The work is done once, on what was fetched, and what it leaves is recorded and written. -/
  | recorded {result : Except (Stop Objection) Unit} {left : Scene σ} {last : Store}
    {base : Edit.Base} (hWork : visit.Works engine now result left last)
    (hCatches : ∀ payload, result = .error (.panic payload) → engine.config.catchesPanics = true)
    (hFetched : visit.Fetched engine now base)
    (hEnded : visit.ended engine now = (visit.step.conclude base (Step.outcomeOf result)).exec now
      (visit.step.settled now engine.sink (Step.outcomeOf result) left) last)
  /-- The work is done once and panics, and the panic is not caught. -/
  | escaped {payload : Payload} {left : Scene σ} {last : Store}
    (hWork : visit.Works engine now (.error (.panic payload)) left last)
    (hCatches : engine.config.catchesPanics = false)
    (hEnded : visit.ended engine now = ⟨.error (.panic payload), left, last⟩)

/-- Every visit goes in one of the three ways. -/
theorem goes (hStep : visit.step.Sound) (engine : Engine σ) (now : Timestamp) :
    visit.Goes engine now := by
  by_cases hReached : ∃ scene store, visit.Begins engine now scene store
  · obtain ⟨scene, store, hBegins⟩ := hReached
    rcases hWork : visit.step.work.exec now scene store with ⟨result, left, last⟩
    have hWorks : visit.Works engine now result left last := ⟨scene, store, hBegins, hWork⟩
    by_cases hCatches : ∀ payload, result = .error (.panic payload) →
        engine.config.catchesPanics = true
    · obtain ⟨base, hFetched, hEnded⟩ := visit.exists_ended_of_outcome hStep hBegins
        (Step.exec_attemptWork_of_exec hWork hCatches)
      exact .recorded hWorks hCatches hFetched hEnded
    · obtain ⟨payload, rfl, hEscapes⟩ : ∃ payload, result = .error (.panic payload) ∧
          engine.config.catchesPanics = false := by
        simpa using hCatches
      exact .escaped hWorks hEscapes (visit.ended_of_uncaught hEscapes hBegins hWork)
  · have hUnreached : ∀ scene store, ¬visit.Begins engine now scene store :=
      fun scene store hBegins => hReached ⟨scene, store, hBegins⟩
    obtain ⟨hScene, hStore⟩ := ended_of_not_begins hUnreached
    exact .unreached hUnreached hScene hStore

/-- The engine goes on after a step that is left out, and after one whose work is done and clears.
-/
theorem passes_iff (hStep : visit.step.Sound) :
    visit.Passes engine now ↔ (visit.skipping engine).1 = true ∨
      ∃ result left last base, visit.Works engine now result left last ∧
        visit.Fetched engine now base ∧
        visit.step.Clears now base (Step.outcomeOf result)
          (visit.step.settled now engine.sink (Step.outcomeOf result) left) last
          (visit.ended engine now).scene (visit.ended engine now).store := by
  constructor
  · intro hPasses
    cases hSkips : (visit.skipping engine).1 with
    | true => exact .inl rfl
    | false =>
        right
        have hBegun := (exists_begins_iff_of_passes hPasses).2 hSkips
        obtain ⟨fate, hFate, hGoes⟩ := hPasses
        cases visit.goes hStep engine now with
        | unreached hUnreached =>
            obtain ⟨scene, store, hBegins⟩ := hBegun
            exact absurd hBegins (hUnreached scene store)
        | @recorded result left last base hWork hCatches hFetched hEnded =>
            refine ⟨result, left, last, base, hWork, hFetched,
              Step.exists_conclude_iff_clears.1 ⟨fate, ?_, hGoes⟩⟩
            rw [← hEnded, ← hFate]
        | escaped _ _ hEnded =>
            rw [hEnded] at hFate
            cases hFate
  · rintro (hSkips | ⟨result, left, last, base, hWork, hFetched, hClears⟩)
    · refine ⟨.skipped, ?_, rfl⟩
      rw [ended_eq, approached_of_skipping hSkips]
      rfl
    · obtain ⟨fate, hFate, hGoes⟩ := Step.exists_conclude_iff_clears.2 hClears
      refine ⟨fate, ?_, hGoes⟩
      obtain ⟨scene, store, hBegins, hExec⟩ := hWork
      -- What a panic makes of the condition is not clear, so this is the outcome of no panic.
      have hCatches : ∀ payload, result = .error (.panic payload) →
          engine.config.catchesPanics = true := by
        rintro payload rfl
        cases hClears.holds
      obtain ⟨base', hFetched', hEnded⟩ := visit.exists_ended_of_outcome hStep hBegins
        (Step.exec_attemptWork_of_exec hExec hCatches)
      cases hFetched.eq hFetched'
      rw [hEnded, hFate]

/-- The engine does not get past a step whose work panics. -/
theorem not_passes_of_panic (hStep : visit.step.Sound)
    (hBegins : visit.Begins engine now scene store)
    (hWork : visit.step.work.exec now scene store = ⟨.error (.panic payload), left, last⟩) :
    ¬visit.Passes engine now := by
  intro hPasses
  rcases (passes_iff hStep).1 hPasses with hSkips | ⟨_, _, _, _, hWorks, -, hClears⟩
  · rw [(begins_iff.1 hBegins).1] at hSkips
    cases hSkips
  · obtain ⟨rfl, -, -⟩ := hWorks.eq ⟨scene, store, hBegins, hWork⟩
    cases hClears.holds

end Visit

end Reconciliation
