import Reconciliation.Proofs.Edit.Effect
import Reconciliation.Proofs.Engine.Passages
import Reconciliation.Proofs.Engine.Visits
import Reconciliation.Proofs.Results
import Reconciliation.Proofs.Task.Counting

/-!
A step that is done alone, and an engine that has no other step. Both make the same visit to the
step; the engine has asked for the resource once more before it. So they leave the same resource in
the same store, and the engine stops at the step if and only if the step fails or asks to stop.
-/
namespace Reconciliation

variable {σ ε α β : Type}

namespace Task

theorem widen_bind (task : Task σ Empty α) (f : α → Task σ Empty β) :
    ((task >>= f).widen : Task σ ε β) = task.widen >>= fun value => (f value).widen := by
  funext scene
  show ((task scene).bind _).bind _ = ((task scene).bind _).bind _
  rw [Program.bind_bind, Program.bind_bind]
  refine congrArg (task scene).bind (funext fun ⟨result, left⟩ => ?_)
  cases result <;> rfl

/-- An error that is taken for a value and passed on is an error again. -/
theorem widen_attempt_bind (task : Task σ ε α) (f : Except ε α → Task σ ε β)
    (hFail : ∀ cause, f (.error cause) = fail cause) :
    ((task.attempt : Task σ Empty (Except ε α)).widen >>= f) =
      task >>= fun value => f (.ok value) := by
  funext scene
  show (((task scene).bind _).bind _).bind _ = (task scene).bind _
  rw [Program.bind_bind, Program.bind_bind]
  refine congrArg (task scene).bind (funext fun ⟨result, left⟩ => ?_)
  rcases result with (payload | cause) | value
  · rfl
  · exact congrFun (hFail cause) left
  · rfl

end Task

namespace Step

/-- A step can be made if its conditions can be made. -/
theorem Sound.make_eq {type : String} {work : Task σ Objection Unit} {options : StepOptions σ}
    (h : (ofOptions type work options).Sound) :
    make type work options = .ok (ofOptions type work options) := by
  have hNone : [(ofOptions type work options).successReason,
      (ofOptions type work options).failReason,
      (ofOptions type work options).markReason].find? (!Text.isToken ·) = none := by
    simp [h.successReason, h.failReason, h.markReason]
  rw [make, if_neg (show type ≠ "" from h.type_ne)]
  simp only [hNone]

/-- What the work of a step comes to outside of any engine. -/
def workAlone (step : Step σ) (now : Timestamp) :
    Task σ WorkError (Except Objection Unit) := do
  if step.marks then step.mark now
  let _ ← Edit.fetch
  step.work.attempt

def AsksToStop (step : Step σ) (now : Timestamp) (scene : Scene σ) (store : Store) : Prop :=
  ∃ verdict, ((step.workAlone now).exec now scene store).result = .ok (.error (.verdict verdict)) ∧
    verdict.exit = true

end Step

def Fate.alone : Fate → Except WorkError Outcome
  | skipped => .ok { written := .nothing, failure := none }
  | unmarked error | unfetched error => .error error
  | worked recorded written => written.map fun written => { written, failure := recorded.failure }

namespace Engine

/-- An engine that does nothing but one step, whose panics it does not catch. -/
structure DoesOnly (engine : Engine σ) (step : Step σ) : Prop where
  steps : engine.steps = [step]
  skipper : engine.skipper = none
  preFinalizeSkipper : engine.preFinalizeSkipper = none
  stepSkipper : engine.stepSkipper = none
  finalizer : engine.finalizer = none
  sink : engine.sink = none
  catchesPanics : engine.config.catchesPanics = false

variable {engine : Engine σ} {step : Step σ} {now : Timestamp} {scene : Scene σ} {store : Store}

/-- Marking is attempted, and what it comes to is looked at later. -/
theorem markStep_eq (step : Step σ) (now : Timestamp) :
    markStep step now =
      (if step.marks then step.mark now else pure () : Task σ WorkError Unit).attempt := by
  unfold markStep
  split <;> rfl

theorem DoesOnly.skips (h : engine.DoesOnly step) : engine.skips step = pure false := by
  rw [Engine.skips, h.stepSkipper]

/-- What is said of the edit in which a step that is done alone does its work. -/
def editAlone (step : Step σ) (now : Timestamp) : Task σ WorkError Outcome := do
  let edited ← (step.edit now false none).run.widen
  let written ← Task.ofExcept edited.written
  return { written, failure := edited.mutation.bind Recorded.failure }

/-- A step that is done alone is marked, if that is wanted, and does its work in an edit then. -/
theorem performAlone_eq_editAlone {type : String} {work : Task σ Objection Unit}
    {options : StepOptions σ} (hSound : (Step.ofOptions type work options).Sound)
    (now : Timestamp) :
    Step.performAlone type work options now =
      ((if (Step.ofOptions type work options).marks
        then (Step.ofOptions type work options).mark now else pure ()) >>= fun _ =>
          editAlone (Step.ofOptions type work options) now) := by
  rw [Step.performAlone, hSound.make_eq]
  show (if (Step.ofOptions type work options).marks then _ else _) = _
  split <;> rfl

/-- The edit fetches the resource and is carried out as in a visit. -/
theorem DoesOnly.editAlone_eq (h : engine.DoesOnly step) (now : Timestamp) :
    editAlone step now =
      (do
        match ← Edit.fetch.attempt with
        | .error error => return .unfetched error
        | .ok base => return .begun base : Task σ Empty Approach).widen >>= fun approach =>
          (engine.carryOut now step approach).widen >>= fun fate => Task.ofExcept fate.alone := by
  rw [editAlone, Edit.run, Task.widen_bind, Task.widen_bind, bind_assoc, bind_assoc]
  refine congrArg (Edit.fetch.attempt.widen >>= ·) (funext fun fetched => ?_)
  cases fetched with
  | error error => rfl
  | ok base =>
      show ((step.perform now false none >>= _).widen >>= _) =
        ((step.perform now engine.config.catchesPanics engine.sink >>= _).widen >>= _)
      rw [h.catchesPanics, h.sink]
      simp only [Task.widen_bind, bind_assoc]
      refine congrArg ((step.perform now false none).widen >>= ·) (funext fun recorded =>
        congrArg ((Edit.persist base false none).attempt.widen >>= ·) (funext fun written => ?_))
      cases written <;> rfl

/-- To do a step alone is to visit it. -/
theorem DoesOnly.performAlone_eq {type : String} {work : Task σ Objection Unit}
    {options : StepOptions σ} (h : engine.DoesOnly (Step.ofOptions type work options))
    (hSound : (Step.ofOptions type work options).Sound) (now : Timestamp) :
    Step.performAlone type work options now =
      (engine.visitStep now (Step.ofOptions type work options)).widen >>= fun fate =>
        Task.ofExcept fate.alone := by
  rw [performAlone_eq_editAlone hSound, visitStep, approach, h.skips, markStep_eq]
  simp only [pure_bind, Bool.false_eq_true, if_false, Task.widen_bind, bind_assoc]
  rw [Task.widen_attempt_bind _ _ fun _ => rfl]
  exact congrArg (_ >>= ·) (funext fun _ => h.editAlone_eq now)

/-- An engine that does nothing else comes to its step at once. -/
theorem DoesOnly.lead_eq (h : engine.DoesOnly step) (now : Timestamp) :
    engine.lead now = pure .ready := by
  rw [lead, h.preFinalizeSkipper, finalize, h.finalizer, h.skipper]
  rfl

/-- There is one visit to the only step. -/
theorem visits_singleton (engine : Engine σ) (now : Timestamp) (step : Step σ) (scene : Scene σ)
    (store : Store) : engine.visits now [step] scene store = [⟨step, scene, store⟩] := by
  rcases visits_cases engine now step [] scene store with ⟨-, hVisits⟩ | ⟨_, _, _, -, -, hVisits⟩
  · exact hVisits
  · exact hVisits

/-- An invocation on the stored resource is the visit to the step, once the resource has been asked
for. -/
theorem DoesOnly.exec_runIn (h : engine.DoesOnly step)
    (hStored : (store.get scene.resource.key).1 = .ok scene.resource) :
    (engine.runIn now).exec now scene store =
      let visit : Visit σ := ⟨step, scene, store.count .get⟩
      ⟨(visit.requeue engine now).mapError (Stop.map Empty.elim), (visit.ended engine now).scene,
        (visit.ended engine now).store⟩ := by
  have hFetched : (store.get scene.resource.key).2 = store.count .get := rfl
  rw [runIn, Task.exec_bind, Task.exec_resource, Execution.andThen_ok, Task.exec_bind,
    Task.exec_get, hStored, hFetched, Execution.andThen_ok, Task.exec_bind, Task.exec_setResource,
    Execution.andThen_ok, process_eq, h.lead_eq, pure_bind, follow, Task.widen, Task.exec_mapError,
    exec_runSteps, h.steps, visits_singleton]
  rfl

/-- A step that is done alone ends as the visit to it does. -/
theorem DoesOnly.exec_performAlone {type : String} {work : Task σ Objection Unit}
    {options : StepOptions σ} (h : engine.DoesOnly (Step.ofOptions type work options))
    (hSound : (Step.ofOptions type work options).Sound) :
    (Step.performAlone type work options now).exec now scene store =
      let ended := (Visit.mk (Step.ofOptions type work options) scene store).ended engine now
      ⟨match ended.result with
        | .ok fate => fate.alone.mapError .error
        | .error reason => .error (reason.map Empty.elim), ended.scene, ended.store⟩ := by
  rw [h.performAlone_eq hSound, Task.exec_bind, Task.widen, Task.exec_mapError, Visit.ended]
  rcases (engine.visitStep now (Step.ofOptions type work options)).exec now scene store with
    ⟨reason | fate, left, last⟩
  · rfl
  · simp only [Except.mapError, Execution.andThen_ok, Task.exec_ofExcept]

/-- Where the work of a visited step begins, it begins alone as well. -/
theorem DoesOnly.exec_workAlone (h : engine.DoesOnly step) {left : Scene σ} {last : Store}
    (hBegins : (Visit.mk step scene store).Begins engine now left last) :
    (step.workAlone now).exec now scene store =
      (step.work.attempt : Task σ WorkError _).exec now left last := by
  obtain ⟨-, marked, store₁, base, hMark, hFetch⟩ := Visit.begins_iff.1 hBegins
  have hAsked : (Visit.mk step scene store).asked engine = scene := by
    rw [Visit.asked, Visit.skipping, h.stepSkipper]
  have hMarked : (if step.marks then step.mark now else pure () : Task σ WorkError Unit).exec now
      scene store = ⟨.ok (), marked, store₁⟩ := by
    rw [hAsked, markStep_eq, Task.exec_attempt] at hMark
    rcases hExec : (if step.marks then step.mark now else pure () : Task σ WorkError Unit).exec now
      scene store with ⟨(_ | _) | _, _, _⟩ <;> rw [hExec] at hMark <;> cases hMark
    rfl
  have hAlone : step.workAlone now =
      ((if step.marks then step.mark now else pure ()) >>= fun _ => Edit.fetch >>= fun _ =>
        step.work.attempt) := by
    rw [Step.workAlone]
    split <;> rfl
  rw [hAlone, Task.exec_bind, hMarked, Execution.andThen_ok, Task.exec_bind, hFetch,
    Execution.andThen_ok]

/-- Once its work has begun, a step is worked on. -/
theorem of_carryOut_begun {base : Edit.Base} {fate : Fate} {left : Scene σ} {last : Store}
    (h : ((engine.carryOut now step (.begun base)).exec now left last).result = .ok fate) :
    ∃ recorded written scene' store', fate = .worked recorded written ∧
      (step.perform now engine.config.catchesPanics engine.sink).exec now left last =
        ⟨.ok recorded, scene', store'⟩ := by
  rcases hExec : (engine.carryOut now step (.begun base)).exec now left last with
    ⟨result, scene', store'⟩
  rw [hExec] at h
  obtain rfl : result = .ok fate := h
  obtain ⟨recorded, scene₁, store₁, hPerform, hRest⟩ := Task.exec_bind_eq_ok_iff.1 hExec
  obtain ⟨written, _, _, -, hReturn⟩ := Task.exec_bind_eq_ok_iff.1 hRest
  cases hReturn
  exact ⟨recorded, written, scene₁, store₁, rfl, hPerform⟩

/-- What is recorded for a step asks to stop if and only if its work does so alone. -/
theorem DoesOnly.exit_iff_asksToStop (h : engine.DoesOnly step) (hSound : step.Sound)
    {recorded : Recorded} {written : Except WorkError Written}
    (hEnded : ((Visit.mk step scene store).ended engine now).result =
      .ok (.worked recorded written)) :
    recorded.exit = true ↔ step.AsksToStop now scene store := by
  obtain ⟨base, left, last, hApproached⟩ := Visit.exists_begun_of_worked hEnded
  rw [Visit.ended_eq, hApproached, Execution.andThen_ok] at hEnded
  obtain ⟨found, _, _, _, hWorked, hPerform⟩ := of_carryOut_begun hEnded
  obtain rfl : recorded = found := (Fate.worked.inj hWorked).1
  obtain ⟨ended, _, _, _, _, hook, hWork, -, -, -, rfl⟩ := Step.of_perform_eq_ok hSound hPerform
  rw [exit_recordedAfter, Step.AsksToStop, h.exec_workAlone ⟨base, hApproached⟩,
    Task.exec_attempt, hWork]
  rcases ended with (payload | verdict | report) | ⟨⟩ <;>
    simp [Step.outcomeOf, Step.recordedFor]

/-- The step is not left out. -/
theorem DoesOnly.ended_ne_skipped (h : engine.DoesOnly step) :
    ((Visit.mk step scene store).ended engine now).result ≠ .ok .skipped := by
  intro hEnded
  rw [Visit.ended_eq] at hEnded
  rcases hApproached : (Visit.mk step scene store).approached engine now with
    ⟨reason | approach, left, last⟩
  · rw [hApproached] at hEnded
    cases hEnded
  · rw [hApproached, Execution.andThen_ok] at hEnded
    cases approach with
    | skipped =>
        have hSkips := Visit.skipping_of_approached hApproached
        rw [Visit.skipping, h.stepSkipper] at hSkips
        cases hSkips
    | unmarked | unfetched => cases hEnded
    | begun base =>
        obtain ⟨_, _, _, _, hWorked, -⟩ := of_carryOut_begun hEnded
        cases hWorked

/-- How an engine that has a single step and the step alone compare: what an invocation on the
stored resource comes to, and what doing the step alone does. -/
structure AgreesAlone (engine : Engine σ) (step : Step σ) (now : Timestamp) (scene : Scene σ)
    (store : Store) (single : Execution σ WorkError Requeue)
    (alone : Execution σ WorkError Outcome) : Prop where
  /-- The resource in hand is the same. -/
  scene_eq : single.scene = alone.scene
  /-- So is the store, but that one has been asked for the resource once more. -/
  store_eq : single.store = alone.store.count .get
  panics_iff : ∀ payload, single.result = .error (.panic payload) ↔
    alone.result = .error (.panic payload)
  /-- The invocation ends with the visit to the step. -/
  visit_eq : let visit : Visit σ := ⟨step, scene, store.count .get⟩
    single = ⟨(visit.requeue engine now).mapError (Stop.map Empty.elim),
      (visit.ended engine now).scene, (visit.ended engine now).store⟩
  /-- If nothing panics, the engine stops at the step if and only if the step alone ends with an
  error, or with a failure, or its work asks to stop. -/
  stops_iff : (∀ payload, alone.result ≠ .error (.panic payload)) →
    (¬(Visit.mk step scene (store.count .get)).Passes engine now ↔
      (∃ error, alone.result = .error (.error error)) ∨
      (∃ outcome, alone.result = .ok outcome ∧ outcome.failure.isSome = true) ∨
      step.AsksToStop now scene store)

/-- The engine stops at the step in the same cases in which the step alone does not succeed or asks
to stop. -/
theorem DoesOnly.halts_iff (h : engine.DoesOnly step) (hSound : step.Sound) {fate : Fate}
    (hEnded : ((Visit.mk step scene store).ended engine now).result = .ok fate) :
    fate.halts = true ↔ (∃ error, fate.alone = .error error) ∨
      (∃ outcome, fate.alone = .ok outcome ∧ outcome.failure.isSome = true) ∨
      step.AsksToStop now scene store := by
  cases fate with
  | skipped => exact absurd hEnded h.ended_ne_skipped
  | unmarked error => exact iff_of_true rfl (.inl ⟨error, rfl⟩)
  | unfetched error => exact iff_of_true rfl (.inl ⟨error, rfl⟩)
  | worked recorded written =>
      rw [← h.exit_iff_asksToStop hSound hEnded]
      cases written with
      | error error => exact iff_of_true rfl (.inl ⟨error, rfl⟩)
      | ok written => simp [Fate.halts, Fate.alone, Except.map, Except.isOk, Except.toBool]

/-- A visit comes to the same if the store has counted one request more. -/
theorem ended_count {result : Except (Stop Empty) Fate} {left : Scene σ} {last : Store}
    (h : (Visit.mk step scene store).ended engine now = ⟨result, left, last⟩) (counted : Verb) :
    (Visit.mk step scene (store.count counted)).ended engine now =
      ⟨result, left, last.count counted⟩ := by
  rw [Visit.ended, Task.exec_count]
  rw [Visit.ended] at h
  simp only [h]

/-- An engine with a single step does what the step does alone, if the resource in hand is the
stored one. -/
theorem agreesAlone_of_doesOnly {type : String} {work : Task σ Objection Unit}
    {options : StepOptions σ} (hSound : (Step.ofOptions type work options).Sound)
    (hOnly : engine.DoesOnly (Step.ofOptions type work options)) (now : Timestamp)
    (hStored : (store.get scene.resource.key).1 = .ok scene.resource) :
    engine.AgreesAlone (Step.ofOptions type work options) now scene store
      ((engine.runIn now).exec now scene store)
      ((Step.performAlone type work options now).exec now scene store) := by
  have hSingle : (engine.runIn now).exec now scene store = _ := hOnly.exec_runIn hStored
  rcases hEnded : (Visit.mk (Step.ofOptions type work options) scene store).ended engine now with
    ⟨result, left, last⟩
  have hVisit := ended_count hEnded .get
  have hAlone : (Step.performAlone type work options now).exec now scene store = _ :=
    hOnly.exec_performAlone hSound
  simp only [hEnded] at hAlone
  have hHalts {fate : Fate} (hResult : result = .ok fate) : fate.halts = true ↔ _ :=
    hOnly.halts_iff hSound ((congrArg Execution.result hEnded).trans hResult)
  rw [hAlone]
  refine ⟨?scene, ?store, ?panics, hSingle, ?stops⟩
  case scene => simp only [hSingle, hVisit]
  case store => simp only [hSingle, hVisit]
  case panics =>
    intro payload
    simp only [hSingle, Visit.requeue, hVisit]
    rcases result with (payload' | impossible) | fate
    · simp [Except.map, Except.mapError, Stop.map]
    · cases impossible
    · simp [Except.map, Except.mapError_eq_error_iff]
  case stops =>
    intro hCalm
    rcases result with (payload | impossible) | fate
    · exact absurd rfl (hCalm payload)
    · cases impossible
    · have hPasses : ¬(Visit.mk (Step.ofOptions type work options) scene
          (store.count .get)).Passes engine now ↔ fate.halts = true := by
        simp [Visit.Passes, hVisit]
      rw [hPasses, hHalts rfl]
      simp [Except.mapError_eq_error_iff, Except.mapError_eq_ok_iff]

def pause : Verdict where
  status := .unknown
  reason := "Waiting"
  message := ""
  exit := true
  reason_valid := by decide

def pausing : Task Nat Objection Unit := do
  Task.modifyResource fun resource => { resource with spec := .bool true }
  Task.fail (.verdict pause)

/-- A store in which the status can be written only together with everything else. -/
def halfWritable : Store :=
  Edit.plainStore.failOn .patchStatus

/-- The step is marked and its work written, but not what is recorded for it. -/
theorem agreesAlone_of_pausing : ∃ engine : Engine Nat,
    build [.config { catchesPanics := false }, .step "Ready" pausing { marks := true }] =
      .ok engine ∧
    (halfWritable.get Edit.plainResource.key).1 = .ok Edit.plainResource ∧
    let alone := (Step.performAlone "Ready" pausing { marks := true } default).exec default
      ⟨Edit.plainResource, 0⟩ halfWritable
    alone.store.version = 3 ∧
    engine.AgreesAlone (Step.ofOptions "Ready" pausing { marks := true }) default
      ⟨Edit.plainResource, 0⟩ halfWritable
      ((engine.runIn default).exec default ⟨Edit.plainResource, 0⟩ halfWritable) alone :=
  ⟨_, rfl, rfl, by decide +kernel,
    agreesAlone_of_doesOnly ⟨by decide, by decide, by decide, by decide⟩
      ⟨rfl, rfl, rfl, rfl, rfl, rfl, rfl⟩ default rfl⟩

end Engine

end Reconciliation
