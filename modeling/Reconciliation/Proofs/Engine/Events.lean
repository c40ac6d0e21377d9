import Mathlib.Data.List.Forall2
import Reconciliation.Proofs.Engine.Containment
import Reconciliation.Proofs.Task.Leaving

/-!
What people are told of an invocation. The sink of an engine is told once of each step whose work has
come to anything but a success, in the order of the steps, and of nothing else: not of a step that is
left out or under way, and not of the finalizer. What it is told is what the condition says that is
set for the step, and it is told before anything is written.
-/
namespace Reconciliation

/-- An event says what a condition says, and is grave if the condition is a failed one. -/
structure Event.Announces (event : Event) (condition : Condition) : Prop where
  warning_iff : event.severity = .warning ↔ condition.status = .fails
  reason_eq : event.reason = condition.reason
  message_eq : event.message = condition.message

/-- The event about a condition announces it. -/
theorem Condition.announces_event (condition : Condition) :
    condition.event.Announces condition := by
  refine ⟨?_, rfl, rfl⟩
  cases hStatus : condition.status <;> simp [Condition.event, Condition.isFalse, hStatus]

variable {σ γ : Type}

/-- A step whose work, hook and callback leave a part of the state as it is. -/
structure Step.Leaves (view : σ → γ) (step : Step σ) : Prop where
  work : step.work.Leaves view
  hook : ∀ hook, step.hook = some hook → hook.Leaves view
  onFail : ∀ callback, step.onFail = some callback → callback.Leaves view

/-- An engine whose sink keeps what it is told, each time with the key of the resource, in a part of
the state that nothing else changes. -/
structure Engine.Logs (log : σ → List (Key × Event)) (engine : Engine σ) : Prop where
  sink : ∃ sink, engine.sink = some sink ∧ ∀ resource event state,
    log (sink resource event state) = log state ++ [(resource.key, event)]
  steps : ∀ step ∈ engine.steps, step.Leaves log
  preFinalizeSkipper : ∀ skipper, engine.preFinalizeSkipper = some skipper →
    ∀ resource state, log (skipper resource state).2 = log state
  skipper : ∀ skipper, engine.skipper = some skipper →
    ∀ resource state, log (skipper resource state).2 = log state
  stepSkipper : ∀ skipper, engine.stepSkipper = some skipper →
    ∀ step condition state, log (skipper step condition state).2 = log state
  cleanup : ∀ finalizer, engine.finalizer = some finalizer →
    ∀ cleanup, finalizer.cleanup = some cleanup → cleanup.Leaves log
  afterDeletion : ∀ callback, engine.afterDeletion = some callback →
    ∀ key state, log (callback key state) = log state

/-- What a sink is told of an outcome: nothing, or once of the condition for it. -/
def Step.announced (step : Step σ) (outcome : Except Objection Unit) (left : Scene σ) :
    List (Key × Event) :=
  if isTold outcome then [(left.resource.key, (step.conditionFor outcome).event)] else []

/-- Once the condition is on the resource, nobody is told of anything. -/
theorem Step.Leaves.conclude {step : Step σ} {view : σ → γ} (h : step.Leaves view)
    (base : Edit.Base) (outcome : Except Objection Unit) :
    (step.conclude base outcome).Leaves view := by
  have hHook : (step.runHook.attempt : Task σ Empty _).Leaves view :=
    Task.composes_leaves.attempt (Task.composes_leaves.runHook h.hook)
  have hPersist : ((Edit.persist base false none).attempt : Task σ Empty _).Leaves view :=
    Task.composes_leaves.attempt (Task.composes_leaves.persist base false)
  refine Task.Leaves.bind ?_ fun recorded => hPersist.bind fun _ => Task.composes_leaves.pure _
  refine (Task.composes_leaves.showFailure h.onFail _).bind fun _ => hHook.bind fun ended => ?_
  cases ended with
  | ok _ => exact Task.composes_leaves.pure _
  | error report => exact Task.composes_leaves.pure _

namespace Engine

variable {engine : Engine σ} {log : σ → List (Key × Event)} {now : Timestamp}

/-- A skipper that leaves a part of the state alone leaves it alone when it is asked. -/
theorem leaves_asks {skipper : Option (Skipper σ)} {view : σ → γ}
    (h : ∀ given, skipper = some given →
      ∀ resource state, view (given resource state).2 = view state) :
    (asks skipper).Leaves view := by
  cases skipper with
  | none => exact Task.composes_leaves.pure false
  | some given => exact Task.leaves_observe (h given rfl)

/-- Nobody is told of anything before the steps, whether the finalizer can be seen to or not. -/
theorem Logs.lead (h : engine.Logs log) (now : Timestamp) : (engine.lead now).Leaves log := by
  have hFinalize : ((engine.finalize now).widen : Task σ WorkError _).Leaves log :=
    Task.composes_leaves.mapError _ (Task.composes_leaves.finalize h.cleanup now)
  refine (leaves_asks h.preFinalizeSkipper).bind fun passedOver => ?_
  split
  · exact Task.composes_leaves.pure _
  · refine hFinalize.bind fun finalized => ?_
    cases finalized with
    | some requeue => exact Task.composes_leaves.pure _
    | none =>
        refine (leaves_asks h.skipper).bind fun leftAlone => ?_
        split
        · exact Task.composes_leaves.pure _
        · exact Task.composes_leaves.pure _

/-- Nobody is told that a step is left out or under way. -/
theorem Logs.approach (h : engine.Logs log) (now : Timestamp) {step : Step σ}
    (hSound : step.Sound) (hStep : step ∈ engine.steps) : (engine.approach now step).Leaves log := by
  have hSkips : (engine.skips step).Leaves log := by
    unfold Engine.skips
    cases hSkipper : engine.stepSkipper with
    | none => exact Task.composes_leaves.pure false
    | some skipper => exact Task.leaves_observe fun _ => h.stepSkipper skipper hSkipper step _
  refine hSkips.bind fun skipped => ?_
  split
  · exact Task.composes_leaves.pure _
  · refine (Task.composes_leaves.markStep hSound (h.steps step hStep).hook now).bind
      fun marked => ?_
    cases marked with
    | error error => exact Task.composes_leaves.pure _
    | ok _ =>
        refine (Task.composes_leaves.attempt Task.composes_leaves.fetch).bind fun fetched => ?_
        cases fetched with
        | error error => exact Task.composes_leaves.pure _
        | ok base => exact Task.composes_leaves.pure _

/-- The record of an outcome grows by what the sink is told of it. -/
theorem Logs.log_settled (h : engine.Logs log) (step : Step σ) (now : Timestamp)
    (outcome : Except Objection Unit) (left : Scene σ) :
    log (step.settled now engine.sink outcome left).state =
      log left.state ++ step.announced outcome left := by
  obtain ⟨sink, hSink, hLog⟩ := h.sink
  simp only [Step.settled, Step.judged, Step.announced]
  cases hTold : Step.isTold outcome with
  | false => simp
  | true =>
      simp only [if_true, hSink, Step.tell, Option.elim, hLog]
      -- The phase that a verdict gives does not change the key.
      cases Step.givenPhase outcome <;> rfl

end Engine

namespace Visit

variable {visit : Visit σ} {engine : Engine σ} {log : σ → List (Key × Event)} {now : Timestamp}
  {left : Scene σ} {last : Store}

/-- The condition for an outcome is on the resource with which the rest of the visit begins: that is
what the callback for failures and the hook are shown, and what is written, if it can be. -/
structure Sets (visit : Visit σ) (engine : Engine σ) (now : Timestamp)
    (outcome : Except Objection Unit) (left : Scene σ) (last : Store) (condition : Condition) :
    Prop where
  found : (visit.step.settle now outcome left.resource).standing.find?
    (visit.step.conditionFor outcome).type = some condition
  ended : ∃ base state, visit.Fetched engine now base ∧
    visit.ended engine now = (visit.step.conclude base outcome).exec now
      ⟨visit.step.settle now outcome left.resource, state⟩ last

/-- What the sink is told of a visit. -/
inductive Tells (visit : Visit σ) (engine : Engine σ) (now : Timestamp) :
    List (Key × Event) → Prop where
  /-- The step is left out, or cannot be marked or fetched. -/
  | unreached (hWork : ∀ scene store, ¬visit.Begins engine now scene store) :
    Tells visit engine now []
  | succeeded {left : Scene σ} {last : Store} (hWork : visit.Works engine now (.ok ()) left last) :
    Tells visit engine now []
  | silent {verdict : Verdict} {left : Scene σ} {last : Store}
    (hWork : visit.Works engine now (.error (.error (.verdict verdict))) left last)
    (hSilent : verdict.silent = true) : Tells visit engine now []
  /-- A panic that is not caught. -/
  | escaped {payload : Payload} {left : Scene σ} {last : Store}
    (hWork : visit.Works engine now (.error (.panic payload)) left last)
    (hCatches : engine.config.catchesPanics = false) : Tells visit engine now []
  | given {verdict : Verdict} {left : Scene σ} {last : Store} {condition : Condition}
    {event : Event} (hWork : visit.Works engine now (.error (.error (.verdict verdict))) left last)
    (hSilent : verdict.silent = false)
    (hSets : visit.Sets engine now (.error (.verdict verdict)) left last condition)
    (hEvent : event.Announces condition) : Tells visit engine now [(left.resource.key, event)]
  | failed {report : Report} {left : Scene σ} {last : Store} {condition : Condition}
    {event : Event} (hWork : visit.Works engine now (.error (.error (.failure report))) left last)
    (hSets : visit.Sets engine now (.error (.failure report)) left last condition)
    (hEvent : event.Announces condition) : Tells visit engine now [(left.resource.key, event)]
  | caught {payload : Payload} {left : Scene σ} {last : Store} {condition : Condition}
    {event : Event} (hWork : visit.Works engine now (.error (.panic payload)) left last)
    (hCatches : engine.config.catchesPanics = true)
    (hSets : visit.Sets engine now (.error (.failure payload.report)) left last condition)
    (hEvent : event.Announces condition) : Tells visit engine now [(left.resource.key, event)]

/-- The condition for an outcome is set, and the event about it says what it says. -/
theorem Works.exists_sets {result : Except (Stop Objection) Unit} (hStep : visit.step.Sound)
    (hCatches : ∀ payload, result = .error (.panic payload) → engine.config.catchesPanics = true)
    (h : visit.Works engine now result left last) :
    ∃ condition, visit.Sets engine now (Step.outcomeOf result) left last condition ∧
      (visit.step.conditionFor (Step.outcomeOf result)).event.Announces condition := by
  obtain ⟨scene, store, hBegins, hWork⟩ := h
  obtain ⟨base, hFetched, hEnded⟩ := visit.exists_ended_of_outcome hStep hBegins
    (Step.exec_attemptWork_of_exec hWork hCatches)
  obtain ⟨generation, since, hFound⟩ :=
    visit.step.exists_find?_settle now (Step.outcomeOf result) left.resource
  have hSets : visit.Sets engine now (Step.outcomeOf result) left last
      { visit.step.conditionFor (Step.outcomeOf result) with generation, since } :=
    ⟨hFound, base, _, hFetched, hEnded⟩
  exact ⟨_, hSets, Condition.announces_event
    { visit.step.conditionFor (Step.outcomeOf result) with generation, since }⟩

/-- What the sink is told of the outcome of work. -/
theorem Works.tells {result : Except (Stop Objection) Unit} (hStep : visit.step.Sound)
    (hCatches : ∀ payload, result = .error (.panic payload) → engine.config.catchesPanics = true)
    (h : visit.Works engine now result left last) :
    visit.Tells engine now (visit.step.announced (Step.outcomeOf result) left) := by
  obtain ⟨condition, hSets, hEvent⟩ := h.exists_sets hStep hCatches
  rcases result with (payload | verdict | report) | ⟨⟩
  · exact .caught h (hCatches payload rfl) hSets hEvent
  · cases hSilent : verdict.silent with
    | true =>
        rw [Step.outcomeOf, Step.announced, Step.isTold, hSilent]
        exact .silent h hSilent
    | false =>
        rw [Step.outcomeOf] at hSets hEvent
        rw [Step.outcomeOf, Step.announced, Step.isTold, hSilent]
        exact .given h hSilent hSets hEvent
  · exact .failed h hSets hEvent
  · exact .succeeded h

/-- What work leaves has the record that the steps before have left. -/
theorem Works.log_left (hStep : visit.step.Sound) (hLogs : engine.Logs log)
    (hMem : visit.step ∈ engine.steps) {result : Except (Stop Objection) Unit}
    (h : visit.Works engine now result left last) : log left.state = log visit.found.state := by
  obtain ⟨scene, store, ⟨base, hApproached⟩, hWork⟩ := h
  have hApproach := hLogs.approach now hStep hMem now visit.found visit.store
  have hWorkLeaves := (hLogs.steps visit.step hMem).work now scene store
  rw [show (engine.approach now visit.step).exec now visit.found visit.store = _ from hApproached]
    at hApproach
  rw [hWork] at hWorkLeaves
  exact hWorkLeaves.trans hApproach

/-- The record grows by what the sink is told of a visit, and by nothing before or afterwards. -/
theorem exists_tells (hStep : visit.step.Sound) (hLogs : engine.Logs log)
    (hMem : visit.step ∈ engine.steps) (now : Timestamp) : ∃ told, visit.Tells engine now told ∧
      log (visit.ended engine now).scene.state = log visit.found.state ++ told := by
  cases visit.goes hStep engine now with
  | unreached hUnreached hScene _ =>
      refine ⟨[], .unreached hUnreached, ?_⟩
      rw [hScene, List.append_nil]
      exact hLogs.approach now hStep hMem now visit.found visit.store
  | recorded hWork hCatches _ hEnded =>
      refine ⟨_, hWork.tells hStep hCatches, ?_⟩
      rw [hEnded, (hLogs.steps visit.step hMem).conclude _ _ now, hLogs.log_settled,
        hWork.log_left hStep hLogs hMem]
  | escaped hWork hCatches hEnded =>
      refine ⟨[], .escaped hWork hCatches, ?_⟩
      rw [hEnded, List.append_nil, hWork.log_left hStep hLogs hMem]

end Visit

namespace Engine

variable {engine : Engine σ} {log : σ → List (Key × Event)} {now : Timestamp}

/-- What the sink is told of several steps is what it is told of the visits to them: each visit adds
its own to the record that the ones before it have left. -/
theorem Logs.exists_tells_runSteps (h : engine.Logs log)
    (hSound : ∀ step ∈ engine.steps, step.Sound) {steps : List (Step σ)}
    (hSteps : ∀ step ∈ steps, step ∈ engine.steps) (now : Timestamp) (scene : Scene σ)
    (store : Store) : ∃ told, List.Forall₂ (fun visit sent => visit.Tells engine now sent)
        (engine.visits now steps scene store) told ∧
      log ((engine.runSteps now steps).exec now scene store).scene.state =
        log scene.state ++ told.flatten := by
  induction steps generalizing scene store with
  | nil => exact ⟨[], .nil, (List.append_nil _).symm⟩
  | cons step rest ih =>
      have hMem : step ∈ engine.steps := hSteps step List.mem_cons_self
      obtain ⟨sent, hSent, hLog⟩ :=
        (Visit.mk step scene store).exists_tells (hSound step hMem) h hMem now
      rcases visits_cases engine now step rest scene store with
        ⟨hStops, hVisits⟩ | ⟨fate, scene', store', hGoes, hEnded, hVisits⟩
      · refine ⟨[sent], hVisits ▸ .cons hSent .nil, ?_⟩
        rw [exec_runSteps_of_not_passes rest hStops, List.flatten_singleton]
        exact hLog
      · obtain ⟨told, hTold, hLater⟩ :=
          ih (fun step hStep => hSteps step (List.mem_cons_of_mem _ hStep)) scene' store'
        refine ⟨sent :: told, hVisits ▸ .cons hSent hTold, ?_⟩
        rw [hEnded] at hLog
        calc log ((engine.runSteps now (step :: rest)).exec now scene store).scene.state
            = log scene'.state ++ told.flatten := by
              rw [exec_runSteps_cons hEnded hGoes, hLater]
          _ = log scene.state ++ (sent :: told).flatten := by
              rw [show log scene'.state = _ from hLog, List.flatten_cons, List.append_assoc]

/-- What the sink is told of an invocation that has fetched its resource. -/
theorem Logs.exists_tells_process (h : engine.Logs log)
    (hSound : ∀ step ∈ engine.steps, step.Sound) {key : Key} {state : σ} {store fetched : Store}
    {resource : Resource} (hGet : store.get key = (.ok resource, fetched)) (now : Timestamp) :
    ∃ told, List.Forall₂ (fun visit sent => visit.Tells engine now sent)
        (engine.itinerary now key state store) told ∧
      log ((engine.process now).exec now ⟨resource, state⟩ fetched).scene.state =
        log state ++ told.flatten := by
  have hLeads := h.lead now now ⟨resource, state⟩ fetched
  rcases hLead : (engine.lead now).exec now ⟨resource, state⟩ fetched with
    ⟨reason | (_ | _ | _ | _), scene, store'⟩
  case ok.ready =>
    obtain ⟨told, hTold, hLog⟩ :=
      h.exists_tells_runSteps hSound (fun _ hStep => hStep) now scene store'
    rw [hLead] at hLeads
    refine ⟨told, ?_, ?_⟩
    · simpa only [itinerary, hGet, hLead] using hTold
    · rw [process_eq, Task.exec_bind, hLead, Execution.andThen_ok, follow, Task.widen,
        Task.exec_mapError, hLog]
      exact congrArg (· ++ told.flatten) hLeads
  all_goals
    rw [hLead] at hLeads
    refine ⟨[], by simp only [itinerary, hGet, hLead, List.Forall₂.nil], ?_⟩
    rw [process_eq, Task.exec_bind, hLead, List.flatten_nil, List.append_nil]
    exact hLeads

/-- The record of an invocation grows by what the sink is told of the visits, one after the other.
-/
structure TellsVisits (log : σ → List (Key × Event)) (engine : Engine σ) (now : Timestamp) :
    Prop where
  run : ∀ key state store, ∃ told,
    List.Forall₂ (fun visit sent => visit.Tells engine now sent)
      (engine.itinerary now key state store) told ∧
    log ((engine.run now key state).run now store).1.2 = log state ++ told.flatten
  runIn : ∀ scene store, ∃ told,
    List.Forall₂ (fun visit sent => visit.Tells engine now sent)
      (engine.itinerary now scene.resource.key scene.state store) told ∧
    log ((engine.runIn now).exec now scene store).scene.state = log scene.state ++ told.flatten

/-- Noting that a resource is gone adds nothing to the log. -/
theorem Logs.noteGone (h : engine.Logs log) (key : Key) (state : σ) :
    log (engine.noteGone key state) = log state := by
  unfold Engine.noteGone
  cases hCallback : engine.afterDeletion with
  | none => rfl
  | some callback => exact h.afterDeletion callback hCallback key state

/-- An engine that could be built tells of its steps, and of nothing else, whatever the work of the
steps does, whichever requests the store refuses, and whether or not an outcome can be written. -/
theorem tellsVisits_of_build {registrations : List (Registration σ)}
    (hBuild : build registrations = .ok engine) (hLogs : engine.Logs log) (now : Timestamp) :
    engine.TellsVisits log now := by
  have hSound := build_sound hBuild
  have hUnread {key : Key} {state : σ} {store fetched : Store} {error : StoreError}
      (hGet : store.get key = (.error error, fetched)) :
      engine.itinerary now key state store = [] := by
    simp only [itinerary, hGet]
  constructor
  case run =>
    intro key state store
    rcases hGet : store.get key with ⟨error | resource, fetched⟩
    · refine ⟨[], hUnread hGet ▸ .nil, ?_⟩
      rw [List.flatten_nil, List.append_nil, run, Program.run]
      simp only [Request.serve, hGet]
      cases error with
      | notFound => exact hLogs.noteGone key state
      | _ => rfl
    · obtain ⟨told, hTold, hLog⟩ := hLogs.exists_tells_process hSound hGet now
      refine ⟨told, hTold, ?_⟩
      rw [run_eq_of_get_ok hGet]
      exact hLog
  case runIn =>
    intro scene store
    rw [runIn, Task.exec_bind, Task.exec_resource, Execution.andThen_ok, Task.exec_bind,
      Task.exec_get, Execution.andThen_ok]
    rcases hGet : store.get scene.resource.key with ⟨error | resource, fetched⟩
    · refine ⟨[], hUnread hGet ▸ .nil, ?_⟩
      rw [List.flatten_nil, List.append_nil]
      cases error with
      | notFound => exact hLogs.noteGone scene.resource.key scene.state
      | _ => rfl
    · obtain ⟨told, hTold, hLog⟩ := hLogs.exists_tells_process hSound hGet now
      refine ⟨told, hTold, ?_⟩
      rw [Task.exec_bind, Task.exec_setResource, Execution.andThen_ok]
      exact hLog

def halfway : Verdict where
  status := .unknown
  reason := "Warming"
  message := "halfway"
  reason_valid := by decide

def breakDown : Task (List (Key × Event)) Objection Unit := do
  Task.failOn .patchStatus
  Task.fail (.failure (.ofMessage "down"))

/-- A sink that keeps what it is told, and four steps that end in different ways, the last of which
is not reached. -/
def speaking : List (Registration (List (Key × Event))) :=
  [.sink fun resource event log => log ++ [(resource.key, event)],
    .step "Checked" (pure ()) { marks := true },
    .step "Warm" (Task.fail (.verdict halfway)) {},
    .step "Ready" breakDown {},
    .step "Served" (Task.fail (.verdict halfway)) {}]

def speaker : Engine (List (Key × Event)) where
  steps := [Step.ofOptions "Checked" (pure ()) { marks := true },
    Step.ofOptions "Warm" (Task.fail (.verdict halfway)) {}, Step.ofOptions "Ready" breakDown {},
    Step.ofOptions "Served" (Task.fail (.verdict halfway)) {}]
  sink := some fun resource event log => log ++ [(resource.key, event)]

theorem logs_speaker : speaker.Logs id := by
  have hStep (type : String) (marks : Bool) {work : Task (List (Key × Event)) Objection Unit}
      (hWork : work.Leaves id) : (Step.ofOptions type work { marks }).Leaves id :=
    ⟨hWork, nofun, nofun⟩
  refine ⟨⟨_, rfl, fun _ _ _ => rfl⟩, ?steps, nofun, nofun, nofun, nofun, nofun⟩
  case steps =>
    simp only [speaker, List.forall_mem_cons]
    have hFail (objection : Objection) :
        (Task.fail objection : Task (List (Key × Event)) Objection Unit).Leaves id :=
      Task.composes_leaves.plain (Task.plain_fail objection)
    exact ⟨hStep _ _ (Task.composes_leaves.pure ()), hStep _ _ (hFail _),
      hStep _ _ ((Task.composes_leaves.ask _).bind fun _ => hFail _), hStep _ _ (hFail _), nofun⟩

/-- The failure of the third step is told even though it cannot be written. -/
theorem tellsVisits_speaker :
    build speaking = .ok speaker ∧ speaker.Logs id ∧
      ((speaker.run default Edit.plainResource.key []).run default Edit.plainStore).1.2 =
        [(Edit.plainResource.key, ⟨.normal, "Warming", "halfway"⟩),
          (Edit.plainResource.key, ⟨.warning, "ReadyFailed", "Ready Failed: down"⟩)] ∧
      speaker.TellsVisits id default := by
  have hBuild : build speaking = .ok speaker := rfl
  exact ⟨hBuild, logs_speaker, by decide +kernel,
    tellsVisits_of_build hBuild logs_speaker default⟩

end Engine

end Reconciliation
