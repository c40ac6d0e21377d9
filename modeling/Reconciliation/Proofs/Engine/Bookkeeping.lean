import Reconciliation.Proofs.Engine.Alone
import Reconciliation.Proofs.Engine.Invocation

/-!
The conditions that engines make on their own account. Steps that could be made and engines that
could be built never violate the rules for conditions, whatever the outcome of the work is: what
they panic with is what the functions that users supply panic with.
-/
namespace Reconciliation

variable {σ : Type} {may : Payload → Prop} {now : Timestamp}

/-- A condition can be made, and it has a type and a token for its reason. -/
def Condition.IsMade (made : Except Violation Condition) : Prop :=
  ∃ condition, made = .ok condition ∧ condition.type ≠ "" ∧ Text.isToken condition.reason = true

theorem Condition.isMade_make {type reason : String} (hType : type ≠ "")
    (hReason : Text.isToken reason = true) (status : Verity) (message : String) :
    IsMade (make type status reason message) :=
  ⟨_, make_eq_ok hType hReason status message, hType, hReason⟩

namespace Step

variable {step : Step σ}

/-- No condition that is made for a step violates a rule. -/
structure NeverViolates (step : Step σ) : Prop where
  marking : Condition.IsMade step.markCondition
  success : Condition.IsMade step.successCondition
  failure : ∀ report, Condition.IsMade (step.failCondition report)
  /-- Whatever a verdict gives for the type, the phase and the text. -/
  verdict : ∀ verdict : Verdict, Condition.IsMade (verdict.condition step.type)

/-- The conditions of a step that could be made can be made. -/
theorem Sound.neverViolates (h : step.Sound) : step.NeverViolates where
  marking := Condition.isMade_make h.type_ne h.markReason _ _
  success := Condition.isMade_make h.type_ne h.successReason _ _
  failure _ := Condition.isMade_make h.type_ne h.failReason _ _
  verdict verdict := Condition.isMade_make (verdict.typeOr_ne h.type_ne) verdict.reason_valid _ _

/-- Judging an outcome does not panic. -/
theorem panicsWithin_judge (hStep : step.Sound) (sink : Option (EventSink σ))
    (outcome : Except Objection Unit) : (step.judge sink outcome).PanicsWithin may := by
  intro now scene store payload h
  rw [exec_judge hStep] at h
  cases h

theorem PanicsWithin.enter (h : step.PanicsWithin may) (now : Timestamp) (phaseSet : Bool)
    (condition : Condition) : (step.enter now phaseSet condition).PanicsWithin may := by
  refine Task.panicsWithin_resource.bind fun resource => ?_
  dsimp only
  split
  · exact (Task.panicsWithin_modifyResource _).bind fun _ =>
      (Task.panicsWithin_modifyResource _).bind fun _ => h.showFailure _
  · exact (Task.panicsWithin_modifyResource _).bind fun _ => h.showFailure _

/-- Work whose panics are caught does not count. -/
theorem panicsWithin_attemptWork {catches : Bool}
    (hWork : catches = false → step.work.PanicsWithin may) :
    (step.attemptWork catches).PanicsWithin may := by
  cases catches with
  | true =>
      refine (Task.panicsWithin_contain step.work).bind fun ended => ?_
      rcases ended with (payload | objection) | ⟨⟩
      · exact Task.panicsWithin_pure _
      · exact Task.panicsWithin_pure _
      · exact Task.panicsWithin_pure _
  | false => exact (hWork rfl).attempt

/-- A step panics only as its work, its hook and its callback do. -/
theorem PanicsWithin.perform (h : step.PanicsWithin may) (hStep : step.Sound) {catches : Bool}
    (hWork : catches = false → step.work.PanicsWithin may) (now : Timestamp)
    (sink : Option (EventSink σ)) : (step.perform now catches sink).PanicsWithin may := by
  refine (panicsWithin_attemptWork hWork).bind fun outcome =>
    (panicsWithin_judge hStep sink outcome).bind fun (condition, recorded) =>
      (h.enter now _ condition).bind fun _ => h.runHook.attempt.bind fun hook => ?_
  rcases hook with report | ⟨⟩
  · exact Task.panicsWithin_pure _
  · exact Task.panicsWithin_pure _

/-- A step that is done alone panics only with what its parts panic with. -/
theorem PanicsWithin.performAlone {type : String} {work : Task σ Objection Unit}
    {options : StepOptions σ} (hMake : make type work options = .ok step)
    (hWork : work.PanicsWithin may) (h : step.PanicsWithin may) (now : Timestamp) :
    (performAlone type work options now).PanicsWithin may := by
  obtain ⟨rfl, hStep⟩ := of_make_eq_ok hMake
  have hEdit : (Engine.editAlone (ofOptions type work options) now).PanicsWithin may :=
    ((Task.composes_panicsWithin.run (h.perform hStep (fun _ => hWork) now none) rfl).mapError _).bind
      fun edited => (Task.panicsWithin_ofExcept edited.written).bind fun _ =>
        Task.panicsWithin_pure _
  rw [Step.performAlone, hMake]
  show (if (ofOptions type work options).marks then _ else _ : Task σ WorkError _).PanicsWithin may
  split
  · exact (h.mark hStep now).bind fun _ => hEdit
  · exact hEdit

end Step

namespace Engine

variable {engine : Engine σ} {step : Step σ}

/-- An engine whose users' functions panic, if they do so, with one of the payloads in question;
work whose panics are caught may panic with any. -/
structure PanicsWithin (may : Payload → Prop) (engine : Engine σ) : Prop where
  work : engine.config.catchesPanics = false → ∀ step ∈ engine.steps, step.work.PanicsWithin may
  steps : ∀ step ∈ engine.steps, step.PanicsWithin may
  cleanup : ∀ finalizer, engine.finalizer = some finalizer →
    ∀ cleanup, finalizer.cleanup = some cleanup → cleanup.PanicsWithin may

theorem panicsWithin_asks (skipper : Option (Skipper σ)) : (asks skipper).PanicsWithin may := by
  cases skipper with
  | none => exact Task.panicsWithin_pure false
  | some skipper => exact Task.panicsWithin_observe skipper

theorem panicsWithin_skips (engine : Engine σ) (step : Step σ) :
    (engine.skips step).PanicsWithin may := by
  unfold skips
  split
  · exact Task.panicsWithin_observe _
  · exact Task.panicsWithin_pure false

/-- An engine panics in a step only as the step's own functions do. -/
theorem panicsWithin_runStep (hStep : step.Sound) (h : step.PanicsWithin may)
    (hWork : engine.config.catchesPanics = false → step.work.PanicsWithin may) (now : Timestamp) :
    (engine.runStep now step).PanicsWithin may := by
  have hMark : (markStep step now).PanicsWithin may :=
    Task.composes_panicsWithin.markStep hStep h.hook now
  refine (panicsWithin_skips engine step).bind fun skipped => ?_
  split
  · exact Task.panicsWithin_pure _
  · refine hMark.bind fun marked => ?_
    cases marked with
    | error error => exact Task.panicsWithin_pure _
    | ok _ =>
        refine (Task.composes_panicsWithin.run (h.perform hStep hWork now engine.sink) rfl).bind
          fun edited => ?_
        dsimp only
        split
        · exact Task.panicsWithin_pure _
        · exact Task.panicsWithin_pure _

/-- Steps panic only with what the work of one of them panics with, or a hook or a callback. -/
theorem panicsWithin_runSteps {steps : List (Step σ)} (hSteps : ∀ step ∈ steps, step.Sound)
    (h : ∀ step ∈ steps, step.PanicsWithin may)
    (hWork : engine.config.catchesPanics = false → ∀ step ∈ steps, step.work.PanicsWithin may)
    (now : Timestamp) : (engine.runSteps now steps).PanicsWithin may := by
  induction steps with
  | nil => exact Task.panicsWithin_pure _
  | cons step rest ih =>
      refine (panicsWithin_runStep (hSteps step List.mem_cons_self) (h step List.mem_cons_self)
        (fun hCatches => hWork hCatches step List.mem_cons_self) now).bind fun control => ?_
      cases control with
      | halt requeue => exact Task.panicsWithin_pure _
      | proceed =>
          exact ih (fun step hMem => hSteps step (List.mem_cons_of_mem _ hMem))
            (fun step hMem => h step (List.mem_cons_of_mem _ hMem))
            fun hCatches step hMem => hWork hCatches step (List.mem_cons_of_mem _ hMem)

theorem PanicsWithin.finalize (h : engine.PanicsWithin may) (now : Timestamp) :
    (engine.finalize now).PanicsWithin may :=
  Task.composes_panicsWithin.finalize h.cleanup now

/-- An engine deals with a resource without panicking on its own account. -/
theorem PanicsWithin.process (h : engine.PanicsWithin may)
    (hSteps : ∀ step ∈ engine.steps, step.Sound) (now : Timestamp) :
    (engine.process now).PanicsWithin may := by
  refine (panicsWithin_asks _).bind fun passedOver => ?_
  split
  · exact Task.panicsWithin_pure _
  · refine ((h.finalize now).mapError _).bind fun finalized => ?_
    cases finalized with
    | some requeue => exact Task.panicsWithin_pure _
    | none =>
        refine (panicsWithin_asks _).bind fun leftAlone => ?_
        split
        · exact Task.panicsWithin_pure _
        · exact (panicsWithin_runSteps hSteps h.steps h.work now).mapError _

theorem PanicsWithin.runIn (h : engine.PanicsWithin may)
    (hSteps : ∀ step ∈ engine.steps, step.Sound) (now : Timestamp) :
    (engine.runIn now).PanicsWithin may := by
  refine Task.panicsWithin_resource.bind fun resource => (Task.panicsWithin_ask _).bind
    fun answer => ?_
  rcases answer with error | fetched
  · cases error with
    | notFound _ => exact (Task.panicsWithin_modifyState _).bind fun _ => Task.panicsWithin_pure _
    | _ => exact Task.panicsWithin_fail _
  · exact (Task.panicsWithin_setResource _).bind fun _ => h.process hSteps now

/-- An invocation panics only with what the functions of its users panic with. -/
theorem PanicsWithin.run (h : engine.PanicsWithin may)
    (hSteps : ∀ step ∈ engine.steps, step.Sound) {key : Key} {state : σ} {store : Store}
    {payload : Payload}
    (hPanic : ((engine.run now key state).run now store).1.1 = .error (.panic payload)) :
    may payload := by
  rw [run_of_get] at hPanic
  cases hGet : (store.get key).1 with
  | ok resource =>
      rw [hGet] at hPanic
      exact h.process hSteps now now ⟨resource, state⟩ _ payload hPanic
  | error error =>
      rw [hGet] at hPanic
      dsimp only at hPanic
      split at hPanic
      · cases hPanic
      · cases hPanic

/-- An engine whose bookkeeping never violates a rule: it can make each condition, and if it panics
then as users' functions do, whatever these are. -/
structure NeverViolates (engine : Engine σ) : Prop where
  steps : ∀ step ∈ engine.steps, step.NeverViolates
  finalizing : ∀ error : WorkError, Condition.IsMade
    (Condition.make finalizingType .fails finalizationFailed (Text.cap maxError error.message))
  run : ∀ may, engine.PanicsWithin may → ∀ now key state store payload,
    ((engine.run now key state).run now store).1.1 = .error (.panic payload) → may payload
  runIn : ∀ may, engine.PanicsWithin may → ∀ now, (engine.runIn now).PanicsWithin may

/-- Neither engines that can be built nor steps that can be made ever violate the rules for
conditions. -/
theorem neverViolates_of_build_of_make {registrations : List (Registration σ)} {type : String}
    {work : Task σ Objection Unit} {options : StepOptions σ}
    (hBuild : build registrations = .ok engine) (hMake : Step.make type work options = .ok step) :
    engine.NeverViolates ∧ step.NeverViolates ∧
      ∀ may, work.PanicsWithin may → step.PanicsWithin may → ∀ now,
        (Step.performAlone type work options now).PanicsWithin may := by
  have hSteps := build_sound hBuild
  refine ⟨⟨?steps, ?finalizing, ?run, ?runIn⟩, (Step.of_make_eq_ok hMake).2.neverViolates, ?alone⟩
  case steps => exact fun step hStep => (hSteps step hStep).neverViolates
  case finalizing => exact fun error => Condition.isMade_make (by decide) (by decide) _ _
  case run => exact fun may h now key state store payload hPanic => h.run hSteps hPanic
  case runIn => exact fun may h now => h.runIn hSteps now
  case alone => exact fun may hWork h now => h.performAlone hMake hWork now

/-- A verdict whose type is empty and whose phase is not one word. -/
def offhand : Verdict where
  type := some ""
  status := .unknown
  reason := "OnHold"
  message := ""
  phase := some ⟨"on hold"⟩
  reason_valid := by decide

def waiting : List (Registration Nat) :=
  [.finalizer { name := "f" }, .step "Ready" (Task.fail (.verdict offhand)) { marks := true }]

def stumble : Task Nat Objection Unit := Task.panic .other

/-- The empty type gives way to the step's own. -/
theorem neverViolates_of_waiting : ∃ (engine : Engine Nat) (step : Step Nat),
    build waiting = .ok engine ∧ Step.make "Ready" stumble {} = .ok step ∧
    (let ended := (engine.runIn default).exec default ⟨Edit.plainResource, 0⟩ Edit.plainStore
    ended.scene.resource.standing.conditions.map Condition.type = ["Ready"]) ∧
    engine.NeverViolates ∧ step.NeverViolates ∧
    ∀ may, stumble.PanicsWithin may → step.PanicsWithin may → ∀ now,
      (Step.performAlone "Ready" stumble {} now).PanicsWithin may := by
  obtain ⟨engine, hBuild, hTypes⟩ : ∃ engine : Engine Nat, build waiting = .ok engine ∧
      ((engine.runIn default).exec default ⟨Edit.plainResource, 0⟩
        Edit.plainStore).scene.resource.standing.conditions.map Condition.type = ["Ready"] :=
    ⟨_, rfl, by decide +kernel⟩
  obtain ⟨step, hMake⟩ : ∃ step, Step.make "Ready" stumble {} = .ok step := ⟨_, rfl⟩
  exact ⟨engine, step, hBuild, hMake, hTypes, neverViolates_of_build_of_make hBuild hMake⟩

end Engine

end Reconciliation
