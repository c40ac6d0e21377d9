import Reconciliation.Edit
import Reconciliation.Engine.Step

/-!
Recording how a step went: the condition and the phase of the resource, an event, and what is to
happen next. What a failed step has done to the resource is kept together with the record of its
failure.
-/
namespace Reconciliation

/-- How grave an event is. -/
inductive Severity where
  | normal
  | warning
deriving DecidableEq, Repr

def Severity.word : Severity → String
  | .normal => "Normal"
  | .warning => "Warning"

/-- What people are told about a resource. -/
structure Event where
  severity : Severity
  reason : String
  message : String
deriving DecidableEq, Repr

/-- Receives events together with the resource they are about. -/
abbrev EventSink (σ : Type) := Resource → Event → σ → σ

/-- What follows from how a step went. -/
structure Recorded where
  /-- Whether no further step runs. -/
  exit : Bool := false
  requeue : Option Requeue := none
  failure : Option Report := none
deriving DecidableEq

/-- A panic as a failure. -/
def Payload.report (payload : Payload) : Report :=
  .ofMessage s!"panic: {payload.message}\n{payload.trace}"

def Condition.event (condition : Condition) : Event where
  severity := if condition.isFalse then .warning else .normal
  reason := condition.reason
  message := condition.message

namespace Step

variable {σ ε : Type}

/-- Does the work of a step. A panic is an objection if panics are caught. -/
def attemptWork (step : Step σ) (catches : Bool) : Task σ Empty (Except Objection Unit) :=
  if catches then do
    match ← step.work.contain with
    | .ok () => return .ok ()
    | .error (.error objection) => return .error objection
    | .error (.panic payload) => return .error (.failure payload.report)
  else step.work.attempt

def failCondition (step : Step σ) (report : Report) : Except Violation Condition :=
  Condition.make step.type .fails step.failReason
    (Text.cap maxError s!"{step.failContext}: {report.full}")

def successCondition (step : Step σ) : Except Violation Condition :=
  Condition.make step.type .holds step.successReason step.successMessage

/-- The condition while the step is under way. -/
def markCondition (step : Step σ) : Except Violation Condition :=
  Condition.make step.type .unknown step.markReason "Processing"

/-- Tells the sink, if there is one, about a condition. -/
def emit (sink : Option (EventSink σ)) (condition : Condition) : Task σ ε Unit :=
  match sink with
  | some sink => Task.modifyState fun resource => sink resource condition.event
  | none => pure ()

/-- The condition for how the work went and what follows from it. The phase that a verdict gives is
set, and the event is sent, before the condition is on the resource. -/
def judge (step : Step σ) (sink : Option (EventSink σ)) :
    Except Objection Unit → Task σ Empty (Condition × Recorded)
  | .ok () => do
    let condition ← Task.orPanic Violation.message step.successCondition
    return (condition, {})
  | .error (.verdict verdict) => do
    match verdict.phase with
    | some phase => Task.modifyResource (Resource.setPhase phase)
    | none => pure ()
    let condition ← Task.orPanic Violation.message (verdict.condition step.type)
    if !verdict.silent then emit sink condition
    let failure := if condition.isFalse then some (Report.ofMessage verdict.text) else none
    return (condition, { exit := verdict.exit, requeue := verdict.requeue, failure })
  | .error (.failure report) => do
    let condition ← Task.orPanic Violation.message (step.failCondition report)
    emit sink condition
    return (condition, { failure := some report })

/-- Whether the outcome of the work sets the phase itself. -/
def setsPhase : Except Objection Unit → Bool
  | .error (.verdict verdict) => verdict.phase.isSome
  | _ => false

/-- Puts a condition on the resource. A failed condition gives its reason to the phase, unless the
phase is set already, and is shown to the callback for failures. -/
def enter (step : Step σ) (now : Timestamp) (phaseSet : Bool) (condition : Condition) :
    Task σ Empty Unit := do
  let generation := (← Task.resource).metadata.generation
  let condition := { condition with generation := generation.or condition.generation }
  if condition.isFalse && !phaseSet then
    Task.modifyResource (Resource.setPhase ⟨condition.reason⟩)
  Task.modifyResource (Resource.setCondition now condition)
  if condition.isFalse then
    match step.onFail with
    | some callback =>
      let _ ← Task.onCopy (← Task.resource) callback
    | none => pure ()

def record (step : Step σ) (now : Timestamp) (sink : Option (EventSink σ))
    (outcome : Except Objection Unit) : Task σ Empty Recorded := do
  let (condition, recorded) ← step.judge sink outcome
  step.enter now (setsPhase outcome) condition
  match ← step.runHook.attempt with
  | .ok () => return recorded
  | .error report => return { recorded with failure := some report }

/-- Does the work of a step and records how it went. -/
def perform (step : Step σ) (now : Timestamp) (catches : Bool) (sink : Option (EventSink σ)) :
    Task σ Empty Recorded := do
  step.record now sink (← step.attemptWork catches)

def edit (step : Step σ) (now : Timestamp) (catches : Bool) (sink : Option (EventSink σ)) :
    Edit σ Recorded where
  mutate := step.perform now catches sink

/-- Says on the stored resource that a step is under way. -/
def mark (step : Step σ) (now : Timestamp) : Task σ WorkError Unit := do
  let resource ← Task.resource
  let condition ← Task.orPanic Violation.message step.markCondition
  let (_, marked) ← Task.onCopy (resource.setCondition now condition)
    (step.runHook.mapError .hook)
  Edit.renew (Task.updateStatus marked)

/-- Does the work of a single step outside of any engine. -/
def performAlone (type : String) (work : Task σ Objection Unit) (options : StepOptions σ)
    (now : Timestamp) : Task σ WorkError Outcome := do
  let step ← Task.ofExcept ((make type work options).mapError .config)
  if step.marks then step.mark now
  let edited ← (step.edit now false none).run.widen
  let written ← Task.ofExcept edited.written
  return { written, failure := edited.mutation.bind Recorded.failure }

end Step

end Reconciliation
