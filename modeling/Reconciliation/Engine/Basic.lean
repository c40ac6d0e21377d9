import Reconciliation.Engine.Config
import Reconciliation.Engine.Recording
import Reconciliation.Finalizer

/-!
Engines. An invocation fetches a resource, asks whether to go on, sees to the finalizer, asks again,
and then does the steps in their order, each in an edit of its own. It stops at the first step that
fails, asks to stop, or cannot be written. Nothing is remembered from one invocation to the next but
what is on the resource.

One reading of the clock, `now`, serves an invocation as a whole: it dates each condition that is set
and each request that is made.
-/
namespace Reconciliation

/-- Looks at a resource and says whether to leave it alone. -/
abbrev Skipper (σ : Type) := Resource → σ → Bool × σ

/-- Looks at a step and its condition and says whether to leave the step out. -/
abbrev StepSkipper (σ : Type) := Step σ → Option Condition → σ → Bool × σ

/-- Steps to do on a resource, and what surrounds them. -/
structure Engine (σ : Type) where
  steps : List (Step σ) := []
  /-- Is asked after the finalizer. -/
  skipper : Option (Skipper σ) := none
  /-- Is asked before the finalizer. -/
  preFinalizeSkipper : Option (Skipper σ) := none
  stepSkipper : Option (StepSkipper σ) := none
  finalizer : Option (Finalizer σ) := none
  /-- Is told that a resource is gone. -/
  afterDeletion : Option (Key → σ → σ) := none
  sink : Option (EventSink σ) := none
  config : Config := {}

/-- How to go on after a step. -/
inductive Control where
  | proceed
  | halt (requeue : Requeue)
deriving DecidableEq

/-- The type of the condition for a failed cleanup. -/
def finalizingType : String := "Finalizing"

/-- The reason of the condition for a failed cleanup. -/
def finalizationFailed : String := "FinalizationFailed"

namespace Engine

variable {σ : Type}

def asks (skipper : Option (Skipper σ)) : Task σ WorkError Bool :=
  match skipper with
  | some skipper => Task.observe skipper
  | none => pure false

def skips (engine : Engine σ) (step : Step σ) : Task σ Empty Bool :=
  match engine.stepSkipper with
  | some skipper =>
    Task.observe fun resource => skipper step (resource.standing.find? step.type)
  | none => pure false

/-- What is asked for if a step halts the invocation. -/
def haltRequeue (engine : Engine σ) (step : Step σ) (given : Option Requeue) : Requeue :=
  .firstOf [given, step.onFailure, some engine.config.onFailure]

/-- Says that a step is under way, if that is wanted. -/
def markStep (step : Step σ) (now : Timestamp) : Task σ Empty (Except WorkError Unit) :=
  if step.marks then (step.mark now).attempt else pure (.ok ())

/-- Does the work of a step and writes the result. -/
def workStep (engine : Engine σ) (now : Timestamp) (step : Step σ) : Task σ Empty Control := do
  let edited ← (step.edit now engine.config.catchesPanics engine.sink).run
  let recorded := edited.mutation.getD {}
  let halt := Control.halt (engine.haltRequeue step recorded.requeue)
  match edited.written with
  | .error _ => return halt
  | .ok _ => return if recorded.failure.isSome || recorded.exit then halt else .proceed

def runStep (engine : Engine σ) (now : Timestamp) (step : Step σ) : Task σ Empty Control := do
  if ← engine.skips step then return .proceed
  match ← markStep step now with
  | .error _ => return .halt (engine.haltRequeue step none)
  | .ok () => engine.workStep now step

/-- Does steps one after the other until one halts. -/
def runSteps (engine : Engine σ) (now : Timestamp) : List (Step σ) → Task σ Empty Requeue
  | [] => return .none
  | step :: rest => do
    match ← engine.runStep now step with
    | .proceed => engine.runSteps now rest
    | .halt requeue => return requeue

/-- Records on the stored resource that the finalizer could not be dealt with. If that cannot be
written, it is let go. -/
def recordFinalizing (now : Timestamp) (error : WorkError) : Task σ Empty Unit := do
  let resource ← Task.resource
  let condition ← Task.orPanic Violation.message
    (Condition.make finalizingType .fails finalizationFailed (Text.cap maxError error.message))
  let failed := (resource.setCondition now condition).setPhase .finalizationError
  let _ ← (Edit.renew (Task.updateStatus failed)).attempt

/-- Sees to the finalizer, if there is one. A value ends the invocation. -/
def finalize (engine : Engine σ) (now : Timestamp) : Task σ Empty (Option Requeue) :=
  match engine.finalizer with
  | none => return none
  | some finalizer => do
    match ← finalizer.enforce.attempt with
    | .ok true => return some .none
    | .ok false => return none
    | .error error =>
      recordFinalizing now error
      return some engine.config.onFailure

/-- Deals with a resource that has been fetched. -/
def process (engine : Engine σ) (now : Timestamp) : Task σ WorkError Requeue := do
  if ← asks engine.preFinalizeSkipper then return .none
  match ← (engine.finalize now).widen with
  | some requeue => return requeue
  | none =>
    if ← asks engine.skipper then return .none
    (engine.runSteps now engine.steps).widen

/-- What becomes of the state if the resource is gone. -/
def noteGone (engine : Engine σ) (key : Key) (state : σ) : σ :=
  engine.afterDeletion.elim state fun callback => callback key state

/-- An invocation on the resource under a key. -/
def run (engine : Engine σ) (now : Timestamp) (key : Key) (state : σ) :
    Program (Except (Stop WorkError) Requeue × σ) :=
  .call (.get key) fun
    | .ok resource =>
      (engine.process now { resource, state }).bind fun (outcome, scene) =>
        .done (outcome, scene.state)
    | .error (.notFound _) => .done (.ok .none, engine.noteGone key state)
    | .error error => .done (.error (.error (.store error)), state)

/-- An invocation on the resource that the caller has in hand, which is up to date afterwards. -/
def runIn (engine : Engine σ) (now : Timestamp) : Task σ WorkError Requeue := do
  let key := (← Task.resource).key
  match ← Task.get key with
  | .ok resource =>
    Task.setResource resource
    engine.process now
  | .error (.notFound _) =>
    Task.modifyState fun _ => engine.noteGone key
    return .none
  | .error error => Task.fail (.store error)

end Engine

end Reconciliation
