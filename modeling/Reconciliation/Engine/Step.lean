import Reconciliation.Condition.Verdict
import Reconciliation.Engine.Error
import Reconciliation.Task

/-!
Steps of an engine: a piece of work, the type of the condition that records how it went, and the
words to record it with.
-/
namespace Reconciliation

/-- What can be said about a step beside its work. Reasons and messages that are not given follow
from the type of the condition. -/
structure StepOptions (σ : Type) where
  /-- Whether the condition says that the step is under way while it is. -/
  marks : Bool := false
  successReason : Option String := none
  successMessage : Option String := none
  failReason : Option String := none
  failContext : Option String := none
  /-- What is asked for if the step stops the invocation. -/
  onFailure : Option Requeue := none
  /-- Changes the resource after the condition is set. -/
  hook : Option (Task σ Report Unit) := none
  /-- Is shown the resource after a failure is recorded on it. -/
  onFail : Option (Task σ Empty Unit) := none

/-- A step with everything settled. -/
structure Step (σ : Type) where
  /-- The type of the condition. -/
  type : String
  marks : Bool
  successReason : String
  successMessage : String
  failReason : String
  /-- Stands before the text of an error. -/
  failContext : String
  onFailure : Option Requeue
  work : Task σ Objection Unit
  hook : Option (Task σ Report Unit)
  onFail : Option (Task σ Empty Unit)

namespace Step

variable {σ : Type}

/-- Settles a step. -/
def ofOptions (type : String) (work : Task σ Objection Unit) (options : StepOptions σ) :
    Step σ where
  type := type
  marks := options.marks
  successReason := options.successReason.getD s!"{type}Succeeded"
  successMessage := options.successMessage.getD s!"{type} Succeeded"
  failReason := options.failReason.getD s!"{type}Failed"
  failContext := options.failContext.getD s!"{type} Failed"
  onFailure := options.onFailure
  work := work
  hook := options.hook
  onFail := options.onFail

/-- The reason while the step is under way. -/
def markReason (step : Step σ) : String := s!"{step.type}Processing"

/-- Makes a step. Its type must not be empty and its reasons have to be tokens; the first of them
that is none is reported. -/
def make (type : String) (work : Task σ Objection Unit) (options : StepOptions σ) :
    Except ConfigError (Step σ) :=
  if type = "" then .error .emptyConditionType
  else
    let step := ofOptions type work options
    match [step.successReason, step.failReason, step.markReason].find? (!Text.isToken ·) with
    | some reason => .error (.invalidReason reason)
    | none => .ok step

def runHook (step : Step σ) : Task σ Report Unit :=
  step.hook.getD (pure ())

end Step

end Reconciliation
