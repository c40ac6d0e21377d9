import Reconciliation.Engine.Basic

/-!
Putting an engine together from registrations, in the order in which they are made. The first one
that is against the rules is what `Engine.build` reports.
-/
namespace Reconciliation

/-- One thing that is said about an engine. -/
inductive Registration (σ : Type) where
  | config (config : Config)
  /-- What is asked for after a failure if nothing else is said. -/
  | onFailure (requeue : Requeue)
  | sink (sink : EventSink σ)
  | skipper (skipper : Skipper σ)
  | preFinalizeSkipper (skipper : Skipper σ)
  | stepSkipper (skipper : StepSkipper σ)
  | finalizer (finalizer : Finalizer σ)
  | afterDeletion (callback : Key → σ → σ)
  | step (type : String) (work : Task σ Objection Unit) (options : StepOptions σ)

namespace Engine

variable {σ : Type}

/-- A value for a place that takes one value only. -/
def fill {α : Type} (registrant : Registrant) (place : Option α) (value : α) :
    Except ConfigError (Option α) :=
  if place.isSome then .error (.duplicate registrant) else .ok (some value)

/-- An engine with one more registration. -/
def register (engine : Engine σ) : Registration σ → Except ConfigError (Engine σ)
  | .config config => .ok { engine with config }
  | .onFailure requeue => .ok { engine with config := { engine.config with onFailure := requeue } }
  | .sink sink => .ok { engine with sink := some sink }
  | .skipper value => do
    return { engine with skipper := ← fill .skipper engine.skipper value }
  | .preFinalizeSkipper value => do
    return { engine with
      preFinalizeSkipper := ← fill .preFinalizeSkipper engine.preFinalizeSkipper value }
  | .stepSkipper value => do
    return { engine with stepSkipper := ← fill .stepSkipper engine.stepSkipper value }
  | .finalizer value => do
    let finalizer ← fill .finalizer engine.finalizer value
    if value.name = "" then throw .emptyFinalizer
    return { engine with finalizer }
  | .afterDeletion value => do
    return { engine with afterDeletion := ← fill .afterDeletion engine.afterDeletion value }
  | .step type work options => do
    return { engine with steps := engine.steps ++ [← Step.make type work options] }

def build (registrations : List (Registration σ)) : Except ConfigError (Engine σ) :=
  registrations.foldlM register {}

end Engine

end Reconciliation
