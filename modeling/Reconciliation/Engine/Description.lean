import Reconciliation.Engine.Basic
import Reconciliation.Text.Quoted

/-!
Engines in words, for people who look for what is wrong. Functions are described by whether they are
there.
-/
namespace Reconciliation

namespace Describe

def record (name : String) (fields : List (String × String)) : String :=
  let body := ", ".intercalate (fields.map fun (field, value) => s!"{field}: {value}")
  s!"{name} \x7b {body} \x7d"

def option {α : Type} (describe : α → String) : Option α → String
  | none => "None"
  | some value => s!"Some({describe value})"

def list {α : Type} (describe : α → String) (values : List α) : String :=
  let body := ", ".intercalate (values.map describe)
  s!"[{body}]"

def bool (value : Bool) : String :=
  if value then "true" else "false"

end Describe

open Describe

def Requeue.description (requeue : Requeue) : String :=
  Describe.record "ReconcileResult" [
    ("requeue", bool requeue.wanted),
    ("requeue_after", requeue.delay.text)]

def Config.description (config : Config) : String :=
  Describe.record "EngineConfig" [
    ("catch_panics", bool config.catchesPanics),
    ("default_fail_result", config.onFailure.description)]

def Step.description {σ : Type} (step : Step σ) : String :=
  Describe.record "Step" [
    ("condition_type", Text.quoted step.type),
    ("set_processing", bool step.marks),
    ("success_reason", Text.quoted step.successReason),
    ("default_fail_reason", Text.quoted step.failReason),
    ("fail_result", option Requeue.description step.onFailure),
    ("after_condition_set_present", bool step.hook.isSome),
    ("fail_callback_present", bool step.onFail.isSome)]

def Engine.description {σ : Type} (engine : Engine σ) : String :=
  Describe.record "StepEngine" [
    ("steps", list Step.description engine.steps),
    ("finalizer", option (fun finalizer => Text.quoted finalizer.name) engine.finalizer),
    ("skipper_present", bool engine.skipper.isSome),
    ("pre_finalize_skipper_present", bool engine.preFinalizeSkipper.isSome),
    ("step_skipper_present", bool engine.stepSkipper.isSome),
    ("event_sink_present", bool engine.sink.isSome),
    ("config", engine.config.description)]

end Reconciliation
