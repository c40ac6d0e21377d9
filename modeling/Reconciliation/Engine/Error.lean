import Reconciliation.Report
import Reconciliation.Store.Error

/-!
Why an engine cannot be put together, and why a piece of work on a resource fails as a whole.
Failures of single steps are not among these: they are recorded on the resource.
-/
namespace Reconciliation

/-- What an engine can be given once only. -/
inductive Registrant where
  | skipper
  | preFinalizeSkipper
  | stepSkipper
  | finalizer
  | afterDeletion
deriving DecidableEq, Repr

def Registrant.word : Registrant → String
  | .skipper => "skipper"
  | .preFinalizeSkipper => "pre-finalize skipper"
  | .stepSkipper => "step skipper"
  | .finalizer => "finalizer"
  | .afterDeletion => "after deletion"

/-- What is wrong with the description of an engine or of its settings. -/
inductive ConfigError where
  | emptyConditionType
  | emptyFinalizer
  | invalidReason (reason : String)
  | duplicate (registrant : Registrant)
  | invalidSetting (name value : String)
deriving DecidableEq

def ConfigError.message : ConfigError → String
  | .emptyConditionType => "Step condition type cannot be empty"
  | .emptyFinalizer => "Finalizer name cannot be empty"
  | .invalidReason reason => s!"Reason \x27{reason}\x27 must be a single token without whitespace"
  | .duplicate registrant => s!"{registrant.word} already set"
  | .invalidSetting name value =>
    s!"Invalid value \x27{value}\x27 for environment variable {name}"

/-- Why a piece of work on a resource fails. -/
inductive WorkError where
  | store (cause : StoreError)
  /-- The resource does not go into a document or come out of one. -/
  | codec (cause : CodecError)
  /-- The resource got another name. -/
  | renamed (before after : Key)
  /-- The cleanup before the deletion failed. -/
  | cleanup (finalizer : String) (cause : Report)
  /-- The hook after setting a condition failed. -/
  | hook (cause : Report)
  | config (cause : ConfigError)
deriving DecidableEq

def WorkError.message : WorkError → String
  | .store cause => cause.message
  | .codec cause => s!"Failed to convert object into a field map. Source: {cause.message}"
  | .renamed before after =>
    s!"Mutation cannot change object identity (was {before.text}, now {after.text})"
  | .cleanup finalizer cause =>
    s!"Deletion callback for finalizer \x27{finalizer}\x27 failed. Source: {cause.message}"
  | .hook cause => s!"After-condition-set hook failed. Source: {cause.full}"
  | .config cause => s!"Invalid configuration: {cause.message}"

end Reconciliation
