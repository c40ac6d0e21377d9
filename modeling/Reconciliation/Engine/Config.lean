import Reconciliation.Engine.Error
import Reconciliation.Requeue
import Reconciliation.Text.Blank
import Reconciliation.Text.Digits

/-!
Settings that all invocations of an engine share, and how environment variables override them.
-/
namespace Reconciliation

structure Config where
  /-- Whether a panic of a step is recorded as its failure. -/
  catchesPanics : Bool := true
  /-- What is asked for after a failure if nothing else is said. -/
  onFailure : Requeue := .after (.ofSeconds 30)
deriving DecidableEq, Inhabited

namespace Config

/-- The variable that says whether panics are caught. -/
def catchVariable : String := "RECONSTEP_CATCH_PANICS"

/-- The variable that says after how many seconds to run again after a failure. -/
def secondsVariable : String := "RECONSTEP_DEFAULT_REQUEUE_SECS"

def readBool (text : String) : Option Bool :=
  if text = "true" then some true
  else if text = "false" then some false
  else none

/-- Reads decimal digits, after a plus sign or not, that make an unsigned 64-bit number. -/
def readSeconds (text : String) : Option Nat :=
  let digits := match text.toList with
    | '+' :: rest => rest
    | chars => chars
  Text.unsigned64? digits

/-- The value of a variable, blanks at its ends left out. -/
def readVariable {α : Type} (name : String) (read : String → Option α) (value : String) :
    Except ConfigError α :=
  match read (Text.trim value) with
  | some setting => .ok setting
  | none => .error (.invalidSetting name value)

/-- The settings that the values of the two variables give, as far as they are set. -/
def ofVariables (catches seconds : Option String) : Except ConfigError Config := do
  let config : Config := {}
  let config ← match catches with
    | none => pure config
    | some value => do
      let catchesPanics ← readVariable catchVariable readBool value
      pure { config with catchesPanics }
  match seconds with
  | none => return config
  | some value =>
    let seconds ← readVariable secondsVariable readSeconds value
    return { config with onFailure := .after (.ofSeconds seconds) }

end Config

end Reconciliation
