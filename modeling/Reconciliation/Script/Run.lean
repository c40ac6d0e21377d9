import Reconciliation.Script.Basic

namespace Reconciliation

def enter {ε : Type} (entry : Entry) : Task Ledger ε Unit :=
  Task.modifyState fun _ => Ledger.add entry

def Ending.apply : Ending → Task Ledger Objection Unit
  | .success => pure ()
  | .failure report => Task.fail (.failure report)
  | .verdict given => do Task.fail (.verdict (← Task.orPanic Violation.message given))
  | .panic payload => Task.panic payload

/-- Changes the resource and puts on record whether something about it was as asked before. -/
def change (was : Resource → Bool) (entry : Bool → Entry) (f : Resource → Resource) :
    Task Ledger Objection Unit := do
  let answer := was (← Task.resource)
  Task.modifyResource f
  enter (entry answer)

/-- Changes the specification of a stored resource. -/
def touch (key : Key) (path : List String) (value : Json) : Task Ledger Objection Unit := do
  match ← Task.peek key with
  | none => enter .untouched
  | some resource =>
    let spec := Json.setAt value path resource.spec
    let _ ← Task.insert { resource with spec }

mutual

def Action.run : Action → Task Ledger Objection Bool
  | .setSpec path value => do
    Task.modifyResource fun resource =>
      { resource with spec := Json.setAt value path resource.spec }
    return false
  | .unsetSpec path => do
    Task.modifyResource fun resource =>
      { resource with spec := Json.unsetAt path resource.spec }
    return false
  | .setStatus key value => do
    Task.modifyResource (Resource.mapStatus fun status =>
      { status with extra := Json.Object.insert key value status.extra })
    return false
  | .unsetStatus key => do
    change (fun resource => resource.status.any fun status => status.extra.contains key)
      .unsetStatus fun resource => { resource with
        status := resource.status.map fun status =>
          { status with extra := status.extra.erase key } }
    return false
  | .dropStatus => do
    Task.modifyResource fun resource => { resource with status := none }
    return false
  | .emptyStatus => do
    Task.modifyResource fun resource => { resource with status := some {} }
    return false
  | .setCondition given => do
    Task.modifyResource (Resource.mapStatus id)
    let condition ← Task.orPanic Violation.message given
    let now ← Task.observe fun _ ledger => (ledger.now, ledger)
    Task.modifyResource (Resource.setCondition now condition)
    return false
  | .removeCondition type => do
    change (fun resource => resource.standing.has type) .removeCondition
      (Resource.mapStanding (Standing.remove type))
    return false
  | .setPhase phase => do
    Task.modifyResource (Resource.setPhase phase)
    return false
  | .checkReady phase types => do
    Task.modifyResource (Resource.mapStanding (Standing.checkReady phase types))
    return false
  | .setMetadata edit => do
    Task.modifyResource (Resource.mapMetadata edit.apply)
    return false
  | .addFinalizer finalizer => do
    change (fun resource => !resource.hasFinalizer finalizer) .addFinalizer
      (Resource.addFinalizer finalizer)
    return false
  | .removeFinalizer finalizer => do
    change (Resource.hasFinalizer finalizer) .removeFinalizer (Resource.removeFinalizer finalizer)
    return false
  | .spoil text => do
    Task.modifyResource fun resource => { resource with unwritable := some text }
    return false
  | .see type => do
    let resource ← Task.resource
    enter (.see type (resource.standing.find? type))
    return false
  | .seeAll => do
    enter (.seeAll (← Task.resource))
    return false
  | .note document => do
    enter (.note document)
    return false
  | .count counter => do
    Task.modifyState fun _ => Ledger.count counter
    return false
  | .touch key path value => do
    touch key path value
    return false
  | .delete key => do
    enter (.delete (← Task.delete key))
    return false
  | .failOn verb => do
    let _ ← Task.failOn verb
    return false
  | .clearFailures => do
    let _ ← Task.clearFailures
    return false
  | .wait => return false
  | .branch test yes no => do
    if ← Task.observe fun resource ledger => (test.holdsFor resource ledger, ledger) then
      runActions yes
    else
      runActions no
  | .finish ending => do
    ending.apply
    return true

/-- Carries out actions in order. The value says whether they end the script early. -/
def runActions : List Action → Task Ledger Objection Bool
  | [] => return false
  | action :: rest => do
    if ← action.run then return true
    runActions rest

end

abbrev Script := List Action

namespace Script

def run (script : Script) : Task Ledger Objection Unit := do
  let _ ← runActions script

/-- A script where an error is wanted that is a report. -/
def asTask (entry : Option Entry) (script : Script) : Task Ledger Report Unit := do
  match entry with
  | some entry => enter entry
  | none => pure ()
  (script.run).mapError Objection.report

/-- A script whose objections count for nothing. -/
def asCallback (entry : Entry) (script : Script) : Task Ledger Empty Unit := do
  enter entry
  let _ ← (script.run).attempt

/-- A script as the work of a step. -/
def asWork (type : String) (script : Script) : Task Ledger Objection Unit := do
  enter (.work type)
  script.run

end Script

namespace Test

/-- A question as a skipper. -/
def asSkipper (entry : Bool → Entry) (test : Test) : Skipper Ledger :=
  fun resource ledger =>
    let answer := test.holdsFor resource ledger
    (answer, ledger.add (entry answer))

end Test

/-- Skips the steps that are listed together with the status of their condition. -/
def listedSkipper (listed : List (String × Option Verity)) : StepSkipper Ledger :=
  fun step condition ledger =>
    let seen := condition.map Condition.status
    let answer := listed.contains (step.type, seen)
    (answer, ledger.add (.stepSkipper step.type seen answer))

/-- Puts events on record. -/
def recordingSink : EventSink Ledger :=
  fun resource event ledger =>
    let ledger := ledger.add (.event event.severity event.reason resource.standing.phase)
    { ledger with events := (resource.key, event) :: ledger.events }

/-- Puts on record that a resource is gone. -/
def recordGone (key : Key) (ledger : Ledger) : Ledger :=
  ledger.add (.gone key)

end Reconciliation
