import Reconciliation.Condition.Basic

/-!
The conditions of a resource together with its phase. Setting a condition replaces the one of the
same type in its place or appends a new one; the time of a condition moves only when its status
changes.
-/
namespace Reconciliation

/-- A coarse label of the life of a resource. -/
structure Phase where
  text : String
deriving DecidableEq, Repr

namespace Phase

/-- No phase. -/
def blank : Phase := ⟨""⟩

instance : Inhabited Phase := ⟨blank⟩

def initializing : Phase := ⟨"Initializing"⟩
def pending : Phase := ⟨"Pending"⟩
def finalizing : Phase := ⟨"Finalizing"⟩
def idle : Phase := ⟨"Idle"⟩
def error : Phase := ⟨"Error"⟩
def invalid : Phase := ⟨"Invalid"⟩
def finalizationError : Phase := ⟨"FinalizationError"⟩
def ready : Phase := ⟨"Ready"⟩
def running : Phase := ⟨"Running"⟩
def completed : Phase := ⟨"Completed"⟩

def isSuccess (phase : Phase) : Bool :=
  phase == ready || phase == running || phase == completed

end Phase

/-- The conditions of a resource and its phase. -/
structure Standing where
  conditions : List Condition := []
  phase : Phase := .blank
deriving DecidableEq, Inhabited

namespace Condition

def find? (type : String) (conditions : List Condition) : Option Condition :=
  conditions.find? fun condition => condition.type = type

/-- A condition that has not been there yet. -/
def begin (now : Timestamp) (condition : Condition) : Condition :=
  { condition with since := some (condition.since.getD now) }

/-- What becomes of the condition `old` when `new` is set. -/
def renew (now : Timestamp) (old new : Condition) : Condition :=
  { new with
    type := old.type
    since := if old.status = new.status then old.since else some (new.since.getD now) }

/-- Sets a condition in a list: in place of the first one of its type, else at the end. -/
def setIn (now : Timestamp) (new : Condition) : List Condition → List Condition
  | [] => [new.begin now]
  | condition :: rest =>
    if condition.type = new.type then condition.renew now new :: rest
    else condition :: setIn now new rest

end Condition

namespace Standing

def find? (standing : Standing) (type : String) : Option Condition :=
  Condition.find? type standing.conditions

def set (now : Timestamp) (new : Condition) (standing : Standing) : Standing :=
  { standing with conditions := Condition.setIn now new standing.conditions }

/-- Removes all conditions of a type. -/
def remove (type : String) (standing : Standing) : Standing :=
  { standing with
    conditions := standing.conditions.filter fun condition => condition.type ≠ type }

def has (standing : Standing) (type : String) : Bool :=
  standing.conditions.any fun condition => condition.type = type

def isTrue (standing : Standing) (type : String) : Bool :=
  (standing.find? type).any Condition.isTrue

/-- Whether all conditions of the given types hold; if no types are given, whether all hold. -/
def allTrue (types : List String) (standing : Standing) : Bool :=
  standing.conditions.all fun condition =>
    condition.isTrue || !(types.isEmpty || types.contains condition.type)

/-- Moves to a phase, else to the ready one, if all conditions of the given types hold. -/
def checkReady (phase : Option Phase) (types : List String) (standing : Standing) : Standing :=
  if standing.allTrue types then { standing with phase := phase.getD .ready } else standing

/-- The latest time at which a condition changed. -/
def lastTransition (standing : Standing) : Option Timestamp :=
  (standing.conditions.filterMap (·.since)).foldl
    (fun latest instant => some (latest.elim instant (·.latest instant))) none

end Standing

end Reconciliation
