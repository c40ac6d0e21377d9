import Reconciliation.Condition.Standing
import Reconciliation.Resource.Metadata

/-!
Resources: metadata, a free-form specification, and an optional status that holds the standing of
the resource.
-/
namespace Reconciliation

structure Status where
  standing : Standing := {}
  /-- Whatever else is reported. -/
  extra : Json.Object := .nil
deriving DecidableEq, Inhabited

/-- A resource. -/
structure Resource where
  metadata : Metadata
  spec : Json
  status : Option Status := none
  /-- Why the resource cannot be written, if it cannot. This is never stored. -/
  unwritable : Option String := none
deriving DecidableEq, Inhabited

namespace Resource

def key (resource : Resource) : Key := resource.metadata.key

/-- The standing of a resource; one without status has the empty one. -/
def standing (resource : Resource) : Standing :=
  resource.status.elim {} Status.standing

/-- Changes the status of a resource, which is empty at first if there is none. -/
def mapStatus (f : Status → Status) (resource : Resource) : Resource :=
  { resource with status := some (f (resource.status.getD {})) }

def mapStanding (f : Standing → Standing) : Resource → Resource :=
  mapStatus fun status => { status with standing := f status.standing }

def mapMetadata (f : Metadata → Metadata) (resource : Resource) : Resource :=
  { resource with metadata := f resource.metadata }

def setCondition (now : Timestamp) (condition : Condition) : Resource → Resource :=
  mapStanding (Standing.set now condition)

def setPhase (phase : Phase) : Resource → Resource :=
  mapStanding fun standing => { standing with phase }

/-- Whether the deletion of a resource was asked for. -/
def isTerminating (resource : Resource) : Bool :=
  resource.metadata.deletion.isSome

def hasFinalizer (finalizer : String) (resource : Resource) : Bool :=
  resource.metadata.finalizers.contains finalizer

/-- Adds a finalizer, unless it is there. -/
def addFinalizer (finalizer : String) (resource : Resource) : Resource :=
  if resource.hasFinalizer finalizer then resource
  else resource.mapMetadata fun metadata =>
    { metadata with finalizers := metadata.finalizers ++ [finalizer] }

/-- Removes every occurrence of a finalizer. -/
def removeFinalizer (finalizer : String) : Resource → Resource :=
  mapMetadata fun metadata =>
    { metadata with finalizers := metadata.finalizers.filter (· ≠ finalizer) }

end Resource

end Reconciliation
