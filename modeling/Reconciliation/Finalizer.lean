import Reconciliation.Edit

/-!
Finalizers. A finalizer is put on a resource that is not being deleted, and holds the deletion back
until its cleanup has succeeded.
-/
namespace Reconciliation

/-- A name that is kept on resources, and what to do before a resource goes. -/
structure Finalizer (σ : Type) where
  name : String
  cleanup : Option (Task σ Report Unit) := none

namespace Finalizer

variable {σ : Type}

/-- Writes a resource and works on what was written. -/
def write (resource : Resource) : Task σ WorkError Unit :=
  Edit.renew (Task.update resource)

def cleanUp (finalizer : Finalizer σ) : Task σ WorkError Unit :=
  match finalizer.cleanup with
  | some cleanup => cleanup.mapError (.cleanup finalizer.name)
  | none => pure ()

/-- Takes the finalizer off the resource, if it is there. -/
def release (finalizer : Finalizer σ) : Task σ WorkError Unit := do
  let resource ← Task.resource
  if resource.hasFinalizer finalizer.name then write (resource.removeFinalizer finalizer.name)

/-- Puts the finalizer on the resource, if it is not there. -/
def hold (finalizer : Finalizer σ) : Task σ WorkError Unit := do
  let resource ← Task.resource
  if !resource.hasFinalizer finalizer.name then write (resource.addFinalizer finalizer.name)

/-- Sees to the finalizer. The value says whether the resource is being deleted, in which case the
cleanup has run and there is nothing else to do. -/
def enforce (finalizer : Finalizer σ) : Task σ WorkError Bool := do
  if (← Task.resource).isTerminating then
    finalizer.cleanUp
    finalizer.release
    return true
  else
    finalizer.hold
    return false

end Finalizer

end Reconciliation
