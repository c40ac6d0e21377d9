import Reconciliation.Engine.Error
import Reconciliation.Task

/-!
Edits of a stored resource. An edit fetches the resource, changes it, and writes back what has
changed: a patch of everything but the status if that differs, then a patch of the status if that
differs, and nothing else. Both patches are made against the resource as it was fetched.
-/
namespace Reconciliation

/-- What an edit has written. -/
inductive Written where
  | nothing
  /-- Everything but the status. -/
  | main
  | mainAndStatus
  | statusOnly
deriving DecidableEq, Repr

/-- A change of a stored resource. -/
structure Edit (σ μ : Type) where
  /-- Changes the resource. Whether it fails is part of its value. -/
  mutate : Task σ Empty μ
  /-- Whether nothing is written after the mutation has ended with this value. -/
  aborts : μ → Bool := fun _ => false
  /-- Changes the resource once more, if the mutation has changed it. -/
  onChange : Option (Task σ Empty Unit) := none

structure Edited (μ : Type) where
  /-- How the mutation ended, if it ran. -/
  mutation : Option μ
  /-- What was written. -/
  written : Except WorkError Written

namespace Edit

variable {σ μ : Type}

/-- A resource as it was fetched for an edit. -/
structure Base where
  /-- The name it was fetched under. -/
  key : Key
  resource : Resource
  snapshot : Snapshot

/-- Makes a request that answers with a resource, and works on that from now on. -/
def renew (request : Task σ WorkError (Except StoreError Resource)) : Task σ WorkError Unit := do
  let resource ← Task.ofExcept ((← request).mapError .store)
  Task.setResource resource

def capture (resource : Resource) : Task σ WorkError Snapshot :=
  Task.ofExcept (resource.snapshot.mapError .codec)

def fetch : Task σ WorkError Base := do
  let key := (← Task.resource).key
  renew (Task.get key)
  let resource ← Task.resource
  return { key, resource, snapshot := ← capture resource }

/-- The snapshot to write: the hook runs first if the resource has changed. -/
def target (base : Base) (onChange : Option (Task σ Empty Unit)) : Task σ WorkError Snapshot := do
  let changed ← capture (← Task.resource)
  match onChange with
  | some hook =>
    if changed.Agree base.snapshot then return changed
    hook.widen
    capture (← Task.resource)
  | none => return changed

/-- Writes everything but the status. -/
def writeMain (base : Base) : Task σ WorkError Unit := do
  let resource ← Task.resource
  renew (Task.patch resource base.resource)

/-- Writes the status after everything else: the store has answered with the resource under its new
version, which gets the status before the edit on one side and the status after it on the other. -/
def writeStatusAfterMain (before after : Option Json) : Task σ WorkError Unit := do
  let resource ← Task.resource
  let base ← Task.ofExcept ((resource.withStatus before).mapError .codec)
  let resource ← Task.ofExcept ((resource.withStatus after).mapError .codec)
  renew (Task.patchStatus resource base)

def writeStatus (base : Base) : Task σ WorkError Unit := do
  let resource ← Task.resource
  renew (Task.patchStatus resource base.resource)

/-- Writes what has changed. A resource that has got another name is not written. -/
def persist (base : Base) (aborted : Bool) (onChange : Option (Task σ Empty Unit)) :
    Task σ WorkError Written := do
  let key := (← Task.resource).key
  if key ≠ base.key then Task.fail (.renamed base.key key)
  else if aborted then return .nothing
  else
    let after ← target base onChange
    let before := base.snapshot
    match decide (before.MainAgree after), decide (before.StatusAgree after) with
    | true, true => return .nothing
    | false, true =>
      writeMain base
      return .main
    | false, false =>
      writeMain base
      writeStatusAfterMain before.status after.status
      return .mainAndStatus
    | true, false =>
      writeStatus base
      return .statusOnly

def run (edit : Edit σ μ) : Task σ Empty (Edited μ) := do
  match ← fetch.attempt with
  | .error error => return { mutation := none, written := .error error }
  | .ok base =>
    let value ← edit.mutate
    let written ← (persist base (edit.aborts value) edit.onChange).attempt
    return { mutation := some value, written }

end Edit

/-- An edit that was carried out: what it wrote, and how the mutation failed, if it did. -/
structure Outcome where
  written : Written
  failure : Option Report
deriving DecidableEq

namespace Outcome

/-- What was written, unless the mutation failed. -/
def toExcept (outcome : Outcome) : Except Report Written :=
  match outcome.failure with
  | some report => .error report
  | none => .ok outcome.written

end Outcome

namespace Edit

variable {σ : Type}

/-- An edit whose mutation may fail; if it does, nothing is written unless `persistent`. -/
def ofTask (mutate : Task σ Report Unit) (persistent : Bool)
    (onChange : Option (Task σ Empty Unit)) : Edit σ (Except Report Unit) where
  mutate := mutate.attempt
  aborts value := !persistent && !value.isOk
  onChange := onChange

def runTask (mutate : Task σ Report Unit) (persistent : Bool := false)
    (onChange : Option (Task σ Empty Unit) := none) : Task σ WorkError Outcome := do
  let edited ← (ofTask mutate persistent onChange).run.widen
  let written ← Task.ofExcept edited.written
  return { written, failure := edited.mutation.bind fun
    | .ok () => none
    | .error report => some report }

end Edit

end Reconciliation
