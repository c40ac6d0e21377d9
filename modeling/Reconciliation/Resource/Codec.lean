import Reconciliation.Condition.Codec
import Reconciliation.Resource.Basic
import Reconciliation.Text.Position

/-!
Resources as documents. The status stands under a key of its own, its standing among the members of
the status; a resource without status has no such key. Reading needs metadata and a specification.
-/
namespace Reconciliation

/-- Why a resource does not go into a document or come out of one. -/
inductive CodecError where
  /-- The resource refuses to be written. -/
  | unwritable (text : String)
  /-- The document describes no resource. -/
  | unreadable (error : ReadError)
deriving DecidableEq

def CodecError.message : CodecError → String
  | .unwritable text => Text.withPosition text
  | .unreadable error => error.message

namespace Status

/-- Puts the members of one object over those of another. -/
def overlay (object : Json.Object) : {low : Option String} → Members low → Json.Object
  | _, .nil => object
  | _, .cons key _ value rest => overlay (object.insert key value) rest

def toJson (status : Status) : Json :=
  .object (overlay status.standing.toObject status.extra)

def ofJson : Json → Except ReadError Status
  | .object object => do
    let standing ← Standing.ofObject .lenient object
    return { standing, extra := (object.erase "conditions").erase "phase" }
  | document => .error (.mistyped document "struct Status")

end Status

namespace Resource

def statusKey : String := "status"

def toObject (resource : Resource) : Json.Object :=
  Json.Object.ofList [("metadata", resource.metadata.toJson), ("spec", resource.spec)]
    |>.insert? statusKey (resource.status.map Status.toJson)

def toJson (resource : Resource) : Except CodecError Json :=
  match resource.unwritable with
  | some text => .error (.unwritable text)
  | none => .ok (.object resource.toObject)

def ofObject (object : Json.Object) : Except ReadError Resource := do
  let metadata ← Json.ifPresent Metadata.ofJson (object.get? "metadata")
  let status ← Json.ifPresent (Json.asOption Status.ofJson) (object.get? statusKey)
  let metadata ← Json.requireField "metadata" metadata
  let spec ← Json.requireField "spec" (object.get? "spec")
  return { metadata, spec, status := status.join }

/-- How errors name a resource in array form. -/
def shape : String := "struct Doc with 3 elements"

/-- Reads a resource from its fields in order. -/
def ofItems (items : List Json) : Except ReadError Resource := do
  let metadata ← Json.requireItem items 0 shape Metadata.ofJson
  let spec ← Json.requireItem items 1 shape .ok
  let status ← Json.ifPresent (Json.asOption Status.ofJson) items[2]?
  Json.atMost 3 Json.fewer items
  return { metadata, spec, status := status.join }

def ofJson : Json → Except CodecError Resource
  | .object object => (ofObject object).mapError .unreadable
  | .array items => (ofItems items).mapError .unreadable
  | document => .error (.unreadable (.mistyped document "struct Doc"))

end Resource

end Reconciliation
