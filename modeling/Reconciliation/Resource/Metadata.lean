import Reconciliation.Json.Reading

namespace Reconciliation

/-- The name of a resource and the namespace it is in. -/
structure Key where
  space : String
  name : String
deriving DecidableEq, Repr, Inhabited

namespace Key

/-- The name, after the namespace and a slash if there is a namespace. -/
def text (key : Key) : String :=
  if key.space = "" then key.name else s!"{key.space}/{key.name}"

/-- The order of keys: by namespace, then by name. -/
def le (a b : Key) : Bool :=
  a.space < b.space || (a.space == b.space && a.name ≤ b.name)

/-- The different keys of a list, in their order. -/
def sorted (keys : List Key) : List Key :=
  (keys.mergeSort le).eraseReps

end Key

/-- What is kept about a resource beside its content. -/
structure Metadata where
  name : String
  space : String := ""
  /-- Which state of the resource this is. The store hands it out and checks it on writing. -/
  version : Option String := none
  generation : Option Int64 := none
  /-- While there is one, the resource is not removed. -/
  finalizers : List String := []
  /-- When the deletion of the resource was asked for. -/
  deletion : Option Timestamp := none
deriving DecidableEq, Inhabited

namespace Metadata

def key (metadata : Metadata) : Key := ⟨metadata.space, metadata.name⟩

/-- The metadata of a resource that is not stored yet. -/
def ofKey (key : Key) : Metadata := { name := key.name, space := key.space }

/-- The namespace as a document, if there is one. -/
def spaceJson? (metadata : Metadata) : Option Json :=
  if metadata.space = "" then none else some (.string metadata.space)

/-- The finalizers as a document, if there are any. -/
def finalizersJson? (metadata : Metadata) : Option Json :=
  if metadata.finalizers.isEmpty then none
  else some (.array (metadata.finalizers.map Json.string))

def toObject (metadata : Metadata) : Json.Object :=
  Json.Object.ofList [("name", .string metadata.name)]
    |>.insert? "namespace" metadata.spaceJson?
    |>.insert? "resourceVersion" (metadata.version.map Json.string)
    |>.insert? "generation" (metadata.generation.map Json.ofInt64)
    |>.insert? "finalizers" metadata.finalizersJson?
    |>.insert? "deletionTimestamp" (metadata.deletion.map Json.ofTimestamp)

def toJson (metadata : Metadata) : Json := .object metadata.toObject

/-- How errors name metadata in array form. -/
def shape : String := "struct ObjectMeta with 6 elements"

def ofObject (object : Json.Object) : Except ReadError Metadata := do
  let deletion ← Json.ifPresent (Json.asOption Json.asTimestamp) (object.get? "deletionTimestamp")
  let finalizers ← Json.ifPresent (Json.asList Json.asText) (object.get? "finalizers")
  let generation ← Json.ifPresent (Json.asOption Json.asInt64) (object.get? "generation")
  let name ← Json.ifPresent Json.asText (object.get? "name")
  let space ← Json.ifPresent Json.asText (object.get? "namespace")
  let version ← Json.ifPresent (Json.asOption Json.asText) (object.get? "resourceVersion")
  let name ← Json.requireField "name" name
  return {
    name
    space := space.getD ""
    version := version.join
    generation := generation.join
    finalizers := finalizers.getD []
    deletion := deletion.join }

/-- Reads metadata from its fields in order. -/
def ofItems (items : List Json) : Except ReadError Metadata := do
  let name ← Json.requireItem items 0 shape Json.asText
  let space ← Json.ifPresent Json.asText items[1]?
  let version ← Json.ifPresent (Json.asOption Json.asText) items[2]?
  let generation ← Json.ifPresent (Json.asOption Json.asInt64) items[3]?
  let finalizers ← Json.ifPresent (Json.asList Json.asText) items[4]?
  let deletion ← Json.ifPresent (Json.asOption Json.asTimestamp) items[5]?
  Json.atMost 6 Json.fewer items
  return {
    name
    space := space.getD ""
    version := version.join
    generation := generation.join
    finalizers := finalizers.getD []
    deletion := deletion.join }

def ofJson : Json → Except ReadError Metadata
  | .object object => ofObject object
  | .array items => ofItems items
  | document => .error (.mistyped document "struct ObjectMeta")

end Metadata

end Reconciliation
