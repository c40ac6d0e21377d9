import Reconciliation.Resource.Snapshot
import Reconciliation.Store.Catalog
import Reconciliation.Store.Error

/-!
A store of resources, each kept as a document. Whatever is written gets a version that has not been
used before, and a write that names a version fails unless the stored document has it. The status is
written apart from everything else. A resource whose deletion was asked for leaves the store with
its last finalizer.
-/
namespace Reconciliation

/-- How often each kind of request was made. -/
structure Calls where
  get : Nat := 0
  update : Nat := 0
  updateStatus : Nat := 0
  patch : Nat := 0
  patchStatus : Nat := 0
deriving DecidableEq, Repr, Inhabited

namespace Calls

def count (calls : Calls) : Verb → Calls
  | .get => { calls with get := calls.get + 1 }
  | .update => { calls with update := calls.update + 1 }
  | .updateStatus => { calls with updateStatus := calls.updateStatus + 1 }
  | .patch => { calls with patch := calls.patch + 1 }
  | .patchStatus => { calls with patchStatus := calls.patchStatus + 1 }

/-- The number of requests to write. -/
def writes (calls : Calls) : Nat :=
  calls.update + calls.updateStatus + calls.patch + calls.patchStatus

end Calls

/-- A store of resources. -/
structure Store where
  objects : Catalog := {}
  /-- The version handed out last. -/
  version : Nat := 0
  calls : Calls := {}
  /-- The kinds of requests that fail. -/
  failing : List Verb := []
deriving DecidableEq, Inhabited

namespace Json

def metadata (document : Json) : Object :=
  ((document.members.get? "metadata").getD .null).members

def version? (document : Json) : Option String :=
  match document.metadata.get? "resourceVersion" with
  | some (.string version) => some version
  | _ => none

def mapMetadata (f : Object → Object) : Json → Json
  | .object content =>
    match content.get? "metadata" with
    | some (.object metadata) =>
      .object (Object.insert "metadata" (.object (f metadata)) content)
    | _ => .object content
  | document => document

def isMarked (document : Json) : Bool :=
  match document.metadata.get? "deletionTimestamp" with
  | none | some .null => false
  | some _ => true

def hasNoFinalizers (document : Json) : Bool :=
  match document.metadata.get? "finalizers" with
  | some (.array items) => items.isEmpty
  | _ => true

/-- Whether a document is to be deleted and nothing holds it back. -/
def isReleased (document : Json) : Bool :=
  document.isMarked && document.hasNoFinalizers

def withVersion (version : String) : Json → Json :=
  mapMetadata fun metadata => metadata.insert "resourceVersion" (.string version)

/-- A document whose deletion is asked for, now unless it was before. -/
def mark (now : Timestamp) : Json → Json :=
  mapMetadata fun metadata =>
    if metadata.contains "deletionTimestamp" then metadata
    else metadata.insert "deletionTimestamp" (.string (Rfc3339.writeWithOffset now))

end Json

namespace Store

def count (verb : Verb) (store : Store) : Store :=
  { store with calls := store.calls.count verb }

/-- Refuses requests of the kinds that fail. -/
def allow (verb : Verb) (key : Key) (store : Store) : Except StoreError Unit :=
  if verb ∈ store.failing then .error (.injected verb key) else .ok ()

/-- The document under a key. -/
def stored (key : Key) (store : Store) : Except StoreError Json :=
  match store.objects.get? key with
  | some document => .ok document
  | none => .error (.notFound key)

/-- The document under a key, if it has the expected version. -/
def expect (key : Key) (expected : Option String) (store : Store) : Except StoreError Json := do
  let document ← store.stored key
  match expected with
  | none => return document
  | some version =>
    if document.version? = some version then return document
    throw (.conflict key version document.version?)

/-- Gives a document the next version and keeps it under a key, or drops what is there if the
document is released. -/
def commit (key : Key) (document : Json) (store : Store) : Json × Store :=
  let version := store.version + 1
  let document := document.withVersion (toString version)
  let objects :=
    if document.isReleased then store.objects.drop key else store.objects.put key document
  (document, { store with objects, version })

/-- Commits what a request makes of the stored document, and reads the result. -/
def write (verb : Verb) (key : Key) (expected : Option String) (change : Json → Json)
    (store : Store) : Except StoreError Resource × Store :=
  let store := store.count verb
  match store.allow verb key >>= fun _ => store.expect key expected with
  | .error error => (.error error, store)
  | .ok document =>
    let (document, store) := store.commit key (change document)
    ((Resource.ofJson document).mapError .codec, store)

def get (key : Key) (store : Store) : Except StoreError Resource × Store :=
  let store := store.count .get
  let answer := do
    store.allow .get key
    let document ← store.stored key
    (Resource.ofJson document).mapError .codec
  (answer, store)

def update (resource : Resource) (store : Store) : Except StoreError Resource × Store :=
  match resource.toJson with
  | .error error => (.error (.codec error), store)
  | .ok incoming =>
    store.write .update resource.key resource.metadata.version
      fun stored => incoming.setStatus stored.status?

def updateStatus (resource : Resource) (store : Store) : Except StoreError Resource × Store :=
  match resource.snapshot with
  | .error error => (.error (.codec error), store)
  | .ok incoming =>
    store.write .updateStatus resource.key resource.metadata.version
      fun stored => stored.setStatus incoming.status

/-- What a change of status makes of a stored document: if there is a status before and after, the
difference is merged into the stored one. -/
def patchedStatus (before after : Option Json) (stored : Json) : Json :=
  match before, after with
  | some old, some new =>
    stored.setStatus (some (Json.merge (stored.status?.getD .null) (Json.diff old new)))
  | _, _ => stored.setStatus after

/-- Merges the difference between two snapshots of a resource, the status apart, into the stored
document. -/
def patch (resource base : Resource) (store : Store) : Except StoreError Resource × Store :=
  match base.snapshot, resource.snapshot with
  | .error error, _ => (.error (.codec error), store)
  | _, .error error => (.error (.codec error), store)
  | .ok before, .ok after =>
    store.write .patch resource.key base.metadata.version
      fun stored => Json.merge stored (Json.diff before.main after.main)

/-- Merges the difference between the status of two snapshots of a resource into the stored
document. -/
def patchStatus (resource base : Resource) (store : Store) : Except StoreError Resource × Store :=
  match base.snapshot, resource.snapshot with
  | .error error, _ => (.error (.codec error), store)
  | _, .error error => (.error (.codec error), store)
  | .ok before, .ok after =>
    store.write .patchStatus resource.key base.metadata.version
      (patchedStatus before.status after.status)

/-- Puts a resource into the store, whatever is there. -/
def insert (resource : Resource) (store : Store) : Except StoreError Resource × Store :=
  match resource.toJson with
  | .error error => (.error (.codec error), store)
  | .ok document =>
    let (document, store) := store.commit resource.key document
    ((Resource.ofJson document).mapError .codec, store)

def delete (now : Timestamp) (key : Key) (store : Store) : Except StoreError Unit × Store :=
  match store.stored key with
  | .error error => (.error error, store)
  | .ok document => (.ok (), (store.commit key (document.mark now)).2)

/-- The resource under a key, if it can be read; this is not counted. -/
def peek (key : Key) (store : Store) : Option Resource :=
  (store.objects.get? key).bind fun document => (Resource.ofJson document).toOption

def contains (key : Key) (store : Store) : Bool :=
  (store.objects.get? key).isSome

def resetCalls (store : Store) : Store :=
  { store with calls := {} }

def failOn (verb : Verb) (store : Store) : Store :=
  if verb ∈ store.failing then store else { store with failing := verb :: store.failing }

def clearFailures (store : Store) : Store :=
  { store with failing := [] }

end Store

end Reconciliation
