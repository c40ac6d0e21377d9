import Reconciliation.Resource.Codec

namespace Reconciliation

/-- The kinds of requests that are counted and can be made to fail. -/
inductive Verb where
  | get
  | update
  | updateStatus
  | patch
  | patchStatus
deriving DecidableEq, Repr

def Verb.word : Verb → String
  | .get => "Get"
  | .update => "Update"
  | .updateStatus => "UpdateStatus"
  | .patch => "Patch"
  | .patchStatus => "PatchStatus"

/-- Why the store refuses a request. -/
inductive StoreError where
  | notFound (key : Key)
  /-- The stored state is not the one the request was made for. -/
  | conflict (key : Key) (expected : String) (found : Option String)
  | codec (error : CodecError)
  /-- Requests of this kind have been made to fail. -/
  | injected (verb : Verb) (key : Key)
deriving DecidableEq

namespace StoreError

def message : StoreError → String
  | .notFound key => s!"Object not found: {key.text}"
  | .conflict key expected found =>
    let found := found.getD ""
    s!"Conflict while writing {key.text}: the object has been modified " ++
      s!"(expected version {expected}, found {found})"
  | .codec error => s!"Failed to (de)serialize object. Source: {error.message}"
  | .injected verb key =>
    s!"Resource store error. Source: injected {verb.word} failure for {key.text}"

def isNotFound : StoreError → Bool
  | .notFound _ => true
  | _ => false

/-- Whether someone else has written in between. -/
def isConflict : StoreError → Bool
  | .conflict .. => true
  | _ => false

end StoreError

end Reconciliation
