import Reconciliation.Json.MergePatch
import Reconciliation.Resource.Codec

/-!
Snapshots of documents with the status split off, so that the status and everything else can be
compared and patched apart from each other.
-/
namespace Reconciliation

/-- A document without its status, and the status. -/
structure Snapshot where
  main : Json
  status : Option Json
deriving DecidableEq

namespace Snapshot

/-- Whether everything but the status agrees. -/
def MainAgree (a b : Snapshot) : Prop :=
  a.main.Agree b.main

def StatusAgree (a b : Snapshot) : Prop :=
  a.status.map Json.plain = b.status.map Json.plain

/-- Whether two snapshots agree. -/
def Agree (a b : Snapshot) : Prop :=
  a.MainAgree b ∧ a.StatusAgree b

instance MainAgree.decidable (a b : Snapshot) : Decidable (MainAgree a b) :=
  inferInstanceAs (Decidable (a.main.Agree b.main))

instance StatusAgree.decidable (a b : Snapshot) : Decidable (StatusAgree a b) :=
  inferInstanceAs (Decidable (a.status.map Json.plain = b.status.map Json.plain))

instance Agree.decidable (a b : Snapshot) : Decidable (Agree a b) :=
  inferInstanceAs (Decidable (a.MainAgree b ∧ a.StatusAgree b))

end Snapshot

namespace Json

/-- Puts a status into an object in place of the one there, or takes it out. Other documents have no
status. -/
def setStatus (status : Option Json) : Json → Json
  | .object content =>
    match status with
    | some status => .object (Object.insert Resource.statusKey status content)
    | none => .object (content.erase Resource.statusKey)
  | document => document

def status? (document : Json) : Option Json :=
  document.members.get? Resource.statusKey

/-- Splits the status off a document. -/
def snapshot (document : Json) : Snapshot where
  main := document.setStatus none
  status := document.status?

end Json

def Resource.snapshot (resource : Resource) : Except CodecError Snapshot :=
  resource.toJson.map Json.snapshot

/-- A resource with another status, read from a document. -/
def Resource.withStatus (status : Option Json) (resource : Resource) :
    Except CodecError Resource := do
  let document ← resource.toJson
  Resource.ofJson (document.setStatus status)

end Reconciliation
