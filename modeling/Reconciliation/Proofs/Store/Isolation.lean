import Reconciliation.Proofs.Store.Upkeep

/-!
What writes leave alone. The status of a resource and the rest of it are written apart from each
other, and no write reaches beyond the key of its resource. `Reachable.isolating` says so of all
writes, whatever their resource and their base look like.
-/
namespace Reconciliation

open Resource (statusKey)

/-- A request that writes everything but the status of a resource. -/
def Request.WritesMain : Request → Prop
  | .update _ | .patch .. => True
  | .get _ | .updateStatus _ | .patchStatus .. | .insert _ | .peek _ | .delete _ | .failOn _
  | .clearFailures => False

namespace Json

variable {document document' : Json}

theorem get?_setStatus (status : Option Json) (document : Json) {member : String}
    (hMember : member ≠ statusKey) :
    (document.setStatus status).members.get? member = document.members.get? member := by
  cases document with
  | object content =>
      cases status with
      | none => exact (Members.get?_erase _ _ _).trans (if_neg hMember)
      | some status => exact (Object.get?_insert _ _ _ _).trans (if_neg hMember)
  | _ => rfl

theorem get?_mapMetadata (f : Object → Object) (document : Json) {member : String}
    (hMember : member ≠ "metadata") :
    (document.mapMetadata f).members.get? member = document.members.get? member := by
  cases document with
  | object content =>
      rw [mapMetadata]
      split
      · exact (Object.get?_insert _ _ _ _).trans (if_neg hMember)
      · rfl
  | _ => rfl

/-- The last of two status is the one that counts. -/
theorem setStatus_setStatus (document : Json) (status status' : Option Json) :
    (document.setStatus status).setStatus status' = document.setStatus status' := by
  cases document with
  | object content =>
      cases status <;> cases status' <;>
        exact congrArg Json.object (Members.ext fun key => by
          simp only [Object.get?_insert, Members.get?_erase]; split <;> rfl)
  | _ => rfl

/-- Two documents that agree but for the status and the version. -/
structure SameBody (document document' : Json) : Prop where
  metadata : document.SameMetadata document'
  rest : ∀ member, member ≠ "metadata" → member ≠ statusKey →
    document'.members.get? member = document.members.get? member

theorem SameBody.refl (document : Json) : SameBody document document :=
  ⟨.refl _, fun _ _ _ => rfl⟩

theorem SameBody.trans {document'' : Json} (h : SameBody document document')
    (h' : SameBody document' document'') : SameBody document document'' :=
  ⟨h.metadata.trans h'.metadata, fun member hMetadata hStatus =>
    (h'.rest member hMetadata hStatus).trans (h.rest member hMetadata hStatus)⟩

theorem SameBody.setStatus (h : document.HasParts) (status : Option Json) :
    SameBody document (document.setStatus status) :=
  ⟨.of_eq (h.metadata_setStatus status), fun _ _ hStatus => get?_setStatus status document hStatus⟩

theorem SameBody.withVersion (h : document.HasParts) (version : String) :
    SameBody document (document.withVersion version) :=
  ⟨.withVersion h version, fun _ hMetadata _ => get?_mapMetadata _ document hMetadata⟩

end Json

/-- Whatever status a resource has, another one takes its place. -/
theorem Resource.setStatus_toObject (resource : Resource) (status : Option Status)
    (written : Option Json) :
    (Json.object { resource with status }.toObject).setStatus written =
      (Json.object resource.toObject).setStatus written := by
  have hBare : ∀ (content : Json.Object) (status : Option Json),
      (Json.object (content.insert? statusKey status)).setStatus written =
        (Json.object content).setStatus written := by
    intro content status
    cases status with
    | none => rfl
    | some status => exact Json.setStatus_setStatus (.object content) (some status) written
  exact (hBare _ _).trans (hBare _ _).symm

namespace Store

variable {store : Store} {now : Timestamp} {request : Request} {key : Key}
  {document document' draft : Json} {result : Resource}

/-- A request for all but the status commits the stored status. -/
theorem Drafts.exists_status?_eq (hSound : store.Sound) (hMain : request.WritesMain)
    (h : store.Drafts now request key draft) :
    ∃ stored, store.objects.get? key = some stored ∧ draft.status? = stored.status? := by
  cases h with
  | insert => cases hMain
  | delete => cases hMain
  | update hFinds => exact ⟨_, hFinds.get_eq, ((Resource.parts _).setStatus _).status⟩
  | updateStatus => cases hMain
  | @patch resource base stored hFinds =>
      obtain ⟨metadata, spec, status, hParts⟩ := (hSound.stored hFinds.get_eq).1
      obtain ⟨_, hMerged, -⟩ := hParts.merge_diff base.parts_main resource.parts_main
      exact ⟨stored, hFinds.get_eq, hMerged.status.trans hParts.status.symm⟩
  | patchStatus => cases hMain

/-- A request for the status commits all the rest as it is stored. -/
theorem Drafts.exists_sameBody (hSound : store.Sound) (hStatus : request.WritesStatus)
    (h : store.Drafts now request key draft) :
    ∃ stored, store.objects.get? key = some stored ∧ stored.SameBody draft := by
  cases h with
  | insert => cases hStatus
  | delete => cases hStatus
  | update => cases hStatus
  | updateStatus hFinds =>
      exact ⟨_, hFinds.get_eq, .setStatus (hSound.stored hFinds.get_eq).1 _⟩
  | patch => cases hStatus
  | patchStatus hFinds =>
      obtain ⟨status, hPatched⟩ := patchedStatus_eq _ _ _
      exact ⟨_, hFinds.get_eq, hPatched ▸ .setStatus (hSound.stored hFinds.get_eq).1 status⟩

/-- A request for all but the status changes no stored status. -/
theorem status?_serve (hSound : store.Sound) (hMain : request.WritesMain)
    (hBefore : store.objects.get? key = some document)
    (hAfter : (request.serve now store).2.objects.get? key = some document') :
    document'.status? = document.status? := by
  rcases get?_serve_cases hAfter with hSame | ⟨draft, hDraft, -, rfl⟩
  · cases hBefore.symm.trans hSame
    rfl
  · obtain ⟨stored, hStored, hStatus⟩ := hDraft.exists_status?_eq hSound hMain
    cases hBefore.symm.trans hStored
    exact ((hDraft.hasParts hSound).status?_withVersion _).trans hStatus

/-- A request for the status changes nothing else of what is stored. -/
theorem sameBody_serve (hSound : store.Sound) (hStatus : request.WritesStatus)
    (hBefore : store.objects.get? key = some document)
    (hAfter : (request.serve now store).2.objects.get? key = some document') :
    document.SameBody document' := by
  rcases get?_serve_cases hAfter with hSame | ⟨draft, hDraft, -, rfl⟩
  · cases hBefore.symm.trans hSame
    exact .refl _
  · obtain ⟨stored, hStored, hBody⟩ := hDraft.exists_sameBody hSound hStatus
    cases hBefore.symm.trans hStored
    exact hBody.trans (.withVersion (hDraft.hasParts hSound) _)

/-- A request changes nothing under any key but its own. -/
theorem get?_serve_of_written?_ne (hOther : request.written? ≠ some key) :
    (request.serve now store).2.objects.get? key = store.objects.get? key := by
  cases store.serves now request with
  | kept hObjects _ _ => rw [hObjects]
  | committed hDraft hObjects _ _ =>
      rw [hObjects, get?_commit, if_neg]
      rintro rfl
      exact hOther hDraft.written

/-- What a write is answered with is what has been stored, if anything is there afterwards. -/
theorem exists_read_of_given (hWritten : request.written? = some key)
    (hGiven : request.given? (request.serve now store).1 = some result)
    (hStays : (request.serve now store).2.contains key = true) :
    ∃ stored, (request.serve now store).2.objects.get? key = some stored ∧
      Resource.ofJson stored = .ok result := by
  cases store.serves now request with
  | kept _ _ hRead =>
      obtain ⟨_, _, hRequest, -⟩ := hRead result hGiven
      rcases hRequest with rfl | rfl <;> cases hWritten
  | committed hDraft hObjects _ hRead =>
      cases hWritten.symm.trans hDraft.written
      rw [contains, hObjects] at hStays
      exact ⟨_, hObjects ▸ get?_of_commit_of_contains hStays, hRead result hGiven⟩

/-- An update does not depend on the status of its resource. -/
theorem update_withStatus (resource : Resource) (status : Option Status) (store : Store) :
    store.update { resource with status } = store.update resource := by
  unfold update Resource.toJson
  cases resource.unwritable with
  | some text => rfl
  | none =>
      exact congrArg (store.write .update resource.key resource.metadata.version)
        (funext fun stored => resource.setStatus_toObject status stored.status?)

/-- A patch does not depend on the status of its resource and of its base. -/
theorem patch_withStatus (resource base : Resource) (status status' : Option Status)
    (store : Store) :
    store.patch { resource with status } { base with status := status' } =
      store.patch resource base := by
  unfold patch Resource.snapshot Resource.toJson
  cases base.unwritable with
  | some text => rfl
  | none =>
      cases resource.unwritable with
      | some text => rfl
      | none =>
          refine congrArg (store.write .patch resource.key base.metadata.version)
            (funext fun stored => congrArg (Json.merge stored) ?_)
          exact congrArg₂ Json.diff (base.setStatus_toObject status' none)
            (resource.setStatus_toObject status none)

/-- What the writes to a store leave alone. -/
structure Isolating (store : Store) : Prop where
  /-- A write of everything but the status leaves the status alone. -/
  status : ∀ {now key document document'} {request : Request}, request.WritesMain →
    store.objects.get? key = some document →
    (request.serve now store).2.objects.get? key = some document' →
    document'.status? = document.status?
  /-- What status is sent along with such a write makes no difference. -/
  updates : ∀ (resource : Resource) (status : Option Status),
    store.update { resource with status } = store.update resource
  patches : ∀ (resource base : Resource) (status status' : Option Status),
    store.patch { resource with status } { base with status := status' } =
      store.patch resource base
  /-- A write of the status leaves everything else alone, the version apart. -/
  body : ∀ {now key document document'} {request : Request}, request.WritesStatus →
    store.objects.get? key = some document →
    (request.serve now store).2.objects.get? key = some document' → document.SameBody document'
  elsewhere : ∀ {now key} {request : Request}, request.written? ≠ some key →
    (request.serve now store).2.objects.get? key = store.objects.get? key
  /-- A write is answered with what can be fetched afterwards. -/
  answer : ∀ {now key result} {request : Request}, request.written? = some key →
    request.given? (request.serve now store).1 = some result →
    (request.serve now store).2.contains key = true →
    (request.serve now store).2.peek key = some result ∧
      (.get ∉ (request.serve now store).2.failing →
        ((request.serve now store).2.get key).1 = .ok result)

/-- Whatever is asked of a store that began empty, its writes leave alone what is not theirs. -/
theorem Reachable.isolating (h : store.Reachable) : store.Isolating where
  status hMain := status?_serve h.sound hMain
  updates resource status := update_withStatus resource status store
  patches resource base status status' := patch_withStatus resource base status status' store
  body hStatus := sameBody_serve h.sound hStatus
  elsewhere := get?_serve_of_written?_ne
  answer hWritten hGiven hStays := by
    obtain ⟨stored, hStored, hRead⟩ := exists_read_of_given hWritten hGiven hStays
    exact ⟨peek_eq_some hStored hRead, fun hAllowed =>
      congrArg Prod.fst (get_eq_ok hAllowed hStored hRead)⟩

/-- A resource with a status keeps it when it is updated by one without. -/
theorem isolating_of_updatedTenant :
    ∃ store, Reachable store ∧ store.contains tenant.key = true ∧ store.version = 2 ∧
      (store.peek tenant.key).map Resource.status = some (some {}) ∧ Isolating store := by
  have hStore := (Reachable.empty.serve default (.insert { tenant with status := some {} })).serve
    default (.update tenant)
  exact ⟨_, hStore, rfl, rfl, rfl, hStore.isolating⟩

end Store

end Reconciliation
