import Reconciliation.Proofs.Store.Isolation
import Reconciliation.Proofs.Store.Showing

namespace Reconciliation

namespace Store

variable {store store' : Store} {now : Timestamp} {request : Request} {key : Key}
  {result : Resource}

/-- What is stored under a key has got another status, and nothing else but a version. -/
structure Restates (store : Store) (key : Key) (status : Option Json) (old new : Json)
    (store' : Store) : Prop where
  stored : store.objects.get? key = some old
  written : store'.objects.get? key = some new
  sameBody : old.SameBody new
  status_eq : new.status? = status

/-- A write that changes nothing but the status is refused and does nothing, or what is stored gets
the new status. Whether that can be read makes no difference. -/
theorem Reachable.write_status_cases (hStore : store.Reachable) (verb : Verb) (key : Key)
    (expected : Option String) (change : Json → Json)
    (hChange : ∀ stored, ∃ status, change stored = stored.setStatus status) :
    (∃ error, (store.write verb key expected change).1 = .error error ∧
      (∀ cause, error ≠ .codec (.unreadable cause)) ∧
      store.Unharmed (store.write verb key expected change).2) ∨
    ∃ old new, store.Restates key (change old).status? old new
        (store.write verb key expected change).2 ∧
      new = (change old).withVersion (toString (store.version + 1)) ∧
      (store.write verb key expected change).1 = (Resource.ofJson new).mapError .codec := by
  rcases write_cases verb key expected change store with
    ⟨error, hRefuses, hWrite⟩ | ⟨old, hGet, -, hWrite⟩
  · rw [hWrite]
    exact .inl ⟨error, rfl, hRefuses.ne_unreadable, unharmed_of_kept rfl⟩
  · rw [hWrite]
    obtain ⟨status, hStatus⟩ := hChange old
    have hParts := (hStore.sound.stored hGet).1
    have hBody : old.SameBody ((change old).withVersion (toString (store.version + 1))) :=
      hStatus ▸ (Json.SameBody.setStatus hParts _).trans (.withVersion (hParts.setStatus _) _)
    have hHeld : ((change old).withVersion (toString (store.version + 1))).isReleased ≠ true := by
      rw [hBody.metadata.isReleased, hStore.isReleased_of_get? hGet]
      exact Bool.false_ne_true
    exact .inr ⟨old, _, ⟨hGet, (get?_commit _ _ _ _).trans ((if_pos rfl).trans (if_neg hHeld)), hBody,
      Json.HasParts.status?_withVersion (hStatus ▸ hParts.setStatus _) _⟩, rfl, rfl⟩

/-- A write of the whole status is refused, or restates the stored document. -/
theorem updateStatus_cases (hStore : store.Reachable) (resource : Resource) :
    (∃ error, (store.updateStatus resource).1 = .error error ∧
      (∀ cause, error ≠ .codec (.unreadable cause)) ∧
      store.Unharmed (store.updateStatus resource).2) ∨
    ∃ old new, store.Restates resource.key (resource.status.map Status.toJson) old new
        (store.updateStatus resource).2 ∧
      (store.updateStatus resource).1 = (Resource.ofJson new).mapError .codec := by
  unfold updateStatus
  split
  · rename_i hSnapshot
    obtain ⟨text, rfl⟩ := Resource.exists_unwritable_of_snapshot hSnapshot
    exact .inl ⟨_, rfl, fun cause hError => (nomatch hError), unharmed_of_kept rfl⟩
  · rename_i hSnapshot
    obtain ⟨-, rfl⟩ := Resource.snapshot_eq_ok_iff.1 hSnapshot
    rw [Resource.status_snapshot]
    rcases hStore.write_status_cases .updateStatus resource.key resource.metadata.version
        (fun stored => stored.setStatus (resource.status.map Status.toJson))
        (fun stored => ⟨_, rfl⟩) with hRefused | ⟨old, new, hRestates, -, hAnswer⟩
    · exact .inl hRefused
    · obtain ⟨metadata, spec, status, hParts⟩ := (hStore.sound.stored hRestates.stored).1
      exact .inr ⟨old, new, { hRestates with
        status_eq := hRestates.status_eq.trans (hParts.setStatus _).status }, hAnswer⟩

/-- So is or does a patch of the status. -/
theorem patchStatus_cases (hStore : store.Reachable) (resource base : Resource) :
    (∃ error, (store.patchStatus resource base).1 = .error error ∧
      (∀ cause, error ≠ .codec (.unreadable cause)) ∧
      store.Unharmed (store.patchStatus resource base).2) ∨
    ∃ old new, store.Restates resource.key (patchedStatus (base.status.map Status.toJson)
        (resource.status.map Status.toJson) old).status? old new
        (store.patchStatus resource base).2 ∧
      new = (patchedStatus (base.status.map Status.toJson) (resource.status.map Status.toJson)
        old).withVersion (toString (store.version + 1)) ∧
      (store.patchStatus resource base).1 = (Resource.ofJson new).mapError .codec := by
  unfold patchStatus
  split
  · rename_i hSnapshot
    obtain ⟨text, rfl⟩ := Resource.exists_unwritable_of_snapshot hSnapshot
    exact .inl ⟨_, rfl, fun cause hError => (nomatch hError), unharmed_of_kept rfl⟩
  · rename_i hSnapshot _
    obtain ⟨text, rfl⟩ := Resource.exists_unwritable_of_snapshot hSnapshot
    exact .inl ⟨_, rfl, fun cause hError => (nomatch hError), unharmed_of_kept rfl⟩
  · rename_i hBefore hAfter
    obtain ⟨-, rfl⟩ := Resource.snapshot_eq_ok_iff.1 hBefore
    obtain ⟨-, rfl⟩ := Resource.snapshot_eq_ok_iff.1 hAfter
    rw [Resource.status_snapshot, Resource.status_snapshot]
    exact hStore.write_status_cases .patchStatus resource.key base.metadata.version _
      (patchedStatus_eq _ _)

/-- If there is anything under a key, it can be read. -/
def ReadableAt (store : Store) (key : Key) : Prop :=
  store.contains key = true → ∃ found, store.peek key = some found

/-- What a request is answered with can be read under its key, unless there is nothing. -/
theorem Reachable.readableAt_of_given (hStore : store.Reachable) (now : Timestamp)
    (request : Request) {answer : request.Answer} (hKey : request.key? = some key)
    (hServe : request.serve now store = (answer, store'))
    (hGiven : request.given? answer = some result) : store'.ReadableAt result.key := by
  obtain ⟨rfl, rfl⟩ := Prod.mk.inj hServe
  rw [(hStore.current_of_given hKey hGiven).1]
  intro hContains
  cases store.serves now request with
  | kept hObjects _ hSource =>
      obtain ⟨source, document, hRequest, hStored, hRead⟩ := hSource result hGiven
      obtain rfl : source = key :=
        Option.some.inj ((Request.key?_of_reads hRequest).symm.trans hKey)
      exact ⟨result, peek_eq_some (hObjects ▸ hStored) hRead⟩
  | committed hDraft =>
      obtain rfl := Option.some.inj (hDraft.key?_eq.symm.trans hKey)
      obtain ⟨stored, hStored, hRead⟩ := exists_read_of_given hDraft.written hGiven hContains
      exact ⟨result, peek_eq_some hStored hRead⟩

end Store

end Reconciliation
