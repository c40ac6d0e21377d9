import Reconciliation.Proofs.Resource.Legible
import Reconciliation.Proofs.Store.Versions

/-!
What becomes of a store when a write fails. A write that is refused leaves the store as it is. A
write that cannot read what it has committed fails as well, and what it has committed stays.
`Logged.failsOpenly` says that the error tells the two apart, and that the second one does not happen
where all resources that are written can be read, unless a patch takes the specification out.
-/
namespace Reconciliation

def Request.fault? : (request : Request) → request.Answer → Option StoreError
  | .get _, answer | .update _, answer | .updateStatus _, answer | .patch .., answer
  | .patchStatus .., answer | .insert _, answer => answer.error?
  | .delete _, answer => answer.error?
  | .peek _, _ | .failOn _, _ | .clearFailures, _ => none

/-- A request that writes what can be read again, if all that it finds can be read. -/
def Request.Legible (now : Timestamp) : Request → Prop
  | .insert resource | .update resource | .updateStatus resource | .patchStatus resource _ =>
    (Json.object resource.toObject).Legible
  | .patch resource base => (Json.object resource.toObject).Legible ∧ ¬resource.DropsSpec base
  | .delete _ => Rfc3339.secondsRange.1 ≤ now.seconds ∧ now.seconds ≤ Rfc3339.secondsRange.2
  | .get _ | .peek _ | .failOn _ | .clearFailures => True

namespace Store

variable {store store' : Store} {now : Timestamp} {request : Request} {key : Key} {draft : Json}
  {error : StoreError}

/-- How a request fails: it is refused and leaves everything but the calls as it was, or it cannot
read what it has committed. -/
inductive Fails (store : Store) (now : Timestamp) (request : Request) (error : StoreError)
    (store' : Store) : Prop where
  | refused (hError : ∀ cause, error ≠ .codec (.unreadable cause))
    (hStore : store' = { store with calls := store'.calls })
  | unread {key : Key} {draft : Json} {cause : ReadError}
    (hDraft : store.Drafts now request key draft)
    (hRead : Resource.ofJson (draft.withVersion (toString (store.version + 1))) =
      .error (.unreadable cause))
    (hError : error = .codec (.unreadable cause))
    (objects : store'.objects = (store.commit key draft).2.objects)
    (version : store'.version = store.version + 1)

/-- A refusal is not a failure to read what was committed. -/
theorem Refuses.ne_unreadable {verb : Verb} {expected : Option String}
    (h : store.Refuses verb key expected error) (cause : ReadError) :
    error ≠ .codec (.unreadable cause) := by
  rintro rfl
  cases h

theorem fails_of_unwritable {text : String} :
    store.Fails now request (.codec (.unwritable text)) store := by
  refine .refused (fun cause hError => ?_) rfl
  cases hError

theorem fails_of_mapError {calls : Calls} (hDraft : store.Drafts now request key draft)
    (h : (Resource.ofJson (draft.withVersion (toString (store.version + 1)))).mapError .codec =
      .error error) :
    store.Fails now request error (({ store with calls } : Store).commit key draft).2 := by
  obtain ⟨_, hRead, rfl⟩ := Except.mapError_eq_error_iff.1 h
  obtain ⟨cause, rfl⟩ := Resource.exists_unreadable_of_ofJson hRead
  exact .unread hDraft hRead rfl rfl rfl

/-- A write that is answered with an error fails in one of the two ways. -/
theorem Writes.fails {outcome : Except StoreError Resource × Store}
    (h : store.Writes now request outcome) (hFault : outcome.1 = .error error) :
    store.Fails now request error outcome.2 := by
  cases h with
  | unwritable text =>
      cases hFault
      exact fails_of_unwritable
  | @write verb key expected change hDraft =>
      rcases write_cases verb key expected change store with
        ⟨_, hRefuses, hWrite⟩ | ⟨stored, hGet, hVersion, hWrite⟩
      · rw [hWrite] at hFault ⊢
        cases hFault
        exact .refused hRefuses.ne_unreadable rfl
      · rw [hWrite] at hFault ⊢
        exact fails_of_mapError (hDraft stored ⟨hGet, hVersion⟩) hFault

/-- Every request that may write fails in one of the two ways, if it fails. -/
theorem fails (hWritten : request.written? = some key)
    (hFault : request.fault? (request.serve now store).1 = some error) :
    store.Fails now request error (request.serve now store).2 := by
  cases request with
  | get | peek | failOn | clearFailures => cases hWritten
  | update resource =>
      exact (writes_update resource store now).fails (Except.error?_eq_some_iff.1 hFault)
  | updateStatus resource =>
      exact (writes_updateStatus resource store now).fails (Except.error?_eq_some_iff.1 hFault)
  | patch resource base =>
      exact (writes_patch resource base store now).fails (Except.error?_eq_some_iff.1 hFault)
  | patchStatus resource base =>
      exact (writes_patchStatus resource base store now).fails (Except.error?_eq_some_iff.1 hFault)
  | insert resource =>
      replace hFault : (store.insert resource).1 = .error error := Except.error?_eq_some_iff.1 hFault
      show store.Fails now _ error (store.insert resource).2
      unfold insert at hFault ⊢
      split at hFault
      · rename_i hJson
        obtain ⟨text, rfl⟩ := Resource.exists_unwritable_of_toJson hJson
        cases hFault
        exact fails_of_unwritable
      · rename_i hJson
        obtain ⟨-, rfl⟩ := Resource.toJson_eq_ok_iff.1 hJson
        exact fails_of_mapError .insert hFault
  | delete key =>
      replace hFault : (store.delete now key).1 = .error error := Except.error?_eq_some_iff.1 hFault
      show store.Fails now _ error (store.delete now key).2
      unfold delete at hFault ⊢
      cases hGet : store.objects.get? key with
      | none =>
          have hStored : store.stored key = .error (.notFound key) := by rw [stored, hGet]
          rw [hStored] at hFault ⊢
          cases hFault
          refine .refused (fun cause hError => ?_) rfl
          cases hError
      | some document =>
          rw [stored_eq_ok_iff.2 hGet] at hFault
          cases hFault

/-- What a request leaves of a store that does nothing to it but count. -/
structure Unharmed (store store' : Store) : Prop where
  kept : store' = { store with calls := store'.calls }
  readable : ∀ {key resource}, (store.get key).1 = .ok resource → (store'.get key).1 = .ok resource

theorem unharmed_of_kept (h : store' = { store with calls := store'.calls }) :
    Unharmed store store' := by
  refine ⟨h, fun hGet => ?_⟩
  rw [h]
  exact hGet

/-- A failed request has done harm if and only if it could not read what it had committed. -/
theorem Fails.unharmed_iff (h : store.Fails now request error store') :
    Unharmed store store' ↔ ∀ cause, error ≠ .codec (.unreadable cause) := by
  cases h with
  | refused hError hStore => exact ⟨fun _ => hError, fun _ => unharmed_of_kept hStore⟩
  | unread _ _ hError _ hVersion =>
      refine ⟨fun hUnharmed => ?_, fun hNone => absurd hError (hNone _)⟩
      have hSame : store'.version = store.version :=
        (congrArg Store.version hUnharmed.kept).trans rfl
      omega

/-- Whether every document can be read. -/
def Legible (store : Store) : Prop :=
  ∀ {key document}, store.objects.get? key = some document → document.Legible

/-- What a legible request commits to a legible store can be read. -/
theorem Drafts.legible (hSound : store.Sound) (hLegible : store.Legible)
    (hRequest : request.Legible now) (h : store.Drafts now request key draft) : draft.Legible := by
  have hFound : ∀ {key document}, store.objects.get? key = some document →
      document.Legible ∧ document.HasParts := fun hGet => ⟨hLegible hGet, (hSound.stored hGet).1⟩
  cases h with
  | insert => exact hRequest
  | delete hGet =>
      obtain ⟨hStored, hParts⟩ := hFound hGet
      exact hStored.mark hParts hRequest
  | @update resource _ hFinds =>
      obtain ⟨hStored, hParts⟩ := hFound hFinds.get_eq
      exact Json.Legible.setStatus hRequest resource.hasParts (hStored.legible_status hParts)
  | @updateStatus resource _ hFinds =>
      obtain ⟨hStored, hParts⟩ := hFound hFinds.get_eq
      exact hStored.setStatus hParts (resource.parts.legible_iff.1 hRequest).2.2
  | @patch resource _ _ hFinds =>
      obtain ⟨hStored, hParts⟩ := hFound hFinds.get_eq
      have hSound := Metadata.legible_toObject_iff.1 (resource.parts.legible_iff.1 hRequest.1).1
      exact (hStored.merge_iff hParts hSound).2 hRequest.2
  | @patchStatus resource base _ hFinds =>
      obtain ⟨hStored, hParts⟩ := hFound hFinds.get_eq
      exact hStored.patchedStatus hParts base.status (resource.parts.legible_iff.1 hRequest).2.2

theorem Drafts.legible_withVersion (hSound : store.Sound) (hLegible : store.Legible)
    (hRequest : request.Legible now) (h : store.Drafts now request key draft) (version : String) :
    (draft.withVersion version).Legible :=
  (h.legible hSound hLegible hRequest).withVersion (h.hasParts hSound) version

/-- A store stays legible. -/
theorem Legible.serve (h : store.Legible) (hSound : store.Sound) (hRequest : request.Legible now) :
    (request.serve now store).2.Legible := by
  intro key document hGet
  rcases get?_serve_cases hGet with hOld | ⟨draft, hDraft, -, rfl⟩
  · exact h hOld
  · exact hDraft.legible_withVersion hSound h hRequest _

/-- In a legible store a failed request has done nothing. -/
theorem Fails.unharmed_of_legible (h : store.Fails now request error store') (hSound : store.Sound)
    (hLegible : store.Legible) (hRequest : request.Legible now) : Unharmed store store' := by
  cases h with
  | refused _ hStore => exact unharmed_of_kept hStore
  | unread hDraft hRead _ _ _ =>
      obtain ⟨resource, hLegibleDraft⟩ := hDraft.legible_withVersion hSound hLegible hRequest _
      cases hLegibleDraft.symm.trans hRead

/-- What cannot be read after it was committed stands under its key, unless it is gone. -/
theorem Fails.harm (h : store.Fails now request error store') (hWritten : request.written? = some key)
    {cause : ReadError} (hError : error = .codec (.unreadable cause)) :
    store'.version = store.version + 1 ∧ store'.peek key = none ∧
      ∀ key' ≠ key, store'.objects.get? key' = store.objects.get? key' := by
  cases h with
  | refused hNone _ => exact absurd hError (hNone cause)
  | unread hDraft hRead _ hObjects hVersion =>
      cases hWritten.symm.trans hDraft.written
      refine ⟨hVersion, ?_, fun key' hKey => ?_⟩
      · rw [peek, hObjects, get?_commit, if_pos rfl]
        split
        · rfl
        · show (Resource.ofJson _).toOption = none
          rw [hRead]
          rfl
      · rw [hObjects, get?_commit, if_neg hKey]

/-- A write that is not refused is answered with what it has committed, or it cannot read that. -/
theorem write_cases_of_finds {verb : Verb} {expected : Option String} {stored : Json}
    {change : Json → Json} {outcome : Except StoreError Resource × Store}
    (hWrite : outcome = store.write verb key expected change)
    (hFinds : store.Finds key expected stored) (hAllowed : verb ∉ store.failing) :
    (∃ result, Resource.ofJson ((change stored).withVersion (toString (store.version + 1))) =
        .ok result ∧ outcome.1 = .ok result) ∨
    ¬((change stored).withVersion (toString (store.version + 1))).Legible ∧
      ∃ cause, outcome.1 = .error (.codec (.unreadable cause)) := by
  rw [hWrite, write_of_finds change hFinds hAllowed]
  cases hRead : Resource.ofJson ((change stored).withVersion (toString (store.version + 1))) with
  | ok result => exact .inl ⟨result, rfl, rfl⟩
  | error error =>
      obtain ⟨cause, rfl⟩ := Resource.exists_unreadable_of_ofJson hRead
      refine .inr ⟨?_, cause, rfl⟩
      rintro ⟨result, hResult⟩
      cases hRead.symm.trans hResult

section

variable {resource base : Resource} {stored : Json}

/-- A patch that takes the specification out and is not refused cannot read what it has committed.
-/
theorem exists_unreadable_of_dropsSpec (hSound : store.Sound) (hDrops : resource.DropsSpec base)
    (hFinds : store.Finds resource.key base.metadata.version stored)
    (hAllowed : .patch ∉ store.failing) (hBase : base.unwritable = none)
    (hResource : resource.unwritable = none) :
    ∃ cause, (store.patch resource base).1 = .error (.codec (.unreadable cause)) := by
  rcases write_cases_of_finds (patch_eq_write hBase hResource store) hFinds hAllowed with
    ⟨result, hResult, -⟩ | ⟨-, hUnread⟩
  · obtain ⟨_, _, _, hParts⟩ := (hSound.stored hFinds.get_eq).1
    obtain ⟨spec, hMerged, -⟩ := hParts.merge_diff base.parts_main resource.parts_main
    obtain ⟨-, ⟨value, hSpec⟩, -⟩ := (hMerged.withVersion _).legible_iff.1 ⟨result, hResult⟩
    cases (hMerged.spec_eq_none_of_dropsSpec hDrops).symm.trans hSpec
  · exact hUnread

/-- A patch of what is stored that is not refused succeeds, unless it takes the specification out or
leads to metadata that cannot be read. -/
theorem patch_cases_of_finds (hSound : store.Sound) (hRead : Resource.ofJson stored = .ok base)
    (hFinds : store.Finds resource.key base.metadata.version stored)
    (hAllowed : .patch ∉ store.failing) (hBase : base.unwritable = none)
    (hResource : resource.unwritable = none) :
    (¬resource.DropsSpec base ∧ resource.metadata.Sound ∧
      ∃ result, (store.patch resource base).1 = .ok result) ∨
    (resource.DropsSpec base ∨ ¬resource.metadata.Sound) ∧
      ∃ cause, (store.patch resource base).1 = .error (.codec (.unreadable cause)) := by
  by_cases hDrops : resource.DropsSpec base
  · exact .inr ⟨.inl hDrops, exists_unreadable_of_dropsSpec hSound hDrops hFinds hAllowed hBase
      hResource⟩
  have hHasParts := (hSound.stored hFinds.get_eq).1
  rcases write_cases_of_finds (patch_eq_write hBase hResource store) hFinds hAllowed with
    ⟨result, hResult, hOk⟩ | ⟨hUnreadable, hUnread⟩
  · obtain ⟨_, _, _, hParts⟩ := hHasParts
    obtain ⟨⟨_, _, -, hFrom⟩, hMetadata, -⟩ :=
      Resource.of_patched_main hParts ((Resource.ofJson_eq_ok_iff hParts).1 hRead) hResult
    have hNew : result.metadata.Sound := hFrom.metadata.sound
    rw [hMetadata] at hNew
    exact .inl ⟨hDrops, hNew, result, hOk⟩
  · refine .inr ⟨.inr fun hNew => hUnreadable ?_, hUnread⟩
    have hMerged := (Json.Legible.merge_iff ⟨base, hRead⟩ hHasParts hNew).2 hDrops
    exact hMerged.withVersion (hasParts_merge hHasParts base resource) _

/-- A patch of a status that is not refused succeeds if what comes of the status can be read. -/
theorem patchStatus_cases_of_finds (hSound : store.Sound) (hStored : stored.Legible)
    (hFinds : store.Finds resource.key base.metadata.version stored)
    (hAllowed : .patchStatus ∉ store.failing) (hBase : base.unwritable = none)
    (hResource : resource.unwritable = none) :
    (Status.Legible (patchedStatus (base.status.map Status.toJson)
        (resource.status.map Status.toJson) stored).status? ∧
      ∃ result, (store.patchStatus resource base).1 = .ok result) ∨
    ¬Status.Legible (patchedStatus (base.status.map Status.toJson)
        (resource.status.map Status.toJson) stored).status? ∧
      ∃ cause, (store.patchStatus resource base).1 = .error (.codec (.unreadable cause)) := by
  have hHasParts := (hSound.stored hFinds.get_eq).1
  obtain ⟨_, _, _, hParts⟩ := id hHasParts
  obtain ⟨status, hPatched⟩ := patchedStatus_eq (base.status.map Status.toJson)
    (resource.status.map Status.toJson) stored
  rw [hPatched, (hParts.setStatus status).status]
  rcases write_cases_of_finds (patchStatus_eq_write hBase hResource store) hFinds hAllowed with
    ⟨result, hResult, hOk⟩ | ⟨hUnreadable, hUnread⟩
  · rw [hPatched] at hResult
    obtain ⟨-, -, hNew⟩ := ((hParts.setStatus status).withVersion _).legible_iff.1 ⟨result, hResult⟩
    exact .inl ⟨hNew, result, hOk⟩
  · rw [hPatched] at hUnreadable
    refine .inr ⟨fun hNew => hUnreadable ?_, hUnread⟩
    exact (hStored.setStatus hHasParts hNew).withVersion (hHasParts.setStatus status) _

end

/-- Where nothing was written that cannot be read again, all that is stored can be read. -/
theorem Logged.legible {log : List Entry} (h : Logged log store)
    (hLog : ∀ entry ∈ log, entry.request.Legible entry.now) : store.Legible := by
  induction h with
  | empty =>
      intro _ _ hGet
      cases hGet
  | serve prior now request ih =>
      refine Legible.serve (ih fun entry hEntry => hLog entry (List.mem_append_left _ hEntry))
        prior.reachable.sound (hLog _ (List.mem_append_right _ (List.mem_singleton_self _)))
  | resetCalls _ ih => exact ih hLog

/-- How the next write to a store fails, after the requests in a log. -/
structure FailsOpenly (log : List Entry) (store : Store) : Prop where
  /-- A write that fails leaves the store unharmed, unless it says that something cannot be read. -/
  unharmed_iff : ∀ {now key error} {request : Request}, request.written? = some key →
    request.fault? (request.serve now store).1 = some error →
    (Unharmed store (request.serve now store).2 ↔ ∀ cause, error ≠ .codec (.unreadable cause))
  /-- If it says so, then what it was to write is gone or cannot be read, under its key alone. -/
  harm : ∀ {now key cause} {request : Request}, request.written? = some key →
    request.fault? (request.serve now store).1 = some (.codec (.unreadable cause)) →
    (request.serve now store).2.version = store.version + 1 ∧
      (request.serve now store).2.peek key = none ∧
      ∀ key' ≠ key, (request.serve now store).2.objects.get? key' = store.objects.get? key'
  /-- It does not come to that if nothing was and is to be written that cannot be read again. -/
  legible : (∀ entry ∈ log, entry.request.Legible entry.now) →
    ∀ {now key error} {request : Request}, request.Legible now → request.written? = some key →
    request.fault? (request.serve now store).1 = some error →
    Unharmed store (request.serve now store).2
  /-- It comes to that whenever a patch that takes the specification out is not refused. -/
  drops : ∀ {resource base : Resource} {stored}, resource.DropsSpec base →
    store.Finds resource.key base.metadata.version stored → .patch ∉ store.failing →
    base.unwritable = none → resource.unwritable = none →
    ∃ cause, (store.patch resource base).1 = .error (.codec (.unreadable cause))

/-- Whatever was asked of a store that began empty, it fails openly. -/
theorem Logged.failsOpenly {log : List Entry} (h : Logged log store) : FailsOpenly log store where
  unharmed_iff hWritten hFault := (fails hWritten hFault).unharmed_iff
  harm hWritten hFault := (fails hWritten hFault).harm hWritten rfl
  legible hLog _ _ _ _ hRequest hWritten hFault :=
    (fails hWritten hFault).unharmed_of_legible h.reachable.sound (h.legible hLog) hRequest
  drops hDrops hFinds hAllowed hBase hResource :=
    exists_unreadable_of_dropsSpec h.reachable.sound hDrops hFinds hAllowed hBase hResource

def plot : Resource :=
  { metadata := { name := "a" }, spec := .object .nil }

/-- A patch that sets the specification to null fails, but not before the store has lost it. -/
theorem not_unharmed_of_clearedPlot :
    ∃ store, Reachable store ∧
      (store.get plot.key).1 =
        .ok { plot with metadata := { plot.metadata with version := some "1" } } ∧
      (store.patch { plot with spec := .null } plot).1 =
        .error (.codec (.unreadable (.missing "spec"))) ∧
      (store.patch { plot with spec := .null } plot).2.version = store.version + 1 ∧
      ((store.patch { plot with spec := .null } plot).2.get plot.key).1 =
        .error (.codec (.unreadable (.missing "spec"))) ∧
      ¬Unharmed store (store.patch { plot with spec := .null } plot).2 := by
  have hStore := Reachable.empty.serve default (.insert plot)
  refine ⟨_, hStore, rfl, rfl, rfl, rfl, fun hUnharmed => ?_⟩
  have hReadable := @Unharmed.readable _ _ hUnharmed plot.key _ rfl
  cases hReadable

/-- A store that was spoiled by such a patch still fails openly. -/
theorem failsOpenly_of_clearedPlot :
    ∃ log store, Logged log store ∧ store.version = 2 ∧ store.contains plot.key = true ∧
      store.peek plot.key = none ∧ FailsOpenly log store := by
  have hLog := (Logged.empty.serve default (.insert plot)).serve default
    (.patch { plot with spec := .null } plot)
  exact ⟨_, _, hLog, rfl, rfl, rfl, hLog.failsOpenly⟩

end Store

end Reconciliation
