import Reconciliation.Proofs.Resource.Documents
import Reconciliation.Store.Program

/-!
What a request does to a store: it leaves the documents alone, or commits one document. `Sound`
stores have metadata and a version that was handed out in each of their documents, and requests keep
them so. `Later` compares two states of a store: a document is newer than the first state or was
there already.
-/
namespace Reconciliation

/-- Versions are told apart by their texts. -/
theorem toString_injective {m n : Nat} (h : toString m = toString n) : m = n := by
  have hDigits : Nat.toDigits 10 m = Nat.toDigits 10 n :=
    String.ofList_injective h
  rw [← @Nat.ofDigitChars_ten_toDigits m, hDigits, Nat.ofDigitChars_ten_toDigits]

namespace Store

theorem stored_eq_ok_iff {store : Store} {key : Key} {document : Json} :
    store.stored key = .ok document ↔ store.objects.get? key = some document := by
  unfold stored
  cases store.objects.get? key <;> simp

/-- Why a write is refused. -/
inductive Refuses (store : Store) (verb : Verb) (key : Key) (expected : Option String) :
    StoreError → Prop where
  | injected (h : verb ∈ store.failing) : Refuses store verb key expected (.injected verb key)
  | gone (h : store.objects.get? key = none) : Refuses store verb key expected (.notFound key)
  | stale {document : Json} {version : String} (h : store.objects.get? key = some document)
    (hExpected : expected = some version) (hVersion : document.version? ≠ some version) :
    Refuses store verb key expected (.conflict key version document.version?)

/-- A write is refused, or it commits what it makes of the stored document. -/
theorem write_cases (verb : Verb) (key : Key) (expected : Option String) (change : Json → Json)
    (store : Store) :
    (∃ error, store.Refuses verb key expected error ∧
      store.write verb key expected change = (.error error, store.count verb)) ∨
    ∃ document, store.objects.get? key = some document ∧
      (∀ version, expected = some version → document.version? = some version) ∧
      store.write verb key expected change =
        ((Resource.ofJson ((change document).withVersion (toString (store.version + 1)))).mapError
          .codec, ((store.count verb).commit key (change document)).2) := by
  by_cases hFailing : verb ∈ store.failing
  · refine .inl ⟨_, .injected hFailing, ?_⟩
    simp [write, count, allow, hFailing, bind, Except.bind]
  have hAllow : (store.count verb).allow verb key = .ok () := by
    simp [count, allow, hFailing]
  cases hGet : store.objects.get? key with
  | none =>
      refine .inl ⟨_, .gone hGet, ?_⟩
      have hExpect : (store.count verb).expect key expected = .error (.notFound key) := by
        simp [expect, stored, count, hGet, bind, Except.bind]
      simp [write, hAllow, hExpect, bind, Except.bind]
  | some document =>
      have hStored : (store.count verb).stored key = .ok document :=
        stored_eq_ok_iff.2 hGet
      by_cases hStale : ∃ version, expected = some version ∧ document.version? ≠ some version
      · obtain ⟨version, hExpected, hVersion⟩ := hStale
        refine .inl ⟨_, .stale hGet hExpected hVersion, ?_⟩
        have hExpect : (store.count verb).expect key expected =
            .error (.conflict key version document.version?) := by
          simp [expect, hStored, hExpected, hVersion, bind, Except.bind, throw, throwThe,
            MonadExceptOf.throw]
        simp [write, hAllow, hExpect, bind, Except.bind]
      · have hVersion : ∀ version, expected = some version → document.version? = some version :=
          fun version hExpected => Classical.not_not.1 fun h => hStale ⟨version, hExpected, h⟩
        refine .inr ⟨document, rfl, hVersion, ?_⟩
        have hExpect : (store.count verb).expect key expected = .ok document := by
          cases expected with
          | none => simp [expect, hStored, bind, Except.bind, pure, Except.pure]
          | some version => simp [expect, hStored, hVersion version rfl, bind, Except.bind, pure, Except.pure]
        simp only [write, hAllow, hExpect, bind, Except.bind]
        rfl

/-- A commit puts the document under its key with the next version, or removes what is there. -/
theorem get?_commit (key key' : Key) (document : Json) (store : Store) :
    (store.commit key document).2.objects.get? key' =
      if key' = key then
        if (document.withVersion (toString (store.version + 1))).isReleased then none
        else some (document.withVersion (toString (store.version + 1)))
      else store.objects.get? key' := by
  unfold commit
  dsimp only
  split <;> simp

/-- What a write has done that was answered with a resource. -/
theorem of_write_eq_ok {verb : Verb} {key : Key} {expected : Option String} {change : Json → Json}
    {store store' : Store} {result : Resource}
    (h : store.write verb key expected change = (.ok result, store')) :
    ∃ document, store.objects.get? key = some document ∧
      (∀ version, expected = some version → document.version? = some version) ∧
      Resource.ofJson ((change document).withVersion (toString (store.version + 1))) =
        .ok result ∧
      store' = ((store.count verb).commit key (change document)).2 := by
  rcases write_cases verb key expected change store with ⟨_, _, hWrite⟩ | ⟨document, hGet, hVersion, hWrite⟩
  · rw [hWrite] at h
    cases h
  · rw [hWrite] at h
    exact ⟨document, hGet, hVersion, Except.mapError_eq_ok_iff.1 (congrArg Prod.fst h),
      (congrArg Prod.snd h).symm⟩

/-- A patch is one write of the stored document, merged with the difference. -/
theorem patch_eq_write {resource base : Resource} (hBase : base.unwritable = none)
    (hResource : resource.unwritable = none) (store : Store) :
    store.patch resource base = store.write .patch resource.key base.metadata.version
      fun stored => Json.merge stored (Json.diff (Json.object base.toObject).snapshot.main
        (Json.object resource.toObject).snapshot.main) := by
  simp [patch, Resource.snapshot_eq_ok_iff.2 ⟨hBase, rfl⟩,
    Resource.snapshot_eq_ok_iff.2 ⟨hResource, rfl⟩]

theorem patchStatus_eq_write {resource base : Resource} (hBase : base.unwritable = none)
    (hResource : resource.unwritable = none) (store : Store) :
    store.patchStatus resource base = store.write .patchStatus resource.key base.metadata.version
      (patchedStatus (base.status.map Status.toJson) (resource.status.map Status.toJson)) := by
  simp [patchStatus, Resource.snapshot_eq_ok_iff.2 ⟨hBase, rfl⟩,
    Resource.snapshot_eq_ok_iff.2 ⟨hResource, rfl⟩, Resource.status_snapshot]

/-- A patch that goes through has merged the difference into the stored document. -/
theorem of_patch_eq_ok {store store' : Store} {resource base result : Resource}
    (h : store.patch resource base = (.ok result, store')) :
    ∃ document, store.objects.get? resource.key = some document ∧
      Resource.ofJson ((Json.merge document (Json.diff
        (Json.object base.toObject).snapshot.main
        (Json.object resource.toObject).snapshot.main)).withVersion
          (toString (store.version + 1))) = .ok result ∧
      store' = ((store.count .patch).commit resource.key (Json.merge document (Json.diff
        (Json.object base.toObject).snapshot.main
        (Json.object resource.toObject).snapshot.main))).2 := by
  unfold patch at h
  split at h
  · cases h
  · cases h
  · rename_i before after hBefore hAfter
    obtain ⟨-, rfl⟩ := Resource.snapshot_eq_ok_iff.1 hBefore
    obtain ⟨-, rfl⟩ := Resource.snapshot_eq_ok_iff.1 hAfter
    obtain ⟨document, hGet, -, hResult, hStore⟩ := of_write_eq_ok h
    exact ⟨document, hGet, hResult, hStore⟩

theorem of_patchStatus_eq_ok {store store' : Store} {resource base result : Resource}
    (h : store.patchStatus resource base = (.ok result, store')) :
    ∃ document, store.objects.get? resource.key = some document ∧
      Resource.ofJson ((patchedStatus (base.status.map Status.toJson)
        (resource.status.map Status.toJson) document).withVersion
          (toString (store.version + 1))) = .ok result ∧
      store' = ((store.count .patchStatus).commit resource.key (patchedStatus
        (base.status.map Status.toJson) (resource.status.map Status.toJson) document)).2 := by
  unfold patchStatus at h
  split at h
  · cases h
  · cases h
  · rename_i before after hBefore hAfter
    obtain ⟨-, rfl⟩ := Resource.snapshot_eq_ok_iff.1 hBefore
    obtain ⟨-, rfl⟩ := Resource.snapshot_eq_ok_iff.1 hAfter
    obtain ⟨document, hGet, -, hResult, hStore⟩ := of_write_eq_ok h
    rw [base.status_snapshot, resource.status_snapshot] at hResult hStore
    exact ⟨document, hGet, hResult, hStore⟩

/-- What a write has committed is there afterwards, unless it has released the resource. -/
theorem get?_of_commit_of_contains {key : Key} {document : Json} {store : Store}
    (h : (store.commit key document).2.contains key = true) :
    (store.commit key document).2.objects.get? key =
      some (document.withVersion (toString (store.version + 1))) := by
  rw [contains, get?_commit, if_pos rfl] at h
  rw [get?_commit, if_pos rfl]
  split
  · simp_all
  · rfl

/-- What was fetched stands in the store. -/
theorem of_get_eq_ok {store store' : Store} {key : Key} {resource : Resource}
    (h : store.get key = (.ok resource, store')) :
    (∃ document, store.objects.get? key = some document ∧
      Resource.ofJson document = .ok resource) ∧ store' = store.count .get := by
  rw [get] at h
  have hAnswer := congrArg Prod.fst h
  refine ⟨?_, (congrArg Prod.snd h).symm⟩
  simp only [Except.bind_eq_ok_iff, Except.mapError_eq_ok_iff] at hAnswer
  obtain ⟨_, _, document, hStored, hRead⟩ := hAnswer
  exact ⟨document, stored_eq_ok_iff.1 hStored, hRead⟩

/-- What stands in the store can be fetched, if that is not made to fail. -/
theorem get_eq_ok {store : Store} {key : Key} {document : Json} {resource : Resource}
    (hAllowed : .get ∉ store.failing) (hStored : store.objects.get? key = some document)
    (hRead : Resource.ofJson document = .ok resource) :
    store.get key = (.ok resource, store.count .get) := by
  have hAllow : (store.count .get).allow .get key = .ok () := if_neg hAllowed
  have hFound : (store.count .get).stored key = .ok document := stored_eq_ok_iff.2 hStored
  refine Prod.ext ?_ rfl
  simp only [get, Except.bind_eq_ok_iff, Except.mapError_eq_ok_iff]
  exact ⟨(), hAllow, document, hFound, hRead⟩

/-- Every document in the store has metadata and a version that was handed out, and no two have the
same version. -/
structure Sound (store : Store) : Prop where
  stored : ∀ {key document}, store.objects.get? key = some document →
    document.HasParts ∧ ∃ number ≤ store.version, document.version? = some (toString number)
  distinct : ∀ {key key' document document'}, store.objects.get? key = some document →
    store.objects.get? key' = some document' → document.version? = document'.version? → key = key'

theorem hasParts_merge {document : Json} (h : document.HasParts) (old new : Resource) :
    (Json.merge document (Json.diff (Json.object old.toObject).snapshot.main
      (Json.object new.toObject).snapshot.main)).HasParts := by
  obtain ⟨metadata, spec, status, hParts⟩ := h
  obtain ⟨spec', hMerged, -⟩ := hParts.merge_diff old.parts_main new.parts_main
  exact ⟨_, spec', status, hMerged⟩

theorem hasParts_patchedStatus {document : Json} (h : document.HasParts)
    (before after : Option Json) : (patchedStatus before after document).HasParts := by
  obtain ⟨status, hStatus⟩ := patchedStatus_eq before after document
  exact hStatus ▸ h.setStatus status

theorem metadata_patchedStatus {document : Json} (h : document.HasParts)
    (before after : Option Json) :
    (patchedStatus before after document).metadata = document.metadata := by
  obtain ⟨status, hStatus⟩ := patchedStatus_eq before after document
  exact hStatus ▸ h.metadata_setStatus status

/-- A document that a request finds under a key. It has the version that is expected, if one is. -/
structure Finds (store : Store) (key : Key) (expected : Option String) (document : Json) : Prop where
  get_eq : store.objects.get? key = some document
  version_eq : ∀ version, expected = some version → document.version? = some version

/-- A write that finds its document is refused only if it is made to fail. -/
theorem Finds.mem_failing {store : Store} {verb : Verb} {key : Key} {expected : Option String}
    {document : Json} {error : StoreError} (hFinds : store.Finds key expected document)
    (h : store.Refuses verb key expected error) : verb ∈ store.failing := by
  cases h with
  | injected hFailing => exact hFailing
  | gone hGone => cases hFinds.get_eq.symm.trans hGone
  | stale hGet hExpected hVersion =>
      cases hFinds.get_eq.symm.trans hGet
      exact absurd (hFinds.version_eq _ hExpected) hVersion

/-- A write that finds its document commits what it makes of that. -/
theorem write_of_finds {store : Store} {verb : Verb} {key : Key} {expected : Option String}
    {document : Json} (change : Json → Json) (hFinds : store.Finds key expected document)
    (hAllowed : verb ∉ store.failing) :
    store.write verb key expected change =
      ((Resource.ofJson ((change document).withVersion (toString (store.version + 1)))).mapError
        .codec, ((store.count verb).commit key (change document)).2) := by
  rcases write_cases verb key expected change store with
    ⟨error, hRefuses, -⟩ | ⟨found, hGet, -, hWrite⟩
  · exact absurd (hFinds.mem_failing hRefuses) hAllowed
  · cases hFinds.get_eq.symm.trans hGet
    exact hWrite

/-- A write to what is not there is refused. -/
theorem write_of_gone {store : Store} {verb : Verb} {key : Key} (expected : Option String)
    (change : Json → Json) (hGone : store.objects.get? key = none) (hAllowed : verb ∉ store.failing) :
    store.write verb key expected change = (.error (.notFound key), store.count verb) := by
  rcases write_cases verb key expected change store with
    ⟨error, hRefuses, hWrite⟩ | ⟨found, hGet, -, -⟩
  · cases hRefuses with
    | injected hFailing => exact absurd hFailing hAllowed
    | gone => exact hWrite
    | stale hGet => cases hGone.symm.trans hGet
  · cases hGone.symm.trans hGet

/-- What a request commits under a key, unless it is refused. -/
inductive Drafts (store : Store) (now : Timestamp) : Request → Key → Json → Prop where
  | insert {resource : Resource} :
    Drafts store now (.insert resource) resource.key (.object resource.toObject)
  | delete {key : Key} {stored : Json} (hGet : store.objects.get? key = some stored) :
    Drafts store now (.delete key) key (stored.mark now)
  | update {resource : Resource} {stored : Json}
    (hFinds : store.Finds resource.key resource.metadata.version stored) :
    Drafts store now (.update resource) resource.key
      ((Json.object resource.toObject).setStatus stored.status?)
  | updateStatus {resource : Resource} {stored : Json}
    (hFinds : store.Finds resource.key resource.metadata.version stored) :
    Drafts store now (.updateStatus resource) resource.key
      (stored.setStatus (resource.status.map Status.toJson))
  | patch {resource base : Resource} {stored : Json}
    (hFinds : store.Finds resource.key base.metadata.version stored) :
    Drafts store now (.patch resource base) resource.key
      (Json.merge stored (Json.diff (Json.object base.toObject).snapshot.main
        (Json.object resource.toObject).snapshot.main))
  | patchStatus {resource base : Resource} {stored : Json}
    (hFinds : store.Finds resource.key base.metadata.version stored) :
    Drafts store now (.patchStatus resource base) resource.key
      (patchedStatus (base.status.map Status.toJson) (resource.status.map Status.toJson) stored)

/-- What a request does that is answered with the resource `given`, if with one: it leaves the
documents alone, or commits what it drafts. The answer is read from a stored document or from what
was committed. -/
inductive Serves (store : Store) (now : Timestamp) (request : Request) (given : Option Resource)
    (store' : Store) : Prop where
  | kept (objects : store'.objects = store.objects) (version : store'.version = store.version)
    (hGiven : ∀ resource, given = some resource → ∃ key document,
      (request = .get key ∨ request = .peek key) ∧ store.objects.get? key = some document ∧
        Resource.ofJson document = .ok resource)
  | committed {key : Key} {draft : Json} (hDraft : store.Drafts now request key draft)
    (objects : store'.objects = (store.commit key draft).2.objects)
    (version : store'.version = store.version + 1)
    (hGiven : ∀ resource, given = some resource →
      Resource.ofJson (draft.withVersion (toString (store.version + 1))) = .ok resource)

/-- What a request that may write under a key does to the documents of a store. -/
inductive Changed (written : Option Key) (store store' : Store) : Prop where
  | kept (objects : store'.objects = store.objects) (version : store'.version = store.version)
  | committed {key : Key} {document : Json} (hWritten : written = some key)
    (hParts : document.HasParts) (objects : store'.objects = (store.commit key document).2.objects)
    (version : store'.version = store.version + 1)

end Store

namespace Request

/-- The key under which a request may write. -/
def written? : Request → Option Key
  | .update resource | .updateStatus resource | .patch resource _ | .patchStatus resource _
  | .insert resource => some resource.key
  | .delete key => some key
  | .get _ | .peek _ | .failOn _ | .clearFailures => none

/-- The version that a request expects to find. -/
def expected? : Request → Option String
  | .update resource | .updateStatus resource => resource.metadata.version
  | .patch _ base | .patchStatus _ base => base.metadata.version
  | .get _ | .insert _ | .peek _ | .delete _ | .failOn _ | .clearFailures => none

/-- The resource that a request is answered with. -/
def given? : (request : Request) → request.Answer → Option Resource
  | .get _, answer | .update _, answer | .updateStatus _, answer | .patch .., answer
  | .patchStatus .., answer | .insert _, answer => answer.toOption
  | .peek _, answer => answer
  | .delete _, _ | .failOn _, _ | .clearFailures, _ => none

end Request

namespace Store

theorem of_toOption_mapError {document : Json} {resource : Resource}
    (h : ((Resource.ofJson document).mapError StoreError.codec).toOption = some resource) :
    Resource.ofJson document = .ok resource :=
  Except.mapError_eq_ok_iff.1 (Except.of_toOption_eq_some h)

theorem of_peek_eq_some {store : Store} {key : Key} {resource : Resource}
    (h : store.peek key = some resource) :
    ∃ document, store.objects.get? key = some document ∧
      Resource.ofJson document = .ok resource := by
  obtain ⟨document, hStored, hRead⟩ := Option.bind_eq_some_iff.1 h
  exact ⟨document, hStored, Except.of_toOption_eq_some hRead⟩

theorem peek_eq_some {store : Store} {key : Key} {document : Json} {resource : Resource}
    (hStored : store.objects.get? key = some document)
    (hRead : Resource.ofJson document = .ok resource) : store.peek key = some resource := by
  simp [peek, hStored, hRead, Except.toOption]

/-- A request that is refused, or answered with no resource, leaves the store as it is. -/
theorem serves_none {store store' : Store} {now : Timestamp} {request : Request}
    (hObjects : store'.objects = store.objects) (hVersion : store'.version = store.version) :
    store.Serves now request none store' :=
  .kept hObjects hVersion nofun

/-- What a request to write leads to: nothing, if something cannot be written, else a write of what
it drafts. -/
inductive Writes (store : Store) (now : Timestamp) (request : Request) :
    Except StoreError Resource × Store → Prop where
  | unwritable (text : String) :
    Writes store now request (.error (.codec (.unwritable text)), store)
  | write {verb : Verb} {key : Key} {expected : Option String} {change : Json → Json}
    (hDraft : ∀ stored, store.Finds key expected stored →
      store.Drafts now request key (change stored)) :
    Writes store now request (store.write verb key expected change)

theorem writes_update (resource : Resource) (store : Store) (now : Timestamp) :
    store.Writes now (.update resource) (store.update resource) := by
  unfold update
  split
  · rename_i hJson
    obtain ⟨text, rfl⟩ := Resource.exists_unwritable_of_toJson hJson
    exact .unwritable text
  · rename_i hJson
    obtain ⟨-, rfl⟩ := Resource.toJson_eq_ok_iff.1 hJson
    exact .write fun _ hFinds => .update hFinds

theorem writes_updateStatus (resource : Resource) (store : Store) (now : Timestamp) :
    store.Writes now (.updateStatus resource) (store.updateStatus resource) := by
  unfold updateStatus
  split
  · rename_i hSnapshot
    obtain ⟨text, rfl⟩ := Resource.exists_unwritable_of_snapshot hSnapshot
    exact .unwritable text
  · rename_i hSnapshot
    obtain ⟨-, rfl⟩ := Resource.snapshot_eq_ok_iff.1 hSnapshot
    rw [Resource.status_snapshot]
    exact .write fun _ hFinds => .updateStatus hFinds

/-- A patch writes what it drafts, or nothing. -/
theorem writes_patch (resource base : Resource) (store : Store) (now : Timestamp) :
    store.Writes now (.patch resource base) (store.patch resource base) := by
  unfold patch
  split
  · rename_i hBefore
    obtain ⟨text, rfl⟩ := Resource.exists_unwritable_of_snapshot hBefore
    exact .unwritable text
  · rename_i hAfter _
    obtain ⟨text, rfl⟩ := Resource.exists_unwritable_of_snapshot hAfter
    exact .unwritable text
  · rename_i hBefore hAfter
    obtain ⟨-, rfl⟩ := Resource.snapshot_eq_ok_iff.1 hBefore
    obtain ⟨-, rfl⟩ := Resource.snapshot_eq_ok_iff.1 hAfter
    exact .write fun _ hFinds => .patch hFinds

theorem writes_patchStatus (resource base : Resource) (store : Store) (now : Timestamp) :
    store.Writes now (.patchStatus resource base) (store.patchStatus resource base) := by
  unfold patchStatus
  split
  · rename_i hBefore
    obtain ⟨text, rfl⟩ := Resource.exists_unwritable_of_snapshot hBefore
    exact .unwritable text
  · rename_i hAfter _
    obtain ⟨text, rfl⟩ := Resource.exists_unwritable_of_snapshot hAfter
    exact .unwritable text
  · rename_i hBefore hAfter
    obtain ⟨-, rfl⟩ := Resource.snapshot_eq_ok_iff.1 hBefore
    obtain ⟨-, rfl⟩ := Resource.snapshot_eq_ok_iff.1 hAfter
    rw [Resource.status_snapshot, Resource.status_snapshot]
    exact .write fun _ hFinds => .patchStatus hFinds

theorem Writes.serves {store : Store} {now : Timestamp} {request : Request}
    {outcome : Except StoreError Resource × Store} (h : store.Writes now request outcome) :
    store.Serves now request outcome.1.toOption outcome.2 := by
  cases h with
  | unwritable text => exact serves_none rfl rfl
  | @write verb key expected change hDraft =>
      rcases write_cases verb key expected change store with
        ⟨_, _, hWrite⟩ | ⟨stored, hGet, hVersion, hWrite⟩
      · rw [hWrite]
        exact serves_none rfl rfl
      · rw [hWrite]
        exact .committed (hDraft stored ⟨hGet, hVersion⟩) rfl rfl fun _ => of_toOption_mapError

/-- Every request serves a draft or leaves the documents alone. -/
theorem serves (store : Store) (now : Timestamp) (request : Request) :
    store.Serves now request (request.given? (request.serve now store).1)
      (request.serve now store).2 := by
  cases request with
  | get key =>
      refine .kept rfl rfl fun resource hGiven => ?_
      have hAnswer : (store.get key).1 = .ok resource := Except.of_toOption_eq_some hGiven
      obtain ⟨⟨document, hStored, hRead⟩, -⟩ := of_get_eq_ok (Prod.ext hAnswer rfl)
      exact ⟨key, document, .inl rfl, hStored, hRead⟩
  | peek key =>
      refine .kept rfl rfl fun resource hGiven => ?_
      obtain ⟨document, hStored, hRead⟩ := of_peek_eq_some hGiven
      exact ⟨key, document, .inr rfl, hStored, hRead⟩
  | clearFailures => exact serves_none rfl rfl
  | failOn verb =>
      show store.Serves now _ none (store.failOn verb)
      unfold failOn
      split
      · exact serves_none rfl rfl
      · exact serves_none rfl rfl
  | insert resource =>
      show store.Serves now _ (store.insert resource).1.toOption (store.insert resource).2
      unfold insert
      split
      · exact serves_none rfl rfl
      · rename_i hJson
        obtain ⟨-, rfl⟩ := Resource.toJson_eq_ok_iff.1 hJson
        exact .committed .insert rfl rfl fun _ => of_toOption_mapError
  | delete key =>
      show store.Serves now _ none (store.delete now key).2
      unfold delete
      split
      · exact serves_none rfl rfl
      · rename_i hStored
        exact .committed (.delete (stored_eq_ok_iff.1 hStored)) rfl rfl nofun
  | update resource => exact (writes_update resource store now).serves
  | updateStatus resource => exact (writes_updateStatus resource store now).serves
  | patch resource base => exact (writes_patch resource base store now).serves
  | patchStatus resource base => exact (writes_patchStatus resource base store now).serves

section

variable {store : Store} {now : Timestamp} {request : Request} {key : Key} {draft : Json}

theorem Drafts.written (h : store.Drafts now request key draft) : request.written? = some key := by
  cases h <;> rfl

/-- What is committed has the parts of a document. -/
theorem Drafts.hasParts (hStore : store.Sound) (h : store.Drafts now request key draft) :
    draft.HasParts := by
  cases h with
  | insert => exact Resource.hasParts _
  | delete hGet => exact (hStore.stored hGet).1.mark now
  | update hFinds => exact (Resource.hasParts _).setStatus _
  | updateStatus hFinds => exact (hStore.stored hFinds.get_eq).1.setStatus _
  | patch hFinds => exact hasParts_merge (hStore.stored hFinds.get_eq).1 _ _
  | patchStatus hFinds => exact hasParts_patchedStatus (hStore.stored hFinds.get_eq).1 _ _

/-- What is committed under an expected version replaces the document that has it. -/
theorem Drafts.exists_expected (h : store.Drafts now request key draft) {version : String}
    (hExpected : request.expected? = some version) :
    ∃ stored, store.objects.get? key = some stored ∧ stored.version? = some version := by
  cases h with
  | insert => cases hExpected
  | delete hGet => cases hExpected
  | update hFinds => exact ⟨_, hFinds.get_eq, hFinds.version_eq version hExpected⟩
  | updateStatus hFinds => exact ⟨_, hFinds.get_eq, hFinds.version_eq version hExpected⟩
  | patch hFinds => exact ⟨_, hFinds.get_eq, hFinds.version_eq version hExpected⟩
  | patchStatus hFinds => exact ⟨_, hFinds.get_eq, hFinds.version_eq version hExpected⟩

end

/-- A request changes at most what stands under the key that it may write under. -/
theorem changed_serve {store : Store} (hStore : store.Sound) (now : Timestamp)
    (request : Request) : Changed request.written? store (request.serve now store).2 := by
  cases store.serves now request with
  | kept objects version _ => exact .kept objects version
  | committed hDraft objects version _ =>
      exact .committed hDraft.written (hDraft.hasParts hStore) objects version

/-- A document is what was there before, or the one that has just got the next version. -/
theorem Changed.get?_cases {written : Option Key} {store store' : Store}
    (h : Changed written store store') {key : Key} {document : Json}
    (hGet : store'.objects.get? key = some document) :
    (store.objects.get? key = some document ∧ (store'.version = store.version ∨
      written ≠ some key)) ∨
      written = some key ∧ document.HasParts ∧ store'.version = store.version + 1 ∧
        document.version? = some (toString (store.version + 1)) := by
  cases h with
  | kept hObjects hVersion => exact .inl ⟨hObjects ▸ hGet, .inl hVersion⟩
  | @committed target committed hWritten hParts hObjects hVersion =>
      rw [hObjects, get?_commit] at hGet
      by_cases hKey : key = target
      · rw [if_pos hKey] at hGet
        split at hGet
        · cases hGet
        · cases hGet
          exact .inr ⟨hKey ▸ hWritten, hParts.withVersion _, hVersion, hParts.version? _⟩
      · rw [if_neg hKey] at hGet
        refine .inl ⟨hGet, .inr ?_⟩
        rw [hWritten]
        exact fun h => hKey (Option.some.inj h).symm

theorem Changed.version_le {written : Option Key} {store store' : Store}
    (h : Changed written store store') : store.version ≤ store'.version := by
  cases h with
  | kept _ hVersion => omega
  | committed _ _ _ hVersion => omega

theorem Sound.version?_ne_next {store : Store} (hStore : store.Sound) {key : Key}
    {document : Json} (hGet : store.objects.get? key = some document) :
    document.version? ≠ some (toString (store.version + 1)) := by
  obtain ⟨-, number, hNumber, hVersion⟩ := hStore.stored hGet
  intro hNext
  rw [hVersion] at hNext
  have hSame : number = store.version + 1 := toString_injective (Option.some.inj hNext)
  omega

/-- A sound store stays sound when a request changes it. -/
theorem Changed.sound {written : Option Key} {store store' : Store}
    (h : Changed written store store') (hStore : store.Sound) : store'.Sound := by
  refine ⟨fun hGet => ?_, fun hGet hGet' hSame => ?_⟩
  · rcases h.get?_cases hGet with ⟨hOld, -⟩ | ⟨-, hParts, hVersion, hNew⟩
    · obtain ⟨hOldParts, number, hNumber, hOldVersion⟩ := hStore.stored hOld
      exact ⟨hOldParts, number, Nat.le_trans hNumber h.version_le, hOldVersion⟩
    · exact ⟨hParts, store.version + 1, Nat.le_of_eq hVersion.symm, hNew⟩
  · rcases h.get?_cases hGet with ⟨hOld, -⟩ | ⟨hKey, -, -, hNew⟩
    · rcases h.get?_cases hGet' with ⟨hOld', -⟩ | ⟨-, -, -, hNew'⟩
      · exact hStore.distinct hOld hOld' hSame
      · exact absurd (hSame.trans hNew') (hStore.version?_ne_next hOld)
    · rcases h.get?_cases hGet' with ⟨hOld', -⟩ | ⟨hKey', -, -, -⟩
      · exact absurd (hSame.symm.trans hNew) (hStore.version?_ne_next hOld')
      · exact Option.some.inj (hKey.symm.trans hKey')

/-- The states of a store that begins empty. -/
inductive Reachable : Store → Prop where
  | empty : Reachable {}
  | serve {store : Store} (h : Reachable store) (now : Timestamp) (request : Request) :
    Reachable (request.serve now store).2
  | resetCalls {store : Store} (h : Reachable store) : Reachable store.resetCalls

/-- Every reachable store is sound. -/
theorem Reachable.sound {store : Store} (h : Reachable store) : store.Sound := by
  induction h with
  | empty => exact ⟨nofun, nofun⟩
  | serve _ now request ih => exact (changed_serve ih now request).sound ih
  | resetCalls _ ih => exact ⟨ih.stored, ih.distinct⟩

/-- What is stored after a request was there before, or the request has committed it. -/
theorem get?_serve_cases {store : Store} {now : Timestamp} {request : Request} {key : Key}
    {document : Json} (hGet : (request.serve now store).2.objects.get? key = some document) :
    store.objects.get? key = some document ∨
      ∃ draft, store.Drafts now request key draft ∧ document.isReleased = false ∧
        document = draft.withVersion (toString (store.version + 1)) := by
  cases store.serves now request with
  | kept hObjects _ _ => exact .inl (hObjects ▸ hGet)
  | committed hDraft hObjects _ _ =>
      rw [hObjects, get?_commit] at hGet
      split at hGet
      · rename_i hKey
        subst hKey
        split at hGet
        · cases hGet
        · rename_i hHeld
          cases hGet
          exact .inr ⟨_, hDraft, Bool.not_eq_true _ ▸ hHeld, rfl⟩
      · exact .inl hGet

/-- What holds of all that is committed holds of all that is stored. -/
theorem Reachable.of_drafts {motive : Key → Json → Prop} {store : Store} (h : Reachable store)
    (hCommit : ∀ {store : Store} {now request key draft}, Reachable store →
      (∀ {key document}, store.objects.get? key = some document → motive key document) →
      store.Drafts now request key draft →
      (draft.withVersion (toString (store.version + 1))).isReleased = false →
      motive key (draft.withVersion (toString (store.version + 1))))
    {key : Key} {document : Json} (hGet : store.objects.get? key = some document) :
    motive key document := by
  induction h generalizing key document with
  | empty => cases hGet
  | serve prior now request ih =>
      rcases get?_serve_cases hGet with hOld | ⟨draft, hDraft, hHeld, rfl⟩
      · exact ih hOld
      · exact hCommit prior ih hDraft hHeld
  | resetCalls _ ih => exact ih hGet

/-- A program leads from a reachable store to a reachable one. -/
theorem Reachable.run {store : Store} (h : Reachable store) {α : Type} (program : Program α)
    (now : Timestamp) : Reachable (program.run now store).2 := by
  induction program generalizing store with
  | done => exact h
  | call request next ih => exact ih _ (h.serve now request)

/-- Each document of a later state is newer than the first state, or was there already. -/
structure Later (store store' : Store) : Prop where
  version : store.version ≤ store'.version
  stored : ∀ {key document}, store'.objects.get? key = some document →
    store.objects.get? key = some document ∨
      ∃ number, store.version < number ∧ document.version? = some (toString number)

theorem Later.refl (store : Store) : Later store store :=
  ⟨Nat.le_refl _, .inl⟩

theorem Later.trans {first second third : Store} (h : Later first second)
    (h' : Later second third) : Later first third := by
  refine ⟨Nat.le_trans h.version h'.version, fun hGet => ?_⟩
  rcases h'.stored hGet with hOld | ⟨number, hNumber, hVersion⟩
  · exact h.stored hOld
  · exact .inr ⟨number, Nat.lt_of_le_of_lt h.version hNumber, hVersion⟩

/-- A request leads to a later state of the store. -/
theorem Changed.later {written : Option Key} {store store' : Store}
    (h : Changed written store store') : Later store store' := by
  refine ⟨h.version_le, fun hGet => ?_⟩
  rcases h.get?_cases hGet with ⟨hOld, -⟩ | ⟨-, -, -, hNew⟩
  · exact .inl hOld
  · exact .inr ⟨store.version + 1, Nat.lt_succ_self _, hNew⟩

/-- A program leads to a later state of the store. -/
theorem Reachable.later_run {store : Store} (h : Reachable store) {α : Type} (program : Program α)
    (now : Timestamp) : Later store (program.run now store).2 := by
  induction program generalizing store with
  | done => exact .refl store
  | call request next ih =>
      exact (changed_serve h.sound now request).later.trans (ih _ (h.serve now request))

section

variable {store store' : Store} {key : Key} {resource : Resource}

/-- A write of what can be read in the store finds the document that it is read from. -/
theorem Sound.exists_finds (hSound : store.Sound) (hPeek : store.peek key = some resource) :
    ∃ document, store.Finds key resource.metadata.version document ∧ document.HasParts ∧
      Resource.ofJson document = .ok resource ∧ resource.unwritable = none := by
  obtain ⟨document, hStored, hRead⟩ := of_peek_eq_some hPeek
  obtain ⟨hParts, number, -, hVersion⟩ := hSound.stored hStored
  obtain ⟨hToken, hWritable⟩ := Resource.version_of_ofJson hParts hVersion hRead
  refine ⟨document, ⟨hStored, fun version hExpected => ?_⟩, hParts, hRead, hWritable⟩
  rw [hVersion, ← hToken, hExpected]

/-- What is stored with the version of a resource is that resource. -/
def Knows (store : Store) (key : Key) (resource : Resource) : Prop :=
  ∃ number ≤ store.version, resource.metadata.version = some (toString number) ∧
    ∀ {key' document}, store.objects.get? key' = some document →
      document.version? = some (toString number) →
        key' = key ∧ Resource.ofJson document = .ok resource

/-- What can be read in the store is known. -/
theorem Sound.knows_of_peek (hSound : store.Sound) (hPeek : store.peek key = some resource) :
    store.Knows key resource := by
  obtain ⟨document, hStored, hRead⟩ := of_peek_eq_some hPeek
  obtain ⟨hParts, number, hNumber, hVersion⟩ := hSound.stored hStored
  obtain ⟨hToken, -⟩ := Resource.version_of_ofJson hParts hVersion hRead
  refine ⟨number, hNumber, hToken, fun hGet' hSame => ?_⟩
  obtain rfl := hSound.distinct hGet' hStored (hSame.trans hVersion.symm)
  cases hGet'.symm.trans hStored
  exact ⟨rfl, hRead⟩

/-- What has been fetched is known. -/
theorem Sound.knows_of_get (hSound : store.Sound) (hGet : (store.get key).1 = .ok resource) :
    store.Knows key resource := by
  obtain ⟨⟨_, hStored, hRead⟩, -⟩ := of_get_eq_ok (Prod.ext hGet rfl)
  exact hSound.knows_of_peek (peek_eq_some hStored hRead)

/-- What is known stays known. -/
theorem Knows.later (h : store.Knows key resource) (hLater : store.Later store') :
    store'.Knows key resource := by
  obtain ⟨number, hNumber, hToken, hOnly⟩ := h
  refine ⟨number, Nat.le_trans hNumber hLater.version, hToken, fun hGet hSame => ?_⟩
  rcases hLater.stored hGet with hOld | ⟨newer, hNewer, hVersion⟩
  · exact hOnly hOld hSame
  · have hEqual : newer = number := toString_injective (Option.some.inj (hVersion.symm.trans hSame))
    omega

end

end Store

end Reconciliation
