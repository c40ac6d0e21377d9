import Reconciliation.Proofs.Edit.Writes
import Reconciliation.Proofs.Resource.ReadBack
import Reconciliation.Proofs.Store.Holding

namespace Reconciliation.Edit

variable {base : Base} {resource result : Resource} {store store' : Store} {written : Written}
  {made : List Request}

/-- The status that stands in the store after an edit, from the one that was fetched and the one
that was to be written. -/
inductive StatusAfter (fetched new : Option Status) : Option Status → Prop where
  | kept (hAgree : (fetched.map Status.toJson).map Json.plain =
      (new.map Status.toJson).map Json.plain) : StatusAfter fetched new fetched
  /-- The status that is written is the new one, or what that is read as. -/
  | changed {document : Json} {metadata : Json.Object} {spec stored : Option Json}
    {written found : Option Status} (hParts : document.Parts metadata spec stored)
    (hFetched : Status.MayReadFrom stored fetched)
    (hWritten : written = new ∨ Status.MayReadFrom (new.map Status.toJson) written)
    (hFound : Status.MayReadFrom (Store.patchedStatus (fetched.map Status.toJson)
      (written.map Status.toJson) document).status? found) :
    StatusAfter fetched new found

/-- After an edit, the status is what the new status is read as. -/
theorem StatusAfter.exists_read {stored : Option Json} {fetched new found : Option Status}
    (h : StatusAfter fetched new found) (hFetched : Status.MayReadFrom stored fetched)
    (hNull : ∀ status, new = some status → status.toJson.hasNull = false) :
    ∃ read, Status.MayReadFrom (new.map Status.toJson) read ∧ Option.Rel Status.Agree found read := by
  cases h with
  | kept hAgree => exact hFetched.of_agree hAgree
  | changed hParts hFetched hWritten hFound =>
      rcases hWritten with rfl | hRead
      · exact hFetched.of_patchedStatus hParts hNull hFound
      · obtain ⟨status, hRewritten, hAgree⟩ :=
          hFetched.of_patchedStatus hParts (hRead.hasNull_toJson hNull) hFound
        have hSame := hRead.read_write.unique hRewritten
        exact ⟨_, hRead, hSame ▸ hAgree⟩

/-- After an edit, the conditions are the new ones, if nothing else stands in their place. -/
theorem StatusAfter.conditions_eq {stored : Option Json} {fetched found : Option Status}
    {new : Status} (h : StatusAfter fetched (some new) found)
    (hFetched : Status.MayReadFrom stored fetched) (hClear : new.extra.get? "conditions" = none) :
    ∃ status, found = some status ∧ status.standing.conditions = new.standing.conditions := by
  cases h with
  | kept hAgree =>
      obtain ⟨read, hRead, hSame⟩ := hFetched.of_agree hAgree
      obtain ⟨status, rfl, hConditions⟩ := hRead.conditions_eq hClear
      cases hSame with
      | @some status _ hStatus => exact ⟨status, rfl, by rw [hStatus.standing, hConditions]⟩
  | changed hParts hFetched hWritten hFound =>
      rcases hWritten with rfl | hRead
      · exact hFetched.conditions_eq_of_patchedStatus hParts hClear hFound
      · obtain ⟨written, rfl, hConditions⟩ := hRead.conditions_eq hClear
        have hWrittenClear : written.extra.get? "conditions" = none := by
          cases hRead with
          | object h => exact (Status.not_shadows_iff.1 h.not_shadows).1
        obtain ⟨status, rfl, hStatus⟩ :=
          hFetched.conditions_eq_of_patchedStatus hParts hWrittenClear hFound
        exact ⟨status, rfl, hStatus.trans hConditions⟩

/-- What stands in the store after an edit that has tried to write `new` in place of `fetched`. -/
structure Leaves (fetched new found : Resource) : Prop where
  metadata : found.metadata = { new.metadata with version := found.metadata.version }
  sound : found.metadata.Sound
  spec : new.spec ≠ .null → new.spec.hasNull = false → found.spec.Agree new.spec
  status : StatusAfter fetched.status new.status found.status

/-- What an edit that nobody else got in the way of leaves in the store, if it leaves the resource
there, and in hand. -/
theorem Writes.exists_left {after : Snapshot}
    (hWrites : Writes base resource after store written made result store')
    (hSound : store.Sound) {document : Json}
    (hStored : store.objects.get? base.key = some document)
    (hRead : Resource.ofJson document = .ok base.resource)
    (hBase : base.resource.snapshot = .ok base.snapshot)
    (hAfter : resource.snapshot = .ok after) (hKey : resource.key = base.key)
    (hStays : store'.contains base.key = true ∨ resource.isTerminating = false) :
    ∃ document' found, store'.objects.get? base.key = some document' ∧
      Resource.ofJson document' = .ok found ∧ Leaves base.resource resource found ∧
      result.key = base.key := by
  obtain ⟨-, hBaseSnapshot⟩ := Resource.snapshot_eq_ok_iff.1 hBase
  obtain ⟨-, rfl⟩ := Resource.snapshot_eq_ok_iff.1 hAfter
  have hHasParts := (hSound.stored hStored).1
  obtain ⟨metadata, spec, status, hParts⟩ := id hHasParts
  have hFrom := (Resource.ofJson_eq_ok_iff hParts).1 hRead
  have hMainAgree : base.snapshot.MainAgree (Json.object resource.toObject).snapshot →
      base.resource.metadata = resource.metadata ∧ base.resource.spec.Agree resource.spec := by
    rw [hBaseSnapshot]
    exact Resource.of_main_agree hFrom.metadata.sound
  have hStatusAgree : base.snapshot.StatusAgree (Json.object resource.toObject).snapshot →
      StatusAfter base.resource.status resource.status base.resource.status := by
    rw [hBaseSnapshot, Snapshot.StatusAgree, Resource.status_snapshot, Resource.status_snapshot]
    exact .kept
  cases hWrites with
  | nothing hMain hStatus =>
      obtain ⟨hMetadata, hSpec⟩ := hMainAgree hMain
      refine ⟨document, base.resource, hStored, hRead, ?_, hKey⟩
      exact {
        metadata := by rw [hMetadata]
        sound := hFrom.metadata.sound
        spec := fun _ _ => hSpec
        status := hStatusAgree hStatus }
  | main hMain hStatus hPatch =>
      obtain ⟨stored, hGet, hResult, rfl⟩ := Store.of_patch_eq_ok hPatch
      rw [hKey, hStored] at hGet
      cases hGet
      obtain ⟨⟨_, _, -, hFrom'⟩, hMetadata, hSpec, hSame⟩ :=
        Resource.of_patched_main hParts hFrom hResult
      refine ⟨_, result, ?_, hResult, ?_, ?_⟩
      · rw [hKey] at hStays ⊢
        refine Store.get?_commit_of_stays (Store.hasParts_merge hHasParts _ _) hResult ?_
        rwa [Resource.isTerminating, hMetadata]
      · exact {
          metadata := by rw [hMetadata]
          sound := hFrom'.metadata.sound
          spec := hSpec
          status := hSame ▸ hStatusAgree hStatus }
      · rw [Resource.key, hMetadata, ← hKey]
        rfl
  | @mainAndStatus first before target _ store₁ _ hMain hStatus hPatch hBefore hTarget hPatchStatus =>
      obtain ⟨stored, hGet, hFirst, rfl⟩ := Store.of_patch_eq_ok hPatch
      rw [hKey, hStored] at hGet
      cases hGet
      obtain ⟨⟨metadata', spec', hParts', hFrom'⟩, hMetadata, hSpec, hSame⟩ :=
        Resource.of_patched_main hParts hFrom hFirst
      obtain ⟨-, hBeforeStatus, -⟩ := Resource.of_withStatus_eq_ok hBefore
      obtain ⟨hTargetMetadata, hTargetStatus, -⟩ := Resource.of_withStatus_eq_ok hTarget
      have hTargetKey : target.key = base.key := by
        rw [Resource.key, hTargetMetadata, hMetadata, ← hKey]
        rfl
      obtain ⟨stored, hGet, hResult, rfl⟩ := Store.of_patchStatus_eq_ok hPatchStatus
      rw [hTargetKey] at hGet hStays ⊢
      rw [hKey] at hGet
      have hFirstStored := Store.get?_of_commit_of_contains (by rw [Store.contains, hGet]; rfl)
      rw [hFirstStored] at hGet
      cases hGet
      obtain ⟨hMetadata', hSpec', hStatus'⟩ := Resource.of_patched_status hParts' hFrom' hResult
      -- The status is written as it was read; the one before is the fetched one.
      have hBeforeEq : before.status = base.resource.status := by
        rw [hBaseSnapshot, Resource.status_snapshot] at hBeforeStatus
        exact hFrom.status.read_write.unique hBeforeStatus
      rw [Resource.status_snapshot] at hTargetStatus
      rw [hBeforeEq] at hStatus'
      refine ⟨_, result, ?_, hResult, ?_, ?_⟩
      · refine Store.get?_commit_of_stays (Store.hasParts_patchedStatus ⟨_, _, _, hParts'⟩ _ _)
          hResult ?_
        rwa [Resource.isTerminating, hMetadata', hMetadata]
      · exact {
          metadata := by rw [hMetadata', hMetadata]
          sound := by
            rw [hMetadata']
            exact hFrom'.metadata.sound
          spec := hSpec' ▸ hSpec
          status := .changed hParts' hFrom.status (.inr hTargetStatus) hStatus' }
      · rw [Resource.key, hMetadata', hMetadata, ← hKey]
        rfl
  | statusOnly hMain hStatus hPatch =>
      obtain ⟨stored, hGet, hResult, rfl⟩ := Store.of_patchStatus_eq_ok hPatch
      rw [hKey, hStored] at hGet
      cases hGet
      obtain ⟨hMetadata, hSpec⟩ := hMainAgree hMain
      obtain ⟨hMetadata', hSpec', hStatus'⟩ := Resource.of_patched_status hParts hFrom hResult
      refine ⟨_, result, ?_, hResult, ?_, ?_⟩
      · rw [hKey] at hStays ⊢
        refine Store.get?_commit_of_stays (Store.hasParts_patchedStatus hHasParts _ _) hResult ?_
        rwa [Resource.isTerminating, hMetadata', hMetadata]
      · exact {
          metadata := by rw [hMetadata', hMetadata]
          sound := by
            rw [hMetadata']
            exact hFrom.metadata.sound
          spec := fun _ _ => hSpec' ▸ hSpec
          status := .changed hParts hFrom.status (.inl rfl) hStatus' }
      · rw [Resource.key, hMetadata', hMetadata, ← hKey]
        rfl

/-- After an edit that nobody else got in the way of, the resource that stands in the store is what
the resource that was written is read as. -/
theorem Writes.readBack {after : Snapshot}
    (hWrites : Writes base resource after store written made result store')
    (hSound : store.Sound) {document : Json}
    (hStored : store.objects.get? base.key = some document)
    (hRead : Resource.ofJson document = .ok base.resource)
    (hBase : base.resource.snapshot = .ok base.snapshot)
    (hAfter : resource.snapshot = .ok after) (hKey : resource.key = base.key)
    (hNull : (Json.object resource.toObject).hasNull = false)
    (hContains : store'.contains base.key = true) :
    ∃ read found, Resource.ofJson (.object resource.toObject) = .ok read ∧
      store'.peek base.key = some found ∧ found.AgreeBesideVersion read := by
  obtain ⟨⟨metadata, spec, status, hParts⟩, -⟩ := hSound.stored hStored
  have hFrom := (Resource.ofJson_eq_ok_iff hParts).1 hRead
  have hMembers := Json.hasNull_object_eq_false_iff.1 hNull
  obtain ⟨hSpecSome, hSpecNull⟩ := hMembers "spec" _ resource.parts.spec
  have hStatusNull : ∀ status, resource.status = some status → status.toJson.hasNull = false := by
    intro status hStatus
    have hMember := resource.parts.status
    rw [hStatus] at hMember
    exact (hMembers _ _ hMember).2
  obtain ⟨document', found, hStored', hFound, hLeaves, -⟩ :=
    hWrites.exists_left hSound hStored hRead hBase hAfter hKey (.inl hContains)
  obtain ⟨read, hReadBack, hAgree⟩ := Resource.exists_read_agreeBesideVersion hLeaves.metadata
    hLeaves.sound (hLeaves.spec hSpecSome hSpecNull)
    (hLeaves.status.exists_read hFrom.status hStatusNull)
  exact ⟨read, found, hReadBack, Store.peek_eq_some hStored' hFound, hAgree⟩

/-- What is read back of what an edit has written is the written resource itself, unless its further
status members are in the way of its standing. -/
theorem Course.readBack {σ μ : Type} {edit : Edit σ μ} {now : Timestamp} {scene : Scene σ}
    (course : Course now edit scene store) (hStore : store.Reachable)
    (hKey : course.settled.resource.key = course.mutated.resource.key)
    (hWrites : Writes course.base course.settled.resource course.after course.fetched written made
      result store')
    (hNull : (Json.object course.settled.resource.toObject).hasNull = false)
    (hContains : store'.contains scene.resource.key = true) :
    ∃ read found, Resource.ofJson (.object course.settled.resource.toObject) = .ok read ∧
      store'.peek scene.resource.key = some found ∧ found.AgreeBesideVersion read ∧
      (¬course.settled.resource.Shadows → read = course.settled.resource) := by
  obtain ⟨⟨document, hStored, hRead⟩, hFetched⟩ := Store.of_get_eq_ok course.get_eq
  have hSound : course.fetched.Sound := hFetched ▸ ⟨hStore.sound.stored, hStore.sound.distinct⟩
  have hSettledKey : course.settled.resource.key = course.base.key := by
    rw [hKey, course.mutated_key, course.key_eq]
  rw [← course.key_eq] at hStored hContains ⊢
  obtain ⟨read, found, hReadBack, hPeek, hAgree⟩ := hWrites.readBack hSound (hFetched ▸ hStored)
    hRead course.snapshot_eq course.after_eq hSettledKey hNull hContains
  have hWritable := (Resource.snapshot_eq_ok_iff.1 course.after_eq).1
  exact ⟨read, found, hReadBack, hPeek, hAgree,
    fun hShadows => Resource.eq_of_ofJson_toObject hReadBack hShadows hWritable⟩

end Reconciliation.Edit
