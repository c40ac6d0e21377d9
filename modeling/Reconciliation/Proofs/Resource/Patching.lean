import Reconciliation.Proofs.Json.MergeRoundTrip
import Reconciliation.Proofs.Resource.Reading

namespace Reconciliation

open Json (mergeMembers diffObjects)

/-- What is not read from an object is read from no merged document but the patch itself. -/
theorem Field.read_of_read_merge {α : Type} (field : Field α) {target patch : Json} {value : α}
    (hFlat : field.Flat)
    (h : field.read (some (Json.merge target patch)) = .ok value) :
    field.read (some patch) = .ok value := by
  cases hPatch : patch.isObject with
  | false => rwa [Json.merge_of_isObject_eq_false _ hPatch] at h
  | true =>
      obtain ⟨patch, rfl⟩ : ∃ o, patch = .object o := ⟨_, Json.eq_object_of_isObject hPatch⟩
      rw [Json.merge_object] at h
      cases hFlat h

/-- After a patch, a part that is never read from an object is read as from the patch's second
object. -/
theorem Field.read_new_of_read_merged {α : Type} (field : Field α) {target old new : Json.Object}
    {key : String} {value result : α}
    (hFlat : field.Flat)
    (hTarget : field.read (target.get? key) = .ok value)
    (hOld : old.get? key = field.write value) (hNew : new.get? key ≠ some .null)
    (hResult : field.read ((mergeMembers target (diffObjects old new)).get? key) = .ok result) :
    field.read (new.get? key) = .ok result := by
  have hWritten : field.read (old.get? key) = .ok value :=
    hOld ▸ field.read_write (field.sound_of_read hTarget)
  cases hDocument : new.get? key with
  | none =>
      rw [Json.get?_mergeMembers_diffObjects, hDocument] at hResult
      cases hWas : old.get? key with
      | none =>
          rw [hWas] at hResult hWritten
          rw [hWritten, ← hTarget, hResult]
      | some was =>
          rw [hWas] at hResult
          exact hResult
  | some document =>
      have hNull : document ≠ .null := fun h => hNew (h ▸ hDocument)
      rw [Json.get?_mergeMembers_diffObjects_of_ne_null hDocument hNull] at hResult
      cases hWas : old.get? key with
      | none =>
          rw [hWas] at hResult
          exact read_of_read_merge field hFlat hResult
      | some was =>
          rw [hWas] at hResult hWritten
          by_cases hAgree : was.Agree document
          · simp only [hAgree, if_true] at hResult
            rw [← hResult, hTarget]
            exact field.read_of_plain_eq hWritten (congrArg some hAgree)
          · simp only [hAgree, if_false] at hResult
            rw [Json.diff_eq_of_isObject_eq_false (hFlat hWritten) hAgree] at hResult
            exact read_of_read_merge field hFlat hResult

/-- After a patch, a part that is never read from an object is what it was patched to. -/
theorem Field.eq_of_read_merged {α : Type} (field : Field α) {target old new : Json.Object}
    {key : String} {value value' result : α} (hFlat : field.Flat)
    (hTarget : field.read (target.get? key) = .ok value)
    (hOld : old.get? key = field.write value) (hNew : new.get? key = field.write value')
    (hResult : field.read ((mergeMembers target (diffObjects old new)).get? key) = .ok result) :
    result = value' := by
  have hRead := field.read_new_of_read_merged hFlat hTarget hOld
    (hNew ▸ field.write_ne_null value') hResult
  exact field.eq_of_read_write (hNew ▸ hRead)

namespace Metadata

/-- Metadata is written without nulls and objects in it. -/
theorem leaves_toObject (metadata : Metadata) : metadata.toObject.Leaves := by
  have hText : ∀ text, (Json.string text).IsLeaf := fun text => ⟨Codec.string_ne_null text, rfl⟩
  have hNil : Json.Object.Leaves .nil := by
    intro _ _ h
    cases h
  have hName : (Json.Object.insert? "name" (some (.string metadata.name)) .nil).Leaves :=
    hNil.insert? "name" fun _ h => Option.some.inj h ▸ hText metadata.name
  refine ((((hName.insert? "namespace" ?_).insert? "resourceVersion" ?_).insert? "generation"
    ?_).insert? "finalizers" ?_).insert? "deletionTimestamp" ?_
  · intro leaf h
    rw [spaceJson?] at h
    split at h
    · cases h
    · exact Option.some.inj h ▸ hText metadata.space
  · exact fun _ => Json.isLeaf_of_map_eq_some hText
  · exact fun _ => Json.isLeaf_of_map_eq_some fun value => ⟨Codec.int64.write_ne_null value, rfl⟩
  · intro leaf h
    rw [finalizersJson?] at h
    split at h
    · cases h
    · exact Option.some.inj h ▸ ⟨Codec.array_ne_null _, rfl⟩
  · exact fun _ => Json.isLeaf_of_map_eq_some fun instant =>
      ⟨Codec.timestamp.write_ne_null instant, rfl⟩

/-- A new version leaves the rest of the metadata alone. -/
theorem readFrom_insert_version_iff {object : Json.Object} {version : String}
    {metadata : Metadata} :
    ReadFrom (object.insert "resourceVersion" (.string version)) metadata ↔
      metadata.version = some version ∧
      nameField.read (object.get? "name") = .ok metadata.name ∧
      spaceField.read (object.get? "namespace") = .ok metadata.space ∧
      generationField.read (object.get? "generation") = .ok metadata.generation ∧
      finalizersField.read (object.get? "finalizers") = .ok metadata.finalizers ∧
      deletionField.read (object.get? "deletionTimestamp") = .ok metadata.deletion := by
  have hVersion : versionField.read (some (.string version)) = .ok metadata.version ↔
      metadata.version = some version := by
    simp [versionField, Field.optional, Codec.text, Json.ifPresent, Json.asOption, Json.asText,
      Except.map, eq_comm]
  constructor
  · rintro ⟨name, space, hRead, generation, finalizers, deletion⟩
    simp only [Json.Object.get?_insert] at name space hRead generation finalizers deletion
    exact ⟨hVersion.1 (by simpa using hRead), by simpa using name, by simpa using space,
      by simpa using generation, by simpa using finalizers, by simpa using deletion⟩
  · rintro ⟨hRead, name, space, generation, finalizers, deletion⟩
    constructor <;> simpa [Json.Object.get?_insert, hVersion]

/-- Metadata after a patch and under a new version. -/
theorem ReadFrom.eq_of_patched {target : Json.Object} {base new result : Metadata}
    {version : String} (hTarget : ReadFrom target base)
    (hResult : ReadFrom ((mergeMembers target (diffObjects base.toObject new.toObject)).insert
      "resourceVersion" (.string version)) result) :
    result = { new with version := some version } := by
  have hOld := base.writtenTo_toObject
  have hNew := new.writtenTo_toObject
  obtain ⟨hVersion, hName, hSpace, hGeneration, hFinalizers, hDeletion⟩ :=
    readFrom_insert_version_iff.1 hResult
  obtain ⟨name, space, version', generation, finalizers, deletion⟩ := result
  rw [mk.injEq]
  exact ⟨
    nameField.eq_of_read_merged (Field.flat_required _ Codec.flat_text)
      hTarget.name hOld.name hNew.name hName,
    spaceField.eq_of_read_merged (Field.flat_withDefault Codec.flat_text)
      hTarget.space hOld.space hNew.space hSpace,
    hVersion,
    generationField.eq_of_read_merged (Field.flat_optional Codec.flat_int64)
      hTarget.generation hOld.generation hNew.generation hGeneration,
    finalizersField.eq_of_read_merged (Field.flat_withDefault (Codec.flat_list _))
      hTarget.finalizers hOld.finalizers hNew.finalizers hFinalizers,
    deletionField.eq_of_read_merged (Field.flat_optional Codec.flat_timestamp)
      hTarget.deletion hOld.deletion hNew.deletion hDeletion⟩

/-- With another version the metadata are read as before, the version apart. -/
theorem ReadFrom.eq_of_insert_version {object : Json.Object} {base result : Metadata}
    {version : String} (h : ReadFrom object base)
    (hResult : ReadFrom (object.insert "resourceVersion" (.string version)) result) :
    result = { base with version := some version } := by
  obtain ⟨hVersion, hName, hSpace, hGeneration, hFinalizers, hDeletion⟩ :=
    readFrom_insert_version_iff.1 hResult
  obtain ⟨name, space, version', generation, finalizers, deletion⟩ := result
  rw [mk.injEq]
  exact ⟨Except.ok.inj (hName.symm.trans h.name), Except.ok.inj (hSpace.symm.trans h.space),
    hVersion, Except.ok.inj (hGeneration.symm.trans h.generation),
    Except.ok.inj (hFinalizers.symm.trans h.finalizers),
    Except.ok.inj (hDeletion.symm.trans h.deletion)⟩

end Metadata

namespace Status

/-- A status after a patch is what the patch's second object is read as. -/
theorem ReadFrom.of_patched {target new : Json.Object} {base result : Status}
    (hTarget : ReadFrom target base)
    (hNull : (Json.object new).hasNull = false)
    (hResult : ReadFrom (mergeMembers target (diffObjects base.toObject new)) result) :
    ∃ status, ReadFrom new status ∧ result.Agree status := by
  have hMembers := Json.hasNull_object_eq_false_iff.1 hNull
  have hPresent : ∀ key, new.get? key ≠ some .null := fun key h => (hMembers key _ h).1 rfl
  obtain ⟨hConditions, hPhase⟩ := not_shadows_iff.1 hTarget.not_shadows
  refine ⟨{ standing := result.standing, extra := further new }, ?_, rfl, ?_⟩
  · exact {
      conditions := Standing.conditionsField.read_new_of_read_merged
        (Field.flat_withDefault (Codec.flat_list _)) hTarget.conditions
        (get?_toObject_conditions hConditions) (hPresent _) hResult.conditions
      phase := Standing.phaseField.read_new_of_read_merged
        (Field.flat_withDefault Codec.flat_text) hTarget.phase
        (get?_toObject_phase hPhase) (hPresent _) hResult.phase
      extra := rfl }
  · refine Json.agree_object_iff.2 fun key => ?_
    rw [hResult.extra, get?_further, get?_further]
    split
    · rfl
    · rename_i hKey
      refine Json.map_plain_get?_mergeMembers ?_ (hMembers key)
      rw [get?_toObject, hTarget.extra, get?_further, if_neg hKey, Standing.get?_toObject]
      simp [not_or.1 hKey]

end Status

end Reconciliation
