import Reconciliation.Proofs.Resource.Documents

/-!
What is read back after a resource was written by patches. Further members of a status that stand
where its standing belongs are read as the standing; apart from that, and from the version and the
signs of zeros, a resource is read back as it was.
-/
namespace Reconciliation

open Json (mergeMembers diffObjects)

namespace Status

theorem Agree.refl (status : Status) : status.Agree status :=
  ⟨rfl, rfl⟩

/-- At most one status is read from a document. -/
theorem MayReadFrom.unique {document : Option Json} {status status' : Option Status}
    (h : MayReadFrom document status) (h' : MayReadFrom document status') : status' = status :=
  Except.ok.inj ((mayReadFrom_iff.2 h').symm.trans (mayReadFrom_iff.2 h))

/-- A status that was read is read again as it is written. -/
theorem MayReadFrom.read_write {document : Option Json} {status : Option Status}
    (h : MayReadFrom document status) : MayReadFrom (status.map toJson) status := by
  cases h with
  | absent => exact .absent
  | null => exact .absent
  | object h => exact .object (readFrom_toObject h.sound h.not_shadows)

/-- What agrees with a document that can be read can be read as well, and the statuses agree. -/
theorem MayReadFrom.of_agree {document : Option Json} {status new : Option Status}
    (h : MayReadFrom document status)
    (hAgree : (status.map toJson).map Json.plain = (new.map toJson).map Json.plain) :
    ∃ read, MayReadFrom (new.map toJson) read ∧ Option.Rel Agree status read := by
  cases status with
  | none =>
      cases new with
      | none => exact ⟨none, .absent, .none⟩
      | some new => cases hAgree
  | some status =>
      cases new with
      | none => cases hAgree
      | some new =>
          cases h with
          | object h =>
              have hWritten := readFrom_toObject h.sound h.not_shadows
              obtain ⟨read, hRead, hSame⟩ := hWritten.of_agree (Option.some.inj hAgree)
              exact ⟨some read, .object hRead, .some hSame⟩

/-- A change of status puts the new status in place of the old one, or merges the difference into
what is stored. -/
theorem status?_patchedStatus {document : Json} {metadata : Json.Object} {spec stored : Option Json}
    (hParts : document.Parts metadata spec stored) (base new : Option Status) :
    let changed := (Store.patchedStatus (base.map toJson) (new.map toJson) document).status?
    changed = new.map toJson ∨ ∃ before after, base = some before ∧ new = some after ∧
      changed = some (.object (mergeMembers (stored.getD .null).members
        (diffObjects before.toObject after.toObject))) := by
  have hReplaced : ∀ status?, (document.setStatus status?).status? = status? :=
    fun status? => (hParts.setStatus status?).status
  cases base with
  | none => exact .inl (hReplaced (new.map toJson))
  | some before =>
      cases new with
      | none => exact .inl (hReplaced none)
      | some after =>
          refine .inr ⟨before, after, rfl, rfl, ?_⟩
          simp only [Option.map_some, Store.patchedStatus]
          rw [hReplaced, hParts.status]
          simp [toJson, toObject]

/-- A patch of the status leads to the status to be written, or is merged into the stored one. -/
theorem MayReadFrom.status?_patchedStatus {document : Json} {metadata : Json.Object}
    {spec stored : Option Json} {base : Option Status}
    (hParts : document.Parts metadata spec stored) (h : MayReadFrom stored base)
    (new : Option Status) :
    let changed := (Store.patchedStatus (base.map toJson) (new.map toJson) document).status?
    changed = new.map toJson ∨ ∃ target before after, ReadFrom target before ∧ base = some before ∧
      new = some after ∧
      changed = some (.object (mergeMembers target (diffObjects before.toObject after.toObject))) := by
  rcases Status.status?_patchedStatus hParts base new with
    hSame | ⟨before, after, rfl, rfl, hMerged⟩
  · exact .inl hSame
  · cases h with
    | object h => exact .inr ⟨_, before, after, h, rfl, rfl, hMerged⟩

/-- A status after a change of status, and what the new status is read as. -/
theorem MayReadFrom.of_patchedStatus {document : Json} {metadata : Json.Object}
    {spec stored : Option Json} {base new result : Option Status}
    (hParts : document.Parts metadata spec stored) (h : MayReadFrom stored base)
    (hNull : ∀ status, new = some status → status.toJson.hasNull = false)
    (hResult : MayReadFrom
      (Store.patchedStatus (base.map toJson) (new.map toJson) document).status? result) :
    ∃ read, MayReadFrom (new.map toJson) read ∧ Option.Rel Agree result read := by
  rcases h.status?_patchedStatus hParts new with
    hSame | ⟨target, before, after, hTarget, rfl, rfl, hMerged⟩
  · refine ⟨result, hSame ▸ hResult, ?_⟩
    cases result with
    | none => exact .none
    | some result => exact .some (Agree.refl result)
  · rw [hMerged] at hResult
    cases hResult with
    | object hResult =>
        obtain ⟨read, hRead, hSame⟩ := hTarget.of_patched (hNull after rfl) hResult
        exact ⟨some read, .object hRead, .some hSame⟩

/-- Conditions are read as they were written, if nothing else stands in their place. -/
theorem MayReadFrom.conditions_eq {written : Status} {read : Option Status}
    (h : MayReadFrom (some written.toJson) read) (hClear : written.extra.get? "conditions" = none) :
    ∃ status, read = some status ∧ status.standing.conditions = written.standing.conditions := by
  cases h with
  | @object _ status h =>
      refine ⟨status, rfl, Standing.conditionsField.eq_of_read_write ?_⟩
      rw [← get?_toObject_conditions hClear]
      exact h.conditions

/-- Conditions are read as they were written by a change of status, whatever becomes of the rest. -/
theorem MayReadFrom.conditions_eq_of_patchedStatus {document : Json} {metadata : Json.Object}
    {spec stored : Option Json} {base result : Option Status} {new : Status}
    (hParts : document.Parts metadata spec stored) (h : MayReadFrom stored base)
    (hClear : new.extra.get? "conditions" = none)
    (hResult : MayReadFrom
      (Store.patchedStatus (base.map toJson) (some new.toJson) document).status? result) :
    ∃ status, result = some status ∧ status.standing.conditions = new.standing.conditions := by
  rw [← Option.map_some] at hResult
  rcases h.status?_patchedStatus hParts (some new) with
    hSame | ⟨target, before, after, hTarget, rfl, hNew, hMerged⟩
  · rw [hSame] at hResult
    exact hResult.conditions_eq hClear
  · cases hNew
    rw [hMerged] at hResult
    cases hResult with
    | @object _ status hResult =>
        refine ⟨status, rfl, ?_⟩
        exact Standing.conditionsField.eq_of_read_merged (Field.flat_withDefault (Codec.flat_list _))
          hTarget.conditions (get?_toObject_conditions (not_shadows_iff.1 hTarget.not_shadows).1)
          (get?_toObject_conditions hClear) hResult.conditions

theorem hasNull_toObject_standing (standing : Standing) :
    (Json.object standing.toObject).hasNull = false := by
  rw [Json.hasNull_object_eq_false_iff]
  intro key value h
  rw [Standing.get?_toObject] at h
  split at h
  · simp only [Standing.conditionsField, Field.withDefault, Codec.list] at h
    split at h
    · cases h
    · cases h
      exact ⟨Codec.array_ne_null _, rfl⟩
  · split at h
    · simp only [Standing.phaseField, Field.withDefault, Codec.text] at h
      split at h
      · cases h
      · cases h
        exact ⟨Codec.string_ne_null _, rfl⟩
    · cases h

/-- No null comes up where a status is read and written again. -/
theorem ReadFrom.hasNull_toJson {object : Json.Object} {status : Status}
    (h : ReadFrom object status) (hNull : (Json.object object).hasNull = false) :
    status.toJson.hasNull = false := by
  show (Json.object status.toObject).hasNull = false
  rw [Json.hasNull_object_eq_false_iff] at hNull ⊢
  intro key value hValue
  rw [get?_toObject, Option.or_eq_some_iff] at hValue
  rcases hValue with hExtra | ⟨-, hStanding⟩
  · rw [h.extra, get?_further] at hExtra
    split at hExtra
    · cases hExtra
    · exact hNull key value hExtra
  · exact Json.hasNull_object_eq_false_iff.1 (hasNull_toObject_standing _) key value hStanding

theorem MayReadFrom.hasNull_toJson {written read : Option Status}
    (h : MayReadFrom (written.map toJson) read)
    (hNull : ∀ status, written = some status → status.toJson.hasNull = false) :
    ∀ status, read = some status → status.toJson.hasNull = false := by
  rintro status rfl
  cases written with
  | none => cases h
  | some written =>
      cases h with
      | object h => exact h.hasNull_toJson (hNull written rfl)

end Status

namespace Resource

/-- Equal but for the version and the signs of zeros. -/
structure AgreeBesideVersion (a b : Resource) : Prop where
  metadata : a.metadata = { b.metadata with version := a.metadata.version }
  spec : a.spec.Agree b.spec
  status : Option.Rel Status.Agree a.status b.status

/-- Whether further members of the status stand where its standing belongs. -/
def Shadows (resource : Resource) : Prop :=
  ∃ status, resource.status = some status ∧ status.Shadows

/-- What is read of the status of a document. -/
theorem mayReadFrom_of_ofJson {document : Json} {read : Resource} (hParts : document.HasParts)
    (h : ofJson document = .ok read) : Status.MayReadFrom document.status? read.status := by
  obtain ⟨_, _, status, hParts⟩ := hParts
  rw [hParts.status]
  exact ((ofJson_eq_ok_iff hParts).1 h).status

/-- A status is read as it was written, if no further members are in the way of its standing. -/
theorem status_eq_of_mayReadFrom {resource read : Resource}
    (h : Status.MayReadFrom (resource.status.map Status.toJson) read.status)
    (hShadows : ¬resource.Shadows) : read.status = resource.status := by
  cases hWritten : resource.status with
  | none =>
      rw [hWritten] at h
      exact Status.MayReadFrom.unique .absent h
  | some status =>
      have hPlain : ¬status.Shadows := fun h => hShadows ⟨status, hWritten, h⟩
      rw [hWritten] at h
      generalize read.status = found at h
      cases h with
      | object hObject => rw [hObject.eq_of_toObject hPlain]

/-- Conditions are read as they were written, if no further member stands in their place. -/
theorem conditions_eq_of_mayReadFrom {resource read : Resource}
    (h : Status.MayReadFrom (resource.status.map Status.toJson) read.status)
    (hClear : ∀ status, resource.status = some status → status.extra.get? "conditions" = none) :
    read.standing.conditions = resource.standing.conditions := by
  cases hWritten : resource.status with
  | none =>
      rw [hWritten] at h
      rw [standing, standing, hWritten, Status.MayReadFrom.unique .absent h]
  | some status =>
      rw [hWritten] at h
      obtain ⟨found, hFound, hSame⟩ := h.conditions_eq (hClear status hWritten)
      rw [standing, standing, hWritten, hFound]
      exact hSame

/-- A resource is read as it was written, if no further members are in the way of its standing. -/
theorem eq_of_ofJson_toObject {resource read : Resource}
    (h : ofJson (.object resource.toObject) = .ok read) (hShadows : ¬resource.Shadows)
    (hWritable : resource.unwritable = none) : read = resource := by
  have hRead := (ofJson_eq_ok_iff resource.parts).1 h
  have hMetadata := hRead.metadata.eq_of_writtenTo resource.metadata.writtenTo_toObject
  have hSpec := Option.some.inj hRead.spec
  have hStatus := status_eq_of_mayReadFrom hRead.status hShadows
  have hUnwritable := hRead.writable
  obtain ⟨metadata, spec, status, unwritable⟩ := resource
  obtain ⟨metadata', spec', status', unwritable'⟩ := read
  simp_all

/-- What a resource is read as whose metadata can be read. -/
theorem ofJson_toObject {resource : Resource} {status : Option Status}
    (hMetadata : resource.metadata.Sound)
    (hStatus : Status.MayReadFrom (resource.status.map Status.toJson) status) :
    ofJson (.object resource.toObject) = .ok { resource with status, unwritable := none } :=
  (ofJson_eq_ok_iff resource.parts).2 {
    metadata := Metadata.readFrom_toObject hMetadata
    spec := rfl
    status := hStatus
    writable := rfl }

/-- A resource with another status keeps the rest. -/
theorem of_withStatus_eq_ok {resource read : Resource} {status : Option Json}
    (h : resource.withStatus status = .ok read) :
    read.metadata = resource.metadata ∧ Status.MayReadFrom status read.status ∧
      read.unwritable = none := by
  obtain ⟨document, hDocument, hRead⟩ := Except.bind_eq_ok_iff.1 h
  obtain ⟨-, rfl⟩ := toJson_eq_ok_iff.1 hDocument
  have hFrom := (ofJson_eq_ok_iff (resource.parts.setStatus status)).1 hRead
  have hMetadata := hFrom.metadata.eq_of_writtenTo resource.metadata.writtenTo_toObject
  exact ⟨hMetadata, hFrom.status, hFrom.writable⟩

theorem exists_read_agreeBesideVersion {new found : Resource}
    (hMetadata : found.metadata = { new.metadata with version := found.metadata.version })
    (hSound : found.metadata.Sound) (hSpec : found.spec.Agree new.spec)
    (hStatus : ∃ read, Status.MayReadFrom (new.status.map Status.toJson) read ∧
      Option.Rel Status.Agree found.status read) :
    ∃ read, ofJson (.object new.toObject) = .ok read ∧ found.AgreeBesideVersion read := by
  obtain ⟨status, hRead, hAgree⟩ := hStatus
  have hNewSound : new.metadata.Sound := by
    rw [hMetadata] at hSound
    exact hSound
  exact ⟨_, ofJson_toObject hNewSound hRead, hMetadata, hSpec, hAgree⟩

/-- What is read after everything but the status was patched, under a new version. -/
theorem of_patched_main {document : Json} {metadata : Json.Object} {spec status : Option Json}
    (hParts : document.Parts metadata spec status) {base new result : Resource} {version : String}
    (hBase : ReadFrom metadata spec status base)
    (hResult : ofJson ((Json.merge document (Json.diff (Json.object base.toObject).snapshot.main
      (Json.object new.toObject).snapshot.main)).withVersion version) = .ok result) :
    (∃ metadata' spec', ((Json.merge document (Json.diff
        (Json.object base.toObject).snapshot.main
        (Json.object new.toObject).snapshot.main)).withVersion version).Parts
          metadata' spec' status ∧ ReadFrom metadata' spec' status result) ∧
      result.metadata = { new.metadata with version := some version } ∧
      (new.spec ≠ .null → new.spec.hasNull = false → result.spec.Agree new.spec) ∧
      result.status = base.status := by
  obtain ⟨spec', hMerged, hSpec⟩ :=
    hParts.merge_diff base.parts_main new.parts_main
  have hWritten := hMerged.withVersion version
  have hRead := (ofJson_eq_ok_iff hWritten).1 hResult
  refine ⟨⟨_, _, hWritten, hRead⟩, hBase.metadata.eq_of_patched hRead.metadata, ?_, ?_⟩
  · intro hSome hNull
    have hPlain := hSpec hBase.spec fun value hValue => Option.some.inj hValue ▸ ⟨hSome, hNull⟩
    rw [hRead.spec] at hPlain
    exact Option.some.inj hPlain
  · exact Status.MayReadFrom.unique hBase.status hRead.status

/-- What is read after the status was patched, under a new version. -/
theorem of_patched_status {document : Json} {metadata : Json.Object} {spec status : Option Json}
    (hParts : document.Parts metadata spec status) {base result : Resource} {version : String}
    {before after : Option Json} (hBase : ReadFrom metadata spec status base)
    (hResult : ofJson ((Store.patchedStatus before after document).withVersion version) =
      .ok result) :
    result.metadata = { base.metadata with version := some version } ∧
      result.spec = base.spec ∧
      Status.MayReadFrom (Store.patchedStatus before after document).status? result.status := by
  obtain ⟨status', hChanged⟩ := Store.patchedStatus_eq before after document
  have hPatched := hChanged ▸ hParts.setStatus status'
  have hRead := (ofJson_eq_ok_iff (hPatched.withVersion version)).1 hResult
  refine ⟨hBase.metadata.eq_of_insert_version hRead.metadata, ?_, ?_⟩
  · exact Option.some.inj (hRead.spec.symm.trans hBase.spec)
  · rw [hPatched.status]
    exact hRead.status

/-- Resources that agree but for the status. -/
theorem of_main_agree {a b : Resource} (hSound : a.metadata.Sound)
    (h : (Json.object a.toObject).snapshot.MainAgree (Json.object b.toObject).snapshot) :
    a.metadata = b.metadata ∧ a.spec.Agree b.spec := by
  have hParts := a.parts_main
  have hParts' := b.parts_main
  have hMembers : ∀ key, ((Json.object a.toObject).snapshot.main.members.get? key).map Json.plain =
      ((Json.object b.toObject).snapshot.main.members.get? key).map Json.plain := by
    apply Json.agree_object_iff.1
    have hAgree : (Json.object a.toObject).snapshot.main.Agree
        (Json.object b.toObject).snapshot.main := h
    rwa [hParts.eq_object, hParts'.eq_object] at hAgree
  have hMetadata := hMembers "metadata"
  have hSpec := hMembers "spec"
  rw [hParts.metadata, hParts'.metadata] at hMetadata
  rw [hParts.spec, hParts'.spec] at hSpec
  have hRead := (Metadata.readFrom_toObject hSound).of_agree (Option.some.inj hMetadata)
  exact ⟨hRead.eq_of_writtenTo b.metadata.writtenTo_toObject, Option.some.inj hSpec⟩

end Resource

end Reconciliation
