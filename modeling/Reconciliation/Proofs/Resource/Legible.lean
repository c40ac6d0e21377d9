import Reconciliation.Proofs.Resource.ReadBack

/-!
Documents that a resource can be read from. A patch between two of their kind makes another one of a
third, unless it takes the specification out, as it does where it leads to null.
-/
namespace Reconciliation

open Json (mergeMembers diffObjects)

/-- A document that a resource can be read from. -/
def Json.Legible (document : Json) : Prop :=
  ∃ resource, Resource.ofJson document = .ok resource

/-- What can be read in two places can be read in a third one that looks like one of them. -/
theorem Field.exists_read_of_or {α : Type} (field : Field α) {first second third : Option Json}
    {value value' : α} (h : field.read first = .ok value) (h' : field.read second = .ok value')
    (hThird : third = first ∨ third = second) : ∃ found, field.read third = .ok found := by
  rcases hThird with rfl | rfl
  · exact ⟨value, h⟩
  · exact ⟨value', h'⟩

namespace Resource

/-- A resource that cannot be read is an error of reading. -/
theorem exists_unreadable_of_ofJson {document : Json} {error : CodecError}
    (h : ofJson document = .error error) : ∃ cause, error = .unreadable cause := by
  cases document with
  | object content =>
      obtain ⟨cause, -, hCause⟩ := Except.mapError_eq_error_iff.1 h
      exact ⟨cause, hCause.symm⟩
  | array items =>
      obtain ⟨cause, -, hCause⟩ := Except.mapError_eq_error_iff.1 h
      exact ⟨cause, hCause.symm⟩
  | _ => exact ⟨_, (Except.error.inj h).symm⟩

end Resource

namespace Metadata

/-- Whether metadata can be read from an object. -/
def Legible (object : Json.Object) : Prop :=
  ∃ metadata, ReadFrom object metadata

theorem Legible.of_members {first second third : Json.Object} (h : Legible first)
    (h' : Legible second)
    (hMembers : ∀ key, third.get? key = first.get? key ∨ third.get? key = second.get? key) :
    Legible third := by
  obtain ⟨_, h⟩ := h
  obtain ⟨_, h'⟩ := h'
  obtain ⟨name, hName⟩ := nameField.exists_read_of_or h.name h'.name (hMembers _)
  obtain ⟨space, hSpace⟩ := spaceField.exists_read_of_or h.space h'.space (hMembers _)
  obtain ⟨version, hVersion⟩ := versionField.exists_read_of_or h.version h'.version (hMembers _)
  obtain ⟨generation, hGeneration⟩ :=
    generationField.exists_read_of_or h.generation h'.generation (hMembers _)
  obtain ⟨finalizers, hFinalizers⟩ :=
    finalizersField.exists_read_of_or h.finalizers h'.finalizers (hMembers _)
  obtain ⟨deletion, hDeletion⟩ := deletionField.exists_read_of_or h.deletion h'.deletion (hMembers _)
  exact ⟨⟨name, space, version, generation, finalizers, deletion⟩,
    ⟨hName, hSpace, hVersion, hGeneration, hFinalizers, hDeletion⟩⟩

/-- Written metadata can be read if and only if they are sound. -/
theorem legible_toObject_iff {metadata : Metadata} : Legible metadata.toObject ↔ metadata.Sound := by
  constructor
  · rintro ⟨read, hRead⟩
    exact hRead.eq_of_writtenTo metadata.writtenTo_toObject ▸ hRead.sound
  · exact fun hSound => ⟨metadata, readFrom_toObject hSound⟩

theorem Legible.insert_version {object : Json.Object} (h : Legible object) (version : String) :
    Legible (object.insert "resourceVersion" (.string version)) := by
  obtain ⟨metadata, h⟩ := h
  exact ⟨{ metadata with version := some version }, readFrom_insert_version_iff.2
    ⟨rfl, h.name, h.space, h.generation, h.finalizers, h.deletion⟩⟩

theorem Legible.insert_deletion {object : Json.Object} (h : Legible object) {text : String}
    {instant : Timestamp} (hText : Rfc3339.read text = .ok instant) :
    Legible (object.insert "deletionTimestamp" (.string text)) := by
  obtain ⟨metadata, h⟩ := h
  have hOther : ∀ key ≠ "deletionTimestamp",
      (object.insert "deletionTimestamp" (.string text)).get? key = object.get? key :=
    fun key hKey => (Json.Object.get?_insert _ _ _ _).trans (if_neg hKey)
  refine ⟨{ metadata with deletion := some instant }, ?_, ?_, ?_, ?_, ?_, ?_⟩
  · exact hOther "name" (by decide) ▸ h.name
  · exact hOther "namespace" (by decide) ▸ h.space
  · exact hOther "resourceVersion" (by decide) ▸ h.version
  · exact hOther "generation" (by decide) ▸ h.generation
  · exact hOther "finalizers" (by decide) ▸ h.finalizers
  · rw [Json.Object.get?_insert, if_pos rfl]
    exact (Field.read_optional_eq_ok_iff (Codec.string_ne_null text)).2
      ⟨instant, Codec.asTimestamp_string_eq_ok_iff.2 hText, rfl⟩

end Metadata

namespace Status

/-- Whether a status, or none, can be read from what stands in its place. -/
def Legible (document : Option Json) : Prop :=
  ∃ status, MayReadFrom document status

/-- What stands where the conditions are read from is no null and no object. -/
theorem ReadFrom.isLeaf_conditions {object : Json.Object} {status : Status}
    (h : ReadFrom object status) (value : Json) (hValue : object.get? "conditions" = some value) :
    value.IsLeaf := by
  have hRead := h.conditions
  rw [hValue] at hRead
  refine ⟨?_, Field.flat_withDefault (Codec.flat_list _) hRead⟩
  rintro rfl
  cases hRead

theorem ReadFrom.isLeaf_phase {object : Json.Object} {status : Status}
    (h : ReadFrom object status) (value : Json) (hValue : object.get? "phase" = some value) :
    value.IsLeaf := by
  have hRead := h.phase
  rw [hValue] at hRead
  refine ⟨?_, Field.flat_withDefault Codec.flat_text hRead⟩
  rintro rfl
  cases hRead

/-- A patch between two statuses that can be read makes one that can be read of a third. -/
theorem ReadFrom.exists_merged {target new : Json.Object} {stored status : Status}
    (h : ReadFrom target stored) (old : Json.Object) (h' : ReadFrom new status) :
    ∃ result, ReadFrom (mergeMembers target (diffObjects old new)) result := by
  obtain ⟨conditions, hConditions⟩ := Standing.conditionsField.exists_read_of_or h.conditions
    h'.conditions (Json.get?_mergeMembers_diffObjects_of_leaf h'.isLeaf_conditions)
  obtain ⟨phase, hPhase⟩ := Standing.phaseField.exists_read_of_or h.phase h'.phase
    (Json.get?_mergeMembers_diffObjects_of_leaf h'.isLeaf_phase)
  exact ⟨{ standing := { conditions, phase := ⟨phase⟩ }, extra := further _ },
    ⟨hConditions, hPhase, rfl⟩⟩

/-- The members that a status is merged into can be read, if there is none as well. -/
theorem MayReadFrom.exists_members {document : Option Json} {status : Option Status}
    (h : MayReadFrom document status) :
    ∃ stored, ReadFrom (document.getD .null).members stored := by
  have hEmpty : ReadFrom .nil {} := ⟨rfl, rfl, rfl⟩
  cases h with
  | absent => exact ⟨_, hEmpty⟩
  | null => exact ⟨_, hEmpty⟩
  | object h => exact ⟨_, h⟩

/-- What agrees with a status that was read can be read as well. -/
theorem MayReadFrom.legible_of_agree {document : Option Json} {status new : Option Status}
    (h : MayReadFrom document status)
    (hAgree : (status.map toJson).map Json.plain = (new.map toJson).map Json.plain) :
    Legible (new.map toJson) := by
  obtain ⟨read, hRead, -⟩ := h.of_agree hAgree
  exact ⟨read, hRead⟩

/-- A change of status leads to a status that can be read, if the new one can. -/
theorem Legible.patchedStatus {document : Json} {metadata : Json.Object} {spec stored : Option Json}
    (hParts : document.Parts metadata spec stored) (h : Legible stored) (base : Option Status)
    {new : Option Status} (hNew : Legible (new.map toJson)) :
    Legible (Store.patchedStatus (base.map toJson) (new.map toJson) document).status? := by
  rcases status?_patchedStatus hParts base new with hSame | ⟨before, after, -, rfl, hMerged⟩
  · rwa [hSame]
  · obtain ⟨_, hStored⟩ := h
    obtain ⟨_, hTarget⟩ := hStored.exists_members
    obtain ⟨_, hRead⟩ := hNew
    cases hRead with
    | object hRead =>
        obtain ⟨result, hResult⟩ := hTarget.exists_merged before.toObject hRead
        exact ⟨some result, hMerged ▸ .object hResult⟩

end Status

namespace Json

variable {document : Json} {metadata : Object} {spec status : Option Json}

/-- A document can be read if and only if its three parts can. -/
theorem Parts.legible_iff (h : document.Parts metadata spec status) :
    document.Legible ↔
      Metadata.Legible metadata ∧ (∃ value, spec = some value) ∧ Status.Legible status := by
  constructor
  · rintro ⟨resource, hRead⟩
    have hFrom := (Resource.ofJson_eq_ok_iff h).1 hRead
    exact ⟨⟨_, hFrom.metadata⟩, ⟨_, hFrom.spec⟩, ⟨_, hFrom.status⟩⟩
  · rintro ⟨⟨metadata', hMetadata⟩, ⟨value, hSpec⟩, ⟨status', hStatus⟩⟩
    exact ⟨{ metadata := metadata', spec := value, status := status' },
      (Resource.ofJson_eq_ok_iff h).2 ⟨hMetadata, hSpec, hStatus, rfl⟩⟩

theorem Legible.legible_status (h : document.Legible) (hParts : document.HasParts) :
    Status.Legible document.status? := by
  obtain ⟨_, _, _, hParts⟩ := hParts
  exact hParts.status.symm ▸ (hParts.legible_iff.1 h).2.2

theorem Legible.withVersion (h : document.Legible) (hParts : document.HasParts) (version : String) :
    (document.withVersion version).Legible := by
  obtain ⟨_, _, _, hParts⟩ := hParts
  obtain ⟨hMetadata, hRest⟩ := hParts.legible_iff.1 h
  exact (hParts.withVersion version).legible_iff.2 ⟨hMetadata.insert_version version, hRest⟩

theorem Legible.setStatus (h : document.Legible) (hParts : document.HasParts)
    {status : Option Json} (hStatus : Status.Legible status) :
    (document.setStatus status).Legible := by
  obtain ⟨_, _, _, hParts⟩ := hParts
  obtain ⟨hMetadata, hSpec, -⟩ := hParts.legible_iff.1 h
  exact (hParts.setStatus status).legible_iff.2 ⟨hMetadata, hSpec, hStatus⟩

/-- A mark can be read that was set at an instant with a text to be read. -/
theorem Legible.mark (h : document.Legible) (hParts : document.HasParts) {now : Timestamp}
    (hRange : Rfc3339.secondsRange.1 ≤ now.seconds ∧ now.seconds ≤ Rfc3339.secondsRange.2) :
    (document.mark now).Legible := by
  obtain ⟨_, _, _, hParts⟩ := hParts
  obtain ⟨hMetadata, hRest⟩ := hParts.legible_iff.1 h
  refine (hParts.mapMetadata _).legible_iff.2 ⟨?_, hRest⟩
  split
  · exact hMetadata
  · exact hMetadata.insert_deletion (Rfc3339.read_writeWithOffset hRange)

/-- A document stays readable under a patch to a status that can be read. -/
theorem Legible.patchedStatus (h : document.Legible) (hParts : document.HasParts)
    (base : Option Status) {new : Option Status}
    (hNew : Status.Legible (new.map Status.toJson)) :
    (Store.patchedStatus (base.map Status.toJson) (new.map Status.toJson) document).Legible := by
  have hStatus := h.legible_status hParts
  have ⟨_, _, _, hDocument⟩ := hParts
  rw [hDocument.status] at hStatus
  have hChanged := hStatus.patchedStatus hDocument base hNew
  obtain ⟨status, hPatched⟩ := Store.patchedStatus_eq (base.map Status.toJson)
    (new.map Status.toJson) document
  rw [hPatched, (hDocument.setStatus status).status] at hChanged
  exact hPatched ▸ h.setStatus hParts hChanged

end Json

/-- A resource can get another status if that can be read. -/
theorem Resource.withStatus_cases {resource : Resource} (hSound : resource.metadata.Sound)
    (hWritable : resource.unwritable = none) (status : Option Json) :
    (Status.Legible status ∧ ∃ read, resource.withStatus status = .ok read) ∨
    ¬Status.Legible status ∧ ∃ cause, resource.withStatus status = .error (.unreadable cause) := by
  have hWith : resource.withStatus status =
      ofJson ((Json.object resource.toObject).setStatus status) := by
    rw [withStatus, toJson_eq_ok_iff.2 ⟨hWritable, rfl⟩]
    rfl
  have hLegible : ((Json.object resource.toObject).setStatus status).Legible ↔
      Status.Legible status := by
    rw [(resource.parts.setStatus status).legible_iff, Metadata.legible_toObject_iff]
    simp [hSound]
  rw [hWith]
  cases hRead : ofJson ((Json.object resource.toObject).setStatus status) with
  | ok read => exact .inl ⟨hLegible.1 ⟨read, hRead⟩, read, rfl⟩
  | error error =>
      obtain ⟨cause, rfl⟩ := exists_unreadable_of_ofJson hRead
      refine .inr ⟨fun hStatus => ?_, cause, rfl⟩
      obtain ⟨read, hOk⟩ := hLegible.2 hStatus
      cases hRead.symm.trans hOk

/-- Whether a patch takes the specification out, since it leads to null. -/
def Resource.DropsSpec (resource base : Resource) : Prop :=
  resource.spec = .null ∧ base.spec ≠ .null

namespace Json

variable {document : Json} {metadata metadata' : Object} {spec spec' status status' : Option Json}
  {resource base : Resource}

theorem Parts.spec_of_merge
    (h : (merge document (diff (Json.object base.toObject).snapshot.main
      (Json.object resource.toObject).snapshot.main)).Parts metadata spec status) :
    spec = (mergeMembers document.members
      (diffObjects (Json.object base.toObject).snapshot.main.members
        (Json.object resource.toObject).snapshot.main.members)).get? "spec" := by
  rw [← h.spec, merge_diff_of_isObject document base.parts_main.isObject
    resource.parts_main.isObject, members_object]

theorem Parts.spec_eq_none_of_dropsSpec (h : resource.DropsSpec base)
    (hMerged : (merge document (diff (Json.object base.toObject).snapshot.main
      (Json.object resource.toObject).snapshot.main)).Parts metadata spec status) : spec = none := by
  obtain ⟨hNull, hBase⟩ := h
  have hNew := resource.parts_main.spec
  rw [hNull] at hNew
  rw [hMerged.spec_of_merge, get?_mergeMembers_diffObjects_of_null hNew, base.parts_main.spec]
  exact if_neg fun hPlain => hBase (plain_eq_null_iff.1 (Option.some.inj hPlain))

/-- A patch that does not drop the specification leaves one there. -/
theorem Parts.exists_spec_of_not_dropsSpec (h : ¬resource.DropsSpec base)
    (hParts : document.Parts metadata spec status) {value : Json} (hSpec : spec = some value)
    (hMerged : (merge document (diff (Json.object base.toObject).snapshot.main
      (Json.object resource.toObject).snapshot.main)).Parts metadata' spec' status') :
    ∃ value', spec' = some value' := by
  have hStored : document.members.get? "spec" = some value := hParts.spec.trans hSpec
  rw [hMerged.spec_of_merge]
  by_cases hNull : resource.spec = .null
  · have hNew := resource.parts_main.spec
    rw [hNull] at hNew
    have hBase : base.spec = .null := Classical.not_not.1 fun hBase => h ⟨hNull, hBase⟩
    have hNone : (some base.spec).map plain = some .null := by rw [hBase]; rfl
    rw [get?_mergeMembers_diffObjects_of_null hNew, base.parts_main.spec, if_pos hNone]
    exact ⟨value, hStored⟩
  · rw [get?_mergeMembers_diffObjects_of_ne_null resource.parts_main.spec hNull,
      base.parts_main.spec]
    dsimp only
    split
    · exact ⟨value, hStored⟩
    · exact ⟨_, rfl⟩

/-- What comes of a patch to metadata that can be read can be read, unless the patch takes the
specification out. -/
theorem Legible.merge_iff (h : document.Legible) (hParts : document.HasParts)
    (hNew : resource.metadata.Sound) :
    (merge document (diff (Json.object base.toObject).snapshot.main
      (Json.object resource.toObject).snapshot.main)).Legible ↔ ¬resource.DropsSpec base := by
  obtain ⟨_, _, _, hParts⟩ := hParts
  obtain ⟨spec', hMerged, -⟩ := hParts.merge_diff base.parts_main resource.parts_main
  obtain ⟨hMetadata, ⟨value, hSpec⟩, hStatus⟩ := hParts.legible_iff.1 h
  rw [hMerged.legible_iff]
  constructor
  · rintro ⟨-, ⟨value', hSpec'⟩, -⟩ hDrops
    cases hSpec'.symm.trans (hMerged.spec_eq_none_of_dropsSpec hDrops)
  · intro hKeeps
    refine ⟨hMetadata.of_members (Metadata.legible_toObject_iff.2 hNew) fun key => ?_,
      hParts.exists_spec_of_not_dropsSpec hKeeps hSpec hMerged, hStatus⟩
    exact get?_mergeMembers_diffObjects_of_leaf (resource.metadata.leaves_toObject key)

end Json

end Reconciliation
