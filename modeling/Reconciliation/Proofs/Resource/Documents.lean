import Reconciliation.Proofs.Resource.Patching
import Reconciliation.Store.Basic

namespace Reconciliation

open Json (mergeMembers diffObjects)
open Resource (statusKey)

namespace Json

variable {document : Json} {metadata : Object} {spec status : Option Json}

theorem Parts.eq_object (h : document.Parts metadata spec status) :
    document = .object document.members :=
  eq_object_of_isObject h.isObject

theorem Parts.setStatus (h : document.Parts metadata spec status) (status' : Option Json) :
    (document.setStatus status').Parts metadata spec status' := by
  obtain ⟨content, rfl⟩ : ∃ content, document = .object content := ⟨_, h.eq_object⟩
  cases status' with
  | none =>
      exact ⟨rfl, by simpa [Json.setStatus, Members.get?_erase, statusKey] using h.metadata,
        by simpa [Json.setStatus, Members.get?_erase, statusKey] using h.spec,
        by simp [Json.setStatus, status?, Members.get?_erase]⟩
  | some status' =>
      exact ⟨rfl, by simpa [Json.setStatus, statusKey] using h.metadata,
        by simpa [Json.setStatus, statusKey] using h.spec,
        by simp [Json.setStatus, status?]⟩

theorem Parts.mapMetadata (h : document.Parts metadata spec status) (f : Object → Object) :
    (document.mapMetadata f).Parts (f metadata) spec status := by
  obtain ⟨content, rfl⟩ : ∃ content, document = .object content := ⟨_, h.eq_object⟩
  have hMetadata := h.metadata
  simp only [members_object] at hMetadata
  simp only [Json.mapMetadata, hMetadata]
  exact ⟨rfl, by simp, by simpa using h.spec, by simpa [status?, statusKey] using h.status⟩

theorem Parts.withVersion (h : document.Parts metadata spec status) (version : String) :
    (document.withVersion version).Parts
      (metadata.insert "resourceVersion" (.string version)) spec status :=
  h.mapMetadata _

theorem Parts.version? (h : document.Parts metadata spec status) (version : String) :
    (document.withVersion version).version? = some version := by
  have hMetadata := (h.withVersion version).metadata
  simp [Json.version?, Json.metadata, hMetadata]

/-- A patch between two objects makes an object of any document. -/
theorem merge_diff_of_isObject (document : Json) {old new : Json} (hOld : old.isObject = true)
    (hNew : new.isObject = true) :
    merge document (diff old new) =
      .object (mergeMembers document.members (diffObjects old.members new.members)) := by
  rw [eq_object_of_isObject hOld, eq_object_of_isObject hNew, diff_object_object, merge_object]
  rfl

/-- A patch between two documents without status leaves the status alone. -/
theorem Parts.merge_diff {document old new : Json} {metadata oldMetadata newMetadata : Object}
    {spec oldSpec newSpec status : Option Json} (h : document.Parts metadata spec status)
    (hOld : old.Parts oldMetadata oldSpec none) (hNew : new.Parts newMetadata newSpec none) :
    ∃ spec', (merge document (diff old new)).Parts
        (mergeMembers metadata (diffObjects oldMetadata newMetadata)) spec' status ∧
      (spec = oldSpec → (∀ value, newSpec = some value → value ≠ .null ∧ value.hasNull = false) →
        spec'.map plain = newSpec.map plain) := by
  rw [merge_diff_of_isObject document hOld.isObject hNew.isObject]
  refine ⟨_, ⟨rfl, ?_, rfl, ?_⟩, ?_⟩
  · exact get?_mergeMembers_object h.metadata hOld.metadata hNew.metadata
  · have hOldStatus : old.members.get? statusKey = none := hOld.status
    have hNewStatus : new.members.get? statusKey = none := hNew.status
    rw [status?, members_object, get?_mergeMembers_diffObjects, hOldStatus, hNewStatus]
    exact h.status
  · intro hSpec hNull
    rw [members_object, ← hNew.spec]
    exact map_plain_get?_mergeMembers (h.spec.trans (hSpec.trans hOld.spec.symm))
      fun value hValue => hNull value (hNew.spec.symm.trans hValue)

end Json

/-- A patch of the status does nothing but set the status. -/
theorem Store.patchedStatus_eq (before after : Option Json) (document : Json) :
    ∃ status, patchedStatus before after document = document.setStatus status := by
  unfold patchedStatus
  split
  · exact ⟨_, rfl⟩
  · exact ⟨_, rfl⟩

/-- The parts of a written resource. -/
theorem Resource.parts (resource : Resource) :
    (Json.object resource.toObject).Parts resource.metadata.toObject (some resource.spec)
      (resource.status.map Status.toJson) where
  isObject := rfl
  metadata := by simp [toObject, Json.Object.ofList, statusKey, Metadata.toJson]
  spec := by simp [toObject, Json.Object.ofList, statusKey]
  status := by simp [toObject, Json.Object.ofList, statusKey, Json.status?]

theorem Resource.parts_main (resource : Resource) :
    (Json.object resource.toObject).snapshot.main.Parts resource.metadata.toObject
      (some resource.spec) none :=
  resource.parts.setStatus none

theorem Resource.status_snapshot (resource : Resource) :
    (Json.object resource.toObject).snapshot.status = resource.status.map Status.toJson :=
  resource.parts.status

/-- A resource can be written unless its further members say that it cannot. -/
theorem Resource.toJson_eq_ok_iff {resource : Resource} {document : Json} :
    resource.toJson = .ok document ↔
      resource.unwritable = none ∧ document = .object resource.toObject := by
  unfold toJson
  cases resource.unwritable <;> simp [eq_comm]

theorem Resource.snapshot_eq_ok_iff {resource : Resource} {snapshot : Snapshot} :
    resource.snapshot = .ok snapshot ↔
      resource.unwritable = none ∧ snapshot = (Json.object resource.toObject).snapshot := by
  rw [Resource.snapshot, Except.map_eq_ok_iff]
  constructor
  · rintro ⟨document, hDocument, rfl⟩
    obtain ⟨hWritable, rfl⟩ := toJson_eq_ok_iff.1 hDocument
    exact ⟨hWritable, rfl⟩
  · rintro ⟨hWritable, rfl⟩
    exact ⟨_, toJson_eq_ok_iff.2 ⟨hWritable, rfl⟩, rfl⟩

theorem Resource.exists_unwritable_of_toJson {resource : Resource} {error : CodecError}
    (h : resource.toJson = .error error) : ∃ text, error = .unwritable text := by
  unfold toJson at h
  split at h
  · exact ⟨_, (Except.error.inj h).symm⟩
  · cases h

theorem Resource.exists_unwritable_of_snapshot {resource : Resource} {error : CodecError}
    (h : resource.snapshot = .error error) : ∃ text, error = .unwritable text := by
  rw [snapshot] at h
  cases hJson : resource.toJson with
  | error cause =>
      rw [hJson] at h
      cases h
      exact exists_unwritable_of_toJson hJson
  | ok document =>
      rw [hJson] at h
      cases h

/-- A document with metadata, as all that are committed have. -/
def Json.HasParts (document : Json) : Prop :=
  ∃ metadata spec status, document.Parts metadata spec status

namespace Json

theorem HasParts.setStatus {document : Json} (h : document.HasParts) (status : Option Json) :
    (document.setStatus status).HasParts := by
  obtain ⟨metadata, spec, _, hParts⟩ := h
  exact ⟨metadata, spec, status, hParts.setStatus status⟩

theorem HasParts.withVersion {document : Json} (h : document.HasParts) (version : String) :
    (document.withVersion version).HasParts := by
  obtain ⟨metadata, spec, status, hParts⟩ := h
  exact ⟨_, spec, status, hParts.withVersion version⟩

theorem HasParts.version? {document : Json} (h : document.HasParts) (version : String) :
    (document.withVersion version).version? = some version := by
  obtain ⟨metadata, spec, status, hParts⟩ := h
  exact hParts.version? version

theorem HasParts.status?_withVersion {document : Json} (h : document.HasParts) (version : String) :
    (document.withVersion version).status? = document.status? := by
  obtain ⟨metadata, spec, status, hParts⟩ := h
  exact (hParts.withVersion version).status.trans hParts.status.symm

theorem HasParts.mark {document : Json} (h : document.HasParts) (now : Timestamp) :
    (document.mark now).HasParts := by
  obtain ⟨metadata, spec, status, hParts⟩ := h
  exact ⟨_, spec, status, hParts.mapMetadata _⟩

theorem Parts.metadata_eq {document : Json} {metadata : Object} {spec status : Option Json}
    (h : document.Parts metadata spec status) : document.metadata = metadata := by
  rw [Json.metadata, h.metadata]
  rfl

theorem HasParts.metadata_setStatus {document : Json} (h : document.HasParts)
    (status : Option Json) : (document.setStatus status).metadata = document.metadata := by
  obtain ⟨metadata, spec, _, hParts⟩ := h
  rw [(hParts.setStatus status).metadata_eq, hParts.metadata_eq]

theorem HasParts.metadata_mapMetadata {document : Json} (h : document.HasParts)
    (f : Object → Object) : (document.mapMetadata f).metadata = f document.metadata := by
  obtain ⟨metadata, spec, status, hParts⟩ := h
  rw [(hParts.mapMetadata f).metadata_eq, hParts.metadata_eq]

/-- The metadata after everything but the status was patched. -/
theorem HasParts.metadata_merge {document : Json} (h : document.HasParts) (old new : Resource) :
    (Json.merge document (Json.diff (Json.object old.toObject).snapshot.main
      (Json.object new.toObject).snapshot.main)).metadata =
      mergeMembers document.metadata
        (diffObjects old.metadata.toObject new.metadata.toObject) := by
  obtain ⟨metadata, spec, status, hParts⟩ := h
  obtain ⟨_, hMerged, -⟩ := hParts.merge_diff old.parts_main new.parts_main
  rw [hMerged.metadata_eq, hParts.metadata_eq]

/-- Each member of the metadata after such a patch is the one that was there or the one that the
patch leads to. -/
theorem HasParts.get?_metadata_merge {document : Json} (h : document.HasParts) (old new : Resource)
    (key : String) :
    (Json.merge document (Json.diff (Json.object old.toObject).snapshot.main
      (Json.object new.toObject).snapshot.main)).metadata.get? key = document.metadata.get? key ∨
    (Json.merge document (Json.diff (Json.object old.toObject).snapshot.main
      (Json.object new.toObject).snapshot.main)).metadata.get? key =
        new.metadata.toObject.get? key := by
  rw [h.metadata_merge]
  exact get?_mergeMembers_diffObjects_of_leaf (new.metadata.leaves_toObject key)

end Json

theorem Resource.metadata_toObject (resource : Resource) :
    (Json.object resource.toObject).metadata = resource.metadata.toObject :=
  resource.parts.metadata_eq

theorem Resource.hasParts (resource : Resource) : (Json.object resource.toObject).HasParts :=
  ⟨_, _, _, resource.parts⟩

/-- The version of a resource is the one of the document that it was read from. -/
theorem Resource.version_of_ofJson {document : Json} {resource : Resource} {version : String}
    (hParts : document.HasParts) (hVersion : document.version? = some version)
    (hRead : Resource.ofJson document = .ok resource) :
    resource.metadata.version = some version ∧ resource.unwritable = none := by
  obtain ⟨metadata, spec, status, hParts⟩ := hParts
  have hFrom := (Resource.ofJson_eq_ok_iff hParts).1 hRead
  refine ⟨?_, hFrom.writable⟩
  have hMember : metadata.get? "resourceVersion" = some (.string version) := by
    rw [Json.version?, hParts.metadata_eq] at hVersion
    split at hVersion
    · rename_i found hFound
      rw [hFound, Option.some.inj hVersion]
    · cases hVersion
  have hField := hFrom.metadata.version
  rw [hMember] at hField
  exact (Except.ok.inj hField).symm

end Reconciliation
