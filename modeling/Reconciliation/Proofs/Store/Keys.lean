import Reconciliation.Proofs.Store.Writing

namespace Reconciliation

/-- The name and the namespace in a document. -/
structure Json.BelongsTo (document : Json) (key : Key) : Prop where
  name : Metadata.nameField.read (document.metadata.get? "name") = .ok key.name
  space : Metadata.spaceField.read (document.metadata.get? "namespace") = .ok key.space

namespace Json

variable {document : Json} {key : Key}

theorem BelongsTo.of_metadata {document' : Json} (h : document.BelongsTo key)
    (hName : document'.metadata.get? "name" = document.metadata.get? "name")
    (hSpace : document'.metadata.get? "namespace" = document.metadata.get? "namespace") :
    document'.BelongsTo key :=
  ⟨hName ▸ h.name, hSpace ▸ h.space⟩

theorem BelongsTo.setStatus (h : document.BelongsTo key) (hParts : document.HasParts)
    (status : Option Json) : (document.setStatus status).BelongsTo key := by
  have hMetadata := hParts.metadata_setStatus status
  exact h.of_metadata (by rw [hMetadata]) (by rw [hMetadata])

theorem BelongsTo.withVersion (h : document.BelongsTo key) (hParts : document.HasParts)
    (version : String) : (document.withVersion version).BelongsTo key := by
  have hMetadata := hParts.metadata_mapMetadata fun metadata =>
    metadata.insert "resourceVersion" (.string version)
  exact h.of_metadata (by rw [Json.withVersion, hMetadata]; simp)
    (by rw [Json.withVersion, hMetadata]; simp)

/-- A mark is all that marking adds to the metadata. -/
theorem HasParts.get?_mark (h : document.HasParts) (now : Timestamp) (member : String)
    (hMember : member ≠ "deletionTimestamp") :
    (document.mark now).metadata.get? member = document.metadata.get? member := by
  rw [Json.mark, h.metadata_mapMetadata]
  split
  · rfl
  · rw [Object.get?_insert, if_neg hMember]

theorem BelongsTo.mark (h : document.BelongsTo key) (hParts : document.HasParts)
    (now : Timestamp) : (document.mark now).BelongsTo key :=
  h.of_metadata (hParts.get?_mark now _ (by decide)) (hParts.get?_mark now _ (by decide))

/-- A patch that is written under a key keeps documents of that key, whatever it was made of. -/
theorem BelongsTo.merge {base resource : Resource} (h : document.BelongsTo resource.key)
    (hParts : document.HasParts) :
    (Json.merge document (Json.diff (Json.object base.toObject).snapshot.main
      (Json.object resource.toObject).snapshot.main)).BelongsTo resource.key := by
  have hNew := resource.metadata.writtenTo_toObject
  have hName := hParts.get?_metadata_merge base resource "name"
  have hSpace := hParts.get?_metadata_merge base resource "namespace"
  constructor
  · rcases hName with hStored | hPatched
    · exact hStored ▸ h.name
    · rw [hPatched, hNew.name]
      exact Metadata.nameField.read_write trivial
  · rcases hSpace with hStored | hPatched
    · exact hStored ▸ h.space
    · rw [hPatched, hNew.space]
      exact Metadata.spaceField.read_write fun _ => trivial

/-- A resource that is read from a document of a key has that key. -/
theorem BelongsTo.key_of_ofJson {resource : Resource} (h : document.BelongsTo key)
    (hParts : document.HasParts) (hRead : Resource.ofJson document = .ok resource) :
    resource.key = key := by
  obtain ⟨metadata, spec, status, hParts⟩ := hParts
  have hFrom := ((Resource.ofJson_eq_ok_iff hParts).1 hRead).metadata
  rw [← hParts.metadata_eq] at hFrom
  have hName : resource.metadata.name = key.name :=
    Except.ok.inj (hFrom.name.symm.trans h.name)
  have hSpace : resource.metadata.space = key.space :=
    Except.ok.inj (hFrom.space.symm.trans h.space)
  rw [Resource.key, Metadata.key, hName, hSpace]

end Json

/-- A written resource belongs to its key. -/
theorem Resource.belongsTo (resource : Resource) :
    (Json.object resource.toObject).BelongsTo resource.key := by
  have hWritten := resource.metadata.writtenTo_toObject
  rw [← resource.metadata_toObject] at hWritten
  exact ⟨hWritten.name ▸ Metadata.nameField.read_write trivial,
    hWritten.space ▸ Metadata.spaceField.read_write fun _ => trivial⟩

namespace Store

/-- What is stored under a key is about the resource with that key. -/
def Keyed (store : Store) : Prop :=
  ∀ {key document}, store.objects.get? key = some document → document.BelongsTo key

variable {store : Store} {now : Timestamp} {request : Request} {key : Key} {draft : Json}

/-- What a request commits belongs to the key it is committed under. -/
theorem Drafts.belongsTo (hSound : store.Sound) (hKeyed : store.Keyed)
    (h : store.Drafts now request key draft) : draft.BelongsTo key := by
  cases h with
  | insert => exact Resource.belongsTo _
  | delete hGet => exact (hKeyed hGet).mark (hSound.stored hGet).1 now
  | update hFinds => exact (Resource.belongsTo _).setStatus (Resource.hasParts _) _
  | updateStatus hFinds =>
      exact (hKeyed hFinds.get_eq).setStatus (hSound.stored hFinds.get_eq).1 _
  | patch hFinds => exact (hKeyed hFinds.get_eq).merge (hSound.stored hFinds.get_eq).1
  | @patchStatus resource base stored hFinds =>
      obtain ⟨status, hStatus⟩ := patchedStatus_eq (base.status.map Status.toJson)
        (resource.status.map Status.toJson) stored
      rw [hStatus]
      exact (hKeyed hFinds.get_eq).setStatus (hSound.stored hFinds.get_eq).1 status

/-- Whatever was done to a store, its documents belong to their keys. -/
theorem Reachable.keyed (h : store.Reachable) : store.Keyed :=
  h.of_drafts fun prior hKeyed hDraft _ =>
    (hDraft.belongsTo prior.sound hKeyed).withVersion (hDraft.hasParts prior.sound) _

end Store

end Reconciliation
