import Reconciliation.Proofs.Store.Sparing

/-!
Marks and finalizers in stored documents. A document that holds a finalizer is not released, and both
its mark and its finalizers are those of the resource that is read from it. A request to delete it marks
it once.
-/
namespace Reconciliation

def Json.Holds (document : Json) (name : String) : Prop :=
  ∃ finalizers, Metadata.finalizersField.read (document.metadata.get? "finalizers") =
    .ok finalizers ∧ name ∈ finalizers

/-- What the mark of a stored document is read as. -/
def Json.deletion (document : Json) : Except ReadError (Option Timestamp) :=
  Metadata.deletionField.read (document.metadata.get? "deletionTimestamp")

namespace Json

variable {document document' : Json} {name : String} {resource : Resource}

/-- Documents with the same metadata hold the same finalizers. -/
theorem SameMetadata.holds (h : SameMetadata document document') (hHolds : document.Holds name) :
    document'.Holds name := by
  obtain ⟨finalizers, hRead, hName⟩ := hHolds
  exact ⟨finalizers, by rw [h "finalizers" (by decide), hRead], hName⟩

theorem SameMetadata.deletion (h : SameMetadata document document') :
    document'.deletion = document.deletion := by
  rw [Json.deletion, Json.deletion, h "deletionTimestamp" (by decide)]

/-- A document has no finalizers if none are read from it. -/
theorem hasNoFinalizers_iff_of_read {finalizers : List String}
    (h : Metadata.finalizersField.read (document.metadata.get? "finalizers") = .ok finalizers) :
    document.hasNoFinalizers = true ↔ finalizers = [] := by
  rw [Json.hasNoFinalizers]
  obtain ⟨found, hFound, rfl⟩ := Except.map_eq_ok_iff.1 h
  cases hMember : document.metadata.get? "finalizers" with
  | none =>
      rw [hMember] at hFound
      cases hFound
      simp
  | some member =>
      rw [hMember] at hFound
      obtain ⟨items, hItems, rfl⟩ := Except.map_eq_ok_iff.1 hFound
      cases member with
      | array elements =>
          replace hItems : elements.mapM Codec.text.read = .ok items := hItems
          cases elements with
          | nil =>
              cases hItems
              simp
          | cons first rest =>
              simp only [List.mapM_cons, Except.bind_eq_ok_iff, Except.pure_eq_ok_iff] at hItems
              obtain ⟨_, -, _, -, rfl⟩ := hItems
              simp
      | _ => cases hItems

theorem Holds.hasNoFinalizers (h : document.Holds name) : document.hasNoFinalizers = false := by
  obtain ⟨finalizers, hRead, hName⟩ := h
  rw [← Bool.not_eq_true, hasNoFinalizers_iff_of_read hRead]
  exact List.ne_nil_of_mem hName

/-- What a finalizer holds is not released. -/
theorem Holds.isReleased (h : document.Holds name) : document.isReleased = false := by
  rw [Json.isReleased, h.hasNoFinalizers, Bool.and_false]

theorem readFrom_of_ofJson (hParts : document.HasParts)
    (hRead : Resource.ofJson document = .ok resource) :
    Metadata.ReadFrom document.metadata resource.metadata := by
  obtain ⟨metadata, spec, status, hParts⟩ := hParts
  exact hParts.metadata_eq ▸ ((Resource.ofJson_eq_ok_iff hParts).1 hRead).metadata

/-- A document holds the finalizers of the resource that is read from it. -/
theorem holds_iff_of_ofJson (hParts : document.HasParts)
    (hRead : Resource.ofJson document = .ok resource) :
    document.Holds name ↔ resource.hasFinalizer name = true := by
  have hFinalizers := (readFrom_of_ofJson hParts hRead).finalizers
  rw [Resource.hasFinalizer, List.contains_iff_mem]
  constructor
  · rintro ⟨finalizers, hFound, hName⟩
    rw [hFinalizers] at hFound
    cases hFound
    exact hName
  · exact fun hName => ⟨_, hFinalizers, hName⟩

/-- A document is marked if and only if the resource that is read from it is being deleted. -/
theorem isMarked_of_ofJson (hParts : document.HasParts)
    (hRead : Resource.ofJson document = .ok resource) :
    document.isMarked = resource.isTerminating := by
  have hDeletion := (readFrom_of_ofJson hParts hRead).deletion
  rw [Json.isMarked, Resource.isTerminating]
  cases hMember : document.metadata.get? "deletionTimestamp" with
  | none =>
      rw [hMember] at hDeletion
      rw [← Except.ok.inj hDeletion]
      rfl
  | some member =>
      rw [hMember] at hDeletion
      by_cases hNull : member = .null
      · subst hNull
        rw [← Except.ok.inj hDeletion]
        rfl
      · obtain ⟨instant, -, hInstant⟩ := (Field.read_optional_eq_ok_iff hNull).1 hDeletion
        rw [← hInstant]
        cases member <;> first | rfl | exact absurd rfl hNull

theorem deletion_of_ofJson (hParts : document.HasParts)
    (hRead : Resource.ofJson document = .ok resource) :
    document.deletion = .ok resource.metadata.deletion :=
  (readFrom_of_ofJson hParts hRead).deletion

/-- A document is released if the resource that is read from it is being deleted and has no
finalizers. -/
theorem isReleased_iff_of_ofJson (hParts : document.HasParts)
    (hRead : Resource.ofJson document = .ok resource) :
    document.isReleased = true ↔
      resource.isTerminating = true ∧ resource.metadata.finalizers = [] := by
  rw [isReleased, Bool.and_eq_true, isMarked_of_ofJson hParts hRead,
    hasNoFinalizers_iff_of_read (readFrom_of_ofJson hParts hRead).finalizers]

/-- A mark is read as the instant that its text is read as. -/
theorem deletion_of_get?_eq {text : String} {instant : Timestamp}
    (h : document.metadata.get? "deletionTimestamp" = some (.string text))
    (hRead : Rfc3339.read text = .ok instant) : document.deletion = .ok (some instant) := by
  rw [deletion, h]
  exact (Field.read_optional_eq_ok_iff (by simp)).2
    ⟨instant, Codec.asTimestamp_string_eq_ok_iff.2 hRead, rfl⟩

/-- A document that has a mark, be it null, is not marked anew. -/
theorem sameMetadata_mark_of_contains (hParts : document.HasParts)
    (h : document.metadata.contains "deletionTimestamp" = true) (now : Timestamp) :
    SameMetadata document (document.mark now) :=
  .of_eq (by rw [mark, hParts.metadata_mapMetadata, if_pos h])

/-- A document that is marked holds what it held. -/
theorem Holds.mark (h : document.Holds name) (hParts : document.HasParts) (now : Timestamp) :
    (document.mark now).Holds name := by
  obtain ⟨finalizers, hRead, hName⟩ := h
  exact ⟨finalizers, by rwa [hParts.get?_mark now _ (by decide)], hName⟩

theorem get?_mark_of_not_contains (hParts : document.HasParts)
    (h : document.metadata.contains "deletionTimestamp" = false) (now : Timestamp) :
    (document.mark now).metadata.get? "deletionTimestamp" =
      some (.string (Rfc3339.writeWithOffset now)) := by
  rw [mark, hParts.metadata_mapMetadata, if_neg (by rw [h]; exact Bool.false_ne_true),
    Object.get?_insert, if_pos rfl]

theorem isMarked_of_not_contains (h : document.metadata.contains "deletionTimestamp" = false) :
    document.isMarked = false := by
  have hNone : document.metadata.get? "deletionTimestamp" = none :=
    Option.isNone_iff_eq_none.1 (Option.isSome_eq_false_iff.1 h)
  rw [isMarked, hNone]

end Json

namespace Resource

variable {resource : Resource} {name : String}

theorem holds_toObject : (Json.object resource.toObject).Holds name ↔
    resource.hasFinalizer name = true := by
  have hWritten := resource.metadata.writtenTo_toObject.finalizers
  have hRead : Metadata.finalizersField.read
      ((Json.object resource.toObject).metadata.get? "finalizers") =
        .ok resource.metadata.finalizers := by
    rw [resource.metadata_toObject, hWritten]
    exact Metadata.finalizersField.read_write fun _ _ _ => trivial
  rw [Resource.hasFinalizer, List.contains_iff_mem]
  constructor
  · rintro ⟨finalizers, hFound, hName⟩
    rw [hRead] at hFound
    cases hFound
    exact hName
  · exact fun hName => ⟨_, hRead, hName⟩

theorem isMarked_toObject : (Json.object resource.toObject).isMarked = resource.isTerminating := by
  have hWritten := resource.metadata.writtenTo_toObject.deletion
  rw [Json.isMarked, resource.metadata_toObject, hWritten, Resource.isTerminating]
  cases resource.metadata.deletion with
  | none => rfl
  | some instant => rfl

theorem deletion_toObject (h : resource.metadata.Sound) :
    (Json.object resource.toObject).deletion = .ok resource.metadata.deletion := by
  rw [Json.deletion, resource.metadata_toObject]
  exact (Metadata.readFrom_toObject h).deletion

end Resource

namespace Store

variable {store : Store} {key : Key} {now : Timestamp} {request : Request}

/-- A document that is released does not stay in the store. -/
theorem Reachable.isReleased_of_get? (h : store.Reachable) {document : Json}
    (hGet : store.objects.get? key = some document) : document.isReleased = false :=
  h.of_drafts (motive := fun _ document => document.isReleased = false)
    (fun _ _ _ hHeld => hHeld) hGet

/-- A document that is committed stays in the store if it is seen there, or if it is not being
deleted. -/
theorem get?_commit_of_stays {document : Json} {result : Resource} (hParts : document.HasParts)
    (hRead : Resource.ofJson (document.withVersion (toString (store.version + 1))) = .ok result)
    (hStays : (store.commit key document).2.contains key = true ∨ result.isTerminating = false) :
    (store.commit key document).2.objects.get? key =
      some (document.withVersion (toString (store.version + 1))) := by
  rcases hStays with hContains | hLives
  · exact get?_of_commit_of_contains hContains
  · have hUnmarked := Json.isMarked_of_ofJson (hParts.withVersion _) hRead
    have hHeld : (document.withVersion (toString (store.version + 1))).isReleased = false := by
      rw [Json.isReleased, hUnmarked, hLives, Bool.false_and]
    rw [get?_commit, if_pos rfl, if_neg (by rw [hHeld]; exact Bool.false_ne_true)]

/-- An update that is answered with a resource has written a document with the metadata that it was
asked to write, unless that is released. -/
theorem exists_written_of_update {store' : Store} {resource result : Resource}
    (h : store.update resource = (.ok result, store')) :
    ∃ document, document.HasParts ∧ (Json.object resource.toObject).SameMetadata document ∧
      Resource.ofJson document = .ok result ∧
      store'.objects.get? resource.key =
        if document.isReleased = true then none else some document := by
  have hServed := store.serves default (.update resource)
  rw [show (Request.update resource).serve default store = (.ok result, store') from h] at hServed
  cases hServed with
  | kept _ _ hNone =>
      obtain ⟨_, _, hRequest, -⟩ := hNone _ rfl
      rcases hRequest with hRequest | hRequest <;> cases hRequest
  | committed hDraft hObjects _ hResult =>
      cases hDraft with
      | @update _ stored _ =>
          let draft := (Json.object resource.toObject).setStatus stored.status?
          have hParts : draft.HasParts := resource.hasParts.setStatus _
          have hSame := (Json.SameMetadata.of_eq (resource.hasParts.metadata_setStatus _)).trans
            (.withVersion hParts (toString (store.version + 1)))
          refine ⟨_, hParts.withVersion _, hSame, hResult _ rfl, ?_⟩
          rw [hObjects, get?_commit, if_pos rfl]

end Store

end Reconciliation
