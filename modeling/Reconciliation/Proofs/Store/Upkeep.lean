import Reconciliation.Proofs.Store.Holding

/-!
What the documents in a store are like, and how a document leaves it. `Reachable.wellKept` says that
every document belongs to the key it is stored under and is held by a finalizer if it is marked, and
that only a deletion or a write of more than the status takes a document out.
-/
namespace Reconciliation

/-- A request that writes the status of a resource and nothing else. -/
def Request.WritesStatus : Request → Prop
  | .updateStatus _ | .patchStatus .. => True
  | .get _ | .update _ | .patch .. | .insert _ | .peek _ | .delete _ | .failOn _
  | .clearFailures => False

theorem Json.asText_eq_ok_iff {document : Json} {text : String} :
    Json.asText document = .ok text ↔ document = .string text := by
  cases document <;> simp [Json.asText]

namespace Json

variable {document document' : Json} {key : Key}

theorem BelongsTo.get?_name (h : document.BelongsTo key) :
    document.metadata.get? "name" = some (.string key.name) := by
  obtain ⟨member, hMember, hText⟩ := Field.requireField_ifPresent_eq_ok_iff.1 h.name
  rw [hMember, asText_eq_ok_iff.1 hText]

theorem BelongsTo.get?_space (h : document.BelongsTo key) :
    (document.metadata.get? "namespace").getD (.string "") = .string key.space := by
  obtain ⟨found, hFound, hSpace⟩ := Except.map_eq_ok_iff.1 h.space
  cases hMember : document.metadata.get? "namespace" with
  | none =>
      rw [hMember] at hFound
      cases hFound
      exact congrArg Json.string hSpace
  | some member =>
      rw [hMember] at hFound
      obtain ⟨text, hText, rfl⟩ := Except.map_eq_ok_iff.1 hFound
      exact (asText_eq_ok_iff.1 hText).trans (congrArg Json.string hSpace)

/-- Finalizers and mark as a resource writes them: neither an empty list nor null stands for none.
-/
structure Tidy (document : Json) : Prop where
  finalizers : ∀ {member}, document.metadata.get? "finalizers" = some member →
    ∃ first rest, member = .array (first :: rest)
  deletion : document.metadata.get? "deletionTimestamp" ≠ some .null

theorem SameMetadata.tidy (hSame : SameMetadata document document') (h : document.Tidy) :
    document'.Tidy :=
  ⟨fun hMember => h.finalizers (hSame "finalizers" (by decide) ▸ hMember),
    hSame "deletionTimestamp" (by decide) ▸ h.deletion⟩

theorem tidy_toObject (resource : Resource) : (Json.object resource.toObject).Tidy := by
  have hWritten := resource.metadata.writtenTo_toObject
  rw [← resource.metadata_toObject] at hWritten
  refine ⟨fun {member} hMember => ?_, hWritten.deletion ▸ Metadata.deletionField.write_ne_null _⟩
  rw [hWritten.finalizers] at hMember
  cases hFinalizers : resource.metadata.finalizers with
  | nil =>
      rw [hFinalizers] at hMember
      cases hMember
  | cons first rest =>
      rw [hFinalizers] at hMember
      cases hMember
      exact ⟨_, _, rfl⟩

theorem Tidy.mark (h : document.Tidy) (hParts : document.HasParts) (now : Timestamp) :
    (document.mark now).Tidy := by
  refine ⟨fun hMember => h.finalizers (hParts.get?_mark now "finalizers" (by decide) ▸ hMember), ?_⟩
  rw [Json.mark, hParts.metadata_mapMetadata]
  split
  · exact h.deletion
  · simp

/-- A patch between two resources leaves a tidy document tidy. -/
theorem Tidy.merge (h : document.Tidy) (hParts : document.HasParts) (base resource : Resource) :
    (Json.merge document (Json.diff (Json.object base.toObject).snapshot.main
      (Json.object resource.toObject).snapshot.main)).Tidy := by
  have hNew := tidy_toObject resource
  have hMember := hParts.get?_metadata_merge base resource
  rw [← resource.metadata_toObject] at hMember
  constructor
  · intro member hFinalizers
    rcases hMember "finalizers" with hStored | hPatched
    · exact h.finalizers (hStored ▸ hFinalizers)
    · exact hNew.finalizers (hPatched ▸ hFinalizers)
  · rcases hMember "deletionTimestamp" with hStored | hPatched
    · exact hStored ▸ h.deletion
    · exact hPatched ▸ hNew.deletion

theorem Tidy.get?_finalizers (h : document.Tidy) (hFree : document.hasNoFinalizers = true) :
    document.metadata.get? "finalizers" = none := by
  cases hMember : document.metadata.get? "finalizers" with
  | none => rfl
  | some member =>
      obtain ⟨first, rest, rfl⟩ := h.finalizers hMember
      rw [hasNoFinalizers, hMember] at hFree
      cases hFree

/-- A tidy document is marked if there is a mark at all. -/
theorem Tidy.isMarked_iff (h : document.Tidy) :
    document.isMarked = true ↔ document.metadata.contains "deletionTimestamp" = true := by
  have hNull := h.deletion
  rw [isMarked, Members.contains]
  cases hMember : document.metadata.get? "deletionTimestamp" with
  | none => simp
  | some member => cases member <;> simp_all

/-- A document that is marked and stays has a finalizer. -/
theorem Tidy.exists_finalizer (h : document.Tidy) (hHeld : document.isReleased = false)
    (hMarked : document.metadata.contains "deletionTimestamp" = true) :
    ∃ first rest, document.metadata.get? "finalizers" = some (.array (first :: rest)) := by
  rw [isReleased, h.isMarked_iff.2 hMarked, Bool.true_and] at hHeld
  cases hMember : document.metadata.get? "finalizers" with
  | none =>
      rw [hasNoFinalizers, hMember] at hHeld
      cases hHeld
  | some member =>
      obtain ⟨first, rest, rfl⟩ := h.finalizers hMember
      exact ⟨first, rest, rfl⟩

end Json

theorem Resource.finalizers_eq_nil_of_get? {resource : Resource}
    (h : (Json.object resource.toObject).metadata.get? "finalizers" = none) :
    resource.metadata.finalizers = [] := by
  rw [resource.metadata_toObject, resource.metadata.writtenTo_toObject.finalizers] at h
  cases hFinalizers : resource.metadata.finalizers with
  | nil => rfl
  | cons first rest =>
      rw [hFinalizers] at h
      cases h

namespace Store

variable {store : Store} {now : Timestamp} {request : Request} {key : Key} {document draft : Json}

/-- What is committed to a tidy store is tidy. -/
theorem Drafts.tidy (hSound : store.Sound)
    (hTidy : ∀ {key document}, store.objects.get? key = some document → document.Tidy)
    (h : store.Drafts now request key draft) : draft.Tidy := by
  cases h with
  | insert => exact Json.tidy_toObject _
  | delete hGet => exact (hTidy hGet).mark (hSound.stored hGet).1 now
  | update hFinds =>
      exact (Json.SameMetadata.of_eq ((Resource.hasParts _).metadata_setStatus _)).tidy
        (Json.tidy_toObject _)
  | updateStatus hFinds =>
      exact (Json.SameMetadata.of_eq ((hSound.stored hFinds.get_eq).1.metadata_setStatus _)).tidy
        (hTidy hFinds.get_eq)
  | patch hFinds => exact (hTidy hFinds.get_eq).merge (hSound.stored hFinds.get_eq).1 _ _
  | patchStatus hFinds =>
      exact (Json.SameMetadata.of_eq
        (metadata_patchedStatus (hSound.stored hFinds.get_eq).1 _ _)).tidy (hTidy hFinds.get_eq)

/-- Whatever was done to a store, its documents are tidy. -/
theorem Reachable.tidy (h : store.Reachable) (hGet : store.objects.get? key = some document) :
    document.Tidy :=
  h.of_drafts (motive := fun _ document => document.Tidy)
    (fun prior hTidy hDraft _ =>
      (Json.SameMetadata.withVersion (hDraft.hasParts prior.sound) _).tidy
        (hDraft.tidy prior.sound hTidy)) hGet

/-- The requests that take a document out of a store: its deletion, if it has no finalizers, or a
write of more than the status, if what comes of it is marked and has none. -/
inductive Removes (key : Key) (document : Json) : Request → Prop where
  | delete (hFree : document.metadata.get? "finalizers" = none) : Removes key document (.delete key)
  | insert {resource : Resource} (hKey : resource.key = key)
    (hMarked : resource.isTerminating = true) (hFree : resource.metadata.finalizers = []) :
    Removes key document (.insert resource)
  | update {resource : Resource} (hKey : resource.key = key)
    (hMarked : resource.isTerminating = true) (hFree : resource.metadata.finalizers = []) :
    Removes key document (.update resource)
  | patch {resource base : Resource} {result : Json} (hKey : resource.key = key)
    (hResult : result = Json.merge document (Json.diff (Json.object base.toObject).snapshot.main
      (Json.object resource.toObject).snapshot.main))
    (hMarked : result.metadata.contains "deletionTimestamp" = true)
    (hFree : result.metadata.get? "finalizers" = none) : Removes key document (.patch resource base)

/-- What is committed in place of a document and released is no write of the status alone. -/
theorem Drafts.removes (h : store.Reachable) (hGet : store.objects.get? key = some document)
    (hDraft : store.Drafts now request key draft) (hReleased : draft.isReleased = true) :
    Removes key document request := by
  have hTidy := hDraft.tidy h.sound h.tidy
  obtain ⟨hMarked, hNoFinalizers⟩ := (Bool.and_eq_true _ _).mp hReleased
  have hFree := hTidy.get?_finalizers hNoFinalizers
  have hSpared : ¬request.SparesMetadata := by
    intro hSpares
    obtain ⟨stored, hStored, hSame⟩ := hDraft.exists_sameMetadata h.sound hSpares
    rw [hSame.isReleased, h.isReleased_of_get? hStored] at hReleased
    cases hReleased
  cases hDraft with
  | insert =>
      exact .insert rfl (Resource.isMarked_toObject ▸ hMarked)
        (Resource.finalizers_eq_nil_of_get? hFree)
  | delete hStored =>
      cases hGet.symm.trans hStored
      exact .delete ((h.sound.stored hStored).1.get?_mark now "finalizers" (by decide) ▸ hFree)
  | @update resource stored hFinds =>
      have hMetadata := resource.hasParts.metadata_setStatus stored.status?
      rw [Json.isMarked, hMetadata, ← Json.isMarked, Resource.isMarked_toObject] at hMarked
      rw [hMetadata] at hFree
      exact .update rfl hMarked (Resource.finalizers_eq_nil_of_get? hFree)
  | updateStatus => exact absurd trivial hSpared
  | patch hFinds =>
      cases hGet.symm.trans hFinds.get_eq
      exact .patch rfl rfl (hTidy.isMarked_iff.1 hMarked) hFree
  | patchStatus => exact absurd trivial hSpared

/-- A document that is gone was removed by one of these requests. -/
theorem Reachable.removes_of_gone (h : store.Reachable)
    (hGet : store.objects.get? key = some document)
    (hGone : (request.serve now store).2.objects.get? key = none) :
    Removes key document request := by
  cases store.serves now request with
  | kept hObjects _ _ =>
      rw [hObjects, hGet] at hGone
      cases hGone
  | @committed written draft hDraft hObjects _ _ =>
      rw [hObjects, get?_commit] at hGone
      by_cases hKey : key = written
      · subst hKey
        have hSame := Json.SameMetadata.withVersion (hDraft.hasParts h.sound)
          (toString (store.version + 1))
        refine hDraft.removes h hGet (hSame.isReleased ▸ ?_)
        rw [if_pos rfl] at hGone
        split at hGone
        · assumption
        · cases hGone
      · rw [if_neg hKey, hGet] at hGone
        cases hGone

/-- How a store keeps its documents. -/
structure WellKept (store : Store) : Prop where
  name : ∀ {key document}, store.objects.get? key = some document →
    document.metadata.get? "name" = some (.string key.name)
  /-- A document without a namespace belongs to the empty one. -/
  space : ∀ {key document}, store.objects.get? key = some document →
    (document.metadata.get? "namespace").getD (.string "") = .string key.space
  notReleased : ∀ {key document}, store.objects.get? key = some document →
    document.isReleased = false
  /-- A document that is marked has a finalizer. -/
  held : ∀ {key document}, store.objects.get? key = some document →
    document.metadata.contains "deletionTimestamp" = true →
    ∃ first rest, document.metadata.get? "finalizers" = some (.array (first :: rest))
  /-- A write of the status alone takes nothing out. -/
  stays : ∀ {now key} {request : Request}, request.WritesStatus → store.contains key = true →
    (request.serve now store).2.contains key = true
  removes : ∀ {now key document} {request : Request}, store.objects.get? key = some document →
    (request.serve now store).2.objects.get? key = none → Removes key document request

/-- Whatever is asked of a store that began empty, it keeps its documents well. -/
theorem Reachable.wellKept (h : store.Reachable) : store.WellKept where
  name hGet := (h.keyed hGet).get?_name
  space hGet := (h.keyed hGet).get?_space
  notReleased := h.isReleased_of_get?
  held hGet := (h.tidy hGet).exists_finalizer (h.isReleased_of_get? hGet)
  stays {now key request} hStatus hContains := by
    obtain ⟨document, hGet⟩ := Option.isSome_iff_exists.1 hContains
    cases hAfter : (request.serve now store).2.objects.get? key with
    | none => cases h.removes_of_gone hGet hAfter <;> cases hStatus
    | some document' => rw [contains, hAfter, Option.isSome_some]
  removes := h.removes_of_gone

/-- A resource that does not go when it is deleted. -/
def tenant : Resource :=
  { metadata := { name := "a", finalizers := ["cleanup"] }, spec := .object .nil }

def stranger : Resource :=
  { metadata := { name := "b", space := "elsewhere" }, spec := .object .nil }

/-- A resource keeps its name and stays when it is deleted and then patched with another one as the
base. -/
theorem wellKept_of_patchedTenant :
    ∃ store, Reachable store ∧ store.contains tenant.key = true ∧ store.version = 3 ∧
      (store.peek tenant.key).map Resource.isTerminating = some true ∧ WellKept store := by
  have hStore := ((Reachable.empty.serve default (.insert tenant)).serve default
    (.delete tenant.key)).serve default (.patch tenant stranger)
  exact ⟨_, hStore, rfl, rfl, rfl, hStore.wellKept⟩

end Store

end Reconciliation
