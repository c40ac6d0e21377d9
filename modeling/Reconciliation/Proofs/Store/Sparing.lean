import Reconciliation.Proofs.Store.Keys

/-!
Requests that change no metadata. A patch between two resources with the same metadata, or of the
status alone, leaves the metadata of the stored document as it is but for the version, whatever else
has become of that since.
-/
namespace Reconciliation

/-- A request that cannot change metadata, versions apart. -/
def Request.SparesMetadata : Request → Prop
  | .patch resource base => resource.metadata = base.metadata
  | .get _ | .updateStatus _ | .patchStatus .. | .peek _ | .failOn _ | .clearFailures => True
  | .update _ | .insert _ | .delete _ => False

/-- The key of the resource that a request is about. -/
def Request.key? : Request → Option Key
  | .get key | .peek key => some key
  | request => request.written?

/-- An answer with the resource that the request is about, if with any. -/
def Request.Fits (request : Request) (answer : request.Answer) : Prop :=
  ∀ {resource key}, request.given? answer = some resource → request.key? = some key →
    resource.key = key

/-- A request that reads what is stored under a key is about that. -/
theorem Request.key?_of_reads {request : Request} {key : Key}
    (h : request = .get key ∨ request = .peek key) : request.key? = some key := by
  rcases h with rfl | rfl <;> rfl

theorem Request.sparesMetadata_of_written_eq_none {request : Request}
    (h : request.written? = none) : request.SparesMetadata := by
  cases request with
  | get | peek | failOn | clearFailures => trivial
  | update | updateStatus | patch | patchStatus | insert | delete => cases h

namespace Json

/-- Two documents whose metadata agree, versions apart. -/
def SameMetadata (document document' : Json) : Prop :=
  ∀ member ≠ "resourceVersion",
    document'.metadata.get? member = document.metadata.get? member

namespace SameMetadata

variable {first second third : Json}

theorem refl (document : Json) : SameMetadata document document :=
  fun _ _ => rfl

theorem symm (h : SameMetadata first second) : SameMetadata second first :=
  fun member hMember => (h member hMember).symm

theorem trans (h : SameMetadata first second) (h' : SameMetadata second third) :
    SameMetadata first third :=
  fun member hMember => (h' member hMember).trans (h member hMember)

theorem of_eq (h : second.metadata = first.metadata) : SameMetadata first second :=
  fun _ _ => by rw [h]

theorem withVersion (h : second.HasParts) (version : String) :
    SameMetadata second (second.withVersion version) := by
  intro member hMember
  rw [Json.withVersion, h.metadata_mapMetadata, Object.get?_insert, if_neg hMember]

theorem isMarked (h : SameMetadata first second) : second.isMarked = first.isMarked := by
  rw [Json.isMarked, Json.isMarked, h "deletionTimestamp" (by decide)]

theorem hasNoFinalizers (h : SameMetadata first second) :
    second.hasNoFinalizers = first.hasNoFinalizers := by
  rw [Json.hasNoFinalizers, Json.hasNoFinalizers, h "finalizers" (by decide)]

theorem isReleased (h : SameMetadata first second) : second.isReleased = first.isReleased := by
  rw [Json.isReleased, Json.isReleased, h.isMarked, h.hasNoFinalizers]

end SameMetadata

end Json

namespace Store

variable {store store' : Store} {now : Timestamp} {request : Request} {key : Key} {draft : Json}

/-- The document under a key, after metadata has been spared. -/
structure Spared (store store' : Store) (key : Key) : Prop where
  stored : ∀ {document}, store.objects.get? key = some document → document.isReleased = false →
    ∃ document', store'.objects.get? key = some document' ∧ document.SameMetadata document'

theorem Spared.refl (store : Store) (key : Key) : Spared store store key :=
  ⟨fun hGet _ => ⟨_, hGet, .refl _⟩⟩

theorem Spared.trans {third : Store} (h : Spared store store' key) (h' : Spared store' third key) :
    Spared store third key := by
  refine ⟨fun hGet hHeld => ?_⟩
  obtain ⟨_, hGet', hSame⟩ := h.stored hGet hHeld
  obtain ⟨_, hGet'', hSame'⟩ := h'.stored hGet' (hSame.isReleased.trans hHeld)
  exact ⟨_, hGet'', hSame.trans hSame'⟩

/-- What spares metadata drafts what has the metadata of the stored document. -/
theorem Drafts.exists_sameMetadata (hSound : store.Sound) (hSpares : request.SparesMetadata)
    (h : store.Drafts now request key draft) :
    ∃ stored, store.objects.get? key = some stored ∧ stored.SameMetadata draft := by
  cases h with
  | insert => cases hSpares
  | delete hGet => cases hSpares
  | update hFinds => cases hSpares
  | updateStatus hFinds =>
      exact ⟨_, hFinds.get_eq, .of_eq ((hSound.stored hFinds.get_eq).1.metadata_setStatus _)⟩
  | @patch resource base stored hFinds =>
      refine ⟨stored, hFinds.get_eq, .of_eq ?_⟩
      have hSame : resource.metadata = base.metadata := hSpares
      rw [(hSound.stored hFinds.get_eq).1.metadata_merge, hSame]
      exact Json.mergeMembers_diffObjects_of_agree _ rfl
  | patchStatus hFinds =>
      exact ⟨_, hFinds.get_eq, .of_eq (metadata_patchedStatus (hSound.stored hFinds.get_eq).1 _ _)⟩

/-- A request that spares metadata spares them under every key. -/
theorem spared_serve (hSound : store.Sound) (now : Timestamp) (hSpares : request.SparesMetadata)
    (key : Key) : Spared store (request.serve now store).2 key := by
  cases store.serves now request with
  | kept hObjects _ _ => exact ⟨fun hGet _ => ⟨_, hObjects ▸ hGet, .refl _⟩⟩
  | @committed written draft hDraft hObjects _ _ =>
      obtain ⟨stored, hStored, hSame⟩ := hDraft.exists_sameMetadata hSound hSpares
      have hCommitted := hSame.trans
        (.withVersion (hDraft.hasParts hSound) (toString (store.version + 1)))
      refine ⟨fun {document} hGet hHeld => ?_⟩
      rw [hObjects, get?_commit]
      by_cases hKey : key = written
      · subst hKey
        obtain rfl : stored = document := Option.some.inj (hStored.symm.trans hGet)
        rw [if_pos rfl, hCommitted.isReleased, hHeld]
        exact ⟨_, rfl, hCommitted⟩
      · rw [if_neg hKey]
        exact ⟨document, hGet, .refl _⟩

theorem Drafts.key?_eq (h : store.Drafts now request key draft) : request.key? = some key := by
  cases h <;> rfl

/-- A store answers with the resource that it is asked about. -/
theorem fits_serve (hSound : store.Sound) (hKeyed : store.Keyed) (now : Timestamp)
    (request : Request) : request.Fits (request.serve now store).1 := by
  intro resource key hGiven hKey
  cases store.serves now request with
  | kept _ _ hRead =>
      obtain ⟨found, document, hRequest, hStored, hDocument⟩ := hRead resource hGiven
      have hSame : found = key := Option.some.inj ((Request.key?_of_reads hRequest).symm.trans hKey)
      exact hSame ▸ (hKeyed hStored).key_of_ofJson (hSound.stored hStored).1 hDocument
  | @committed written draft hDraft _ _ hRead =>
      have hSame : written = key := Option.some.inj (hDraft.key?_eq.symm.trans hKey)
      have hParts := hDraft.hasParts hSound
      exact hSame ▸ ((hDraft.belongsTo hSound hKeyed).withVersion hParts _).key_of_ofJson
        (hParts.withVersion _) (hRead resource hGiven)

/-- A store that keeps the metadata that another one has under a key. -/
structure Intact (start store : Store) (key : Key) : Prop where
  reachable : store.Reachable
  spared : Spared start store key

/-- Metadata stay intact while requests spare them, and the answers fit. -/
theorem Intact.serve {start : Store} (h : Intact start store key) (now : Timestamp)
    (hSpares : request.SparesMetadata) :
    request.Fits (request.serve now store).1 ∧ Intact start (request.serve now store).2 key :=
  ⟨fits_serve h.reachable.sound h.reachable.keyed now request, h.reachable.serve now request,
    h.spared.trans (spared_serve h.reachable.sound now hSpares key)⟩

end Store

end Reconciliation
