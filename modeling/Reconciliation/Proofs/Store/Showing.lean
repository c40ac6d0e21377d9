import Reconciliation.Proofs.Store.Failing
import Reconciliation.Proofs.Store.Sparing

namespace Reconciliation

/-- If anything can be read under the key of a resource, it is the resource itself. -/
def Resource.Current (resource : Resource) (store : Store) : Prop :=
  ∀ found, store.peek resource.key = some found → found = resource

namespace Store

variable {store store' : Store} {now : Timestamp} {request : Request} {key : Key}
  {resource : Resource} {error : StoreError}

/-- A store from which nothing can be read but what could be read from another one. -/
def ShowsNoMore (store store' : Store) : Prop :=
  ∀ key resource, store'.peek key = some resource → store.peek key = some resource

theorem ShowsNoMore.refl (store : Store) : store.ShowsNoMore store :=
  fun _ _ => id

theorem ShowsNoMore.trans {store'' : Store} (h : store.ShowsNoMore store')
    (h' : store'.ShowsNoMore store'') : store.ShowsNoMore store'' :=
  fun key resource hFound => h key resource (h' key resource hFound)

theorem peek_of_objects_eq (h : store'.objects = store.objects) (key : Key) :
    store'.peek key = store.peek key := by
  rw [peek, peek, h]

theorem showsNoMore_of_objects_eq (h : store'.objects = store.objects) :
    store.ShowsNoMore store' :=
  fun key _ hFound => (peek_of_objects_eq h key).symm.trans hFound

/-- A request that fails shows nothing new. -/
theorem Fails.showsNoMore (h : store.Fails now request error store')
    (hWritten : request.written? = some key) : store.ShowsNoMore store' := by
  intro key' resource hFound
  cases h with
  | refused _ hStore =>
      rw [hStore] at hFound
      exact hFound
  | unread hDraft hRead hError hObjects hVersion =>
      obtain ⟨-, hGone, hOthers⟩ := Fails.harm (.unread hDraft hRead hError hObjects hVersion)
        hWritten hError
      by_cases hKey : key' = key
      · rw [hKey, hGone] at hFound
        cases hFound
      · rw [peek, hOthers key' hKey] at hFound
        exact hFound

theorem showsNoMore_of_fault (hFault : request.fault? (request.serve now store).1 = some error) :
    store.ShowsNoMore (request.serve now store).2 := by
  cases hWritten : request.written? with
  | some key => exact (fails hWritten hFault).showsNoMore hWritten
  | none =>
      cases request with
      | get key => exact showsNoMore_of_objects_eq rfl
      | peek | failOn | clearFailures => cases hFault
      | update | updateStatus | patch | patchStatus | insert | delete => cases hWritten

/-- The resource that a request is answered with is current. -/
theorem Reachable.current_of_given (h : store.Reachable) (hKey : request.key? = some key)
    (hGiven : request.given? (request.serve now store).1 = some resource) :
    resource.key = key ∧ resource.Current (request.serve now store).2 := by
  have hSame : resource.key = key := fits_serve h.sound h.keyed now request hGiven hKey
  refine ⟨hSame, fun found hFound => ?_⟩
  rw [hSame] at hFound
  obtain ⟨document, hStored, hRead⟩ := of_peek_eq_some hFound
  cases store.serves now request with
  | kept hObjects _ hSource =>
      obtain ⟨source, _, hRequest, hSourced, hResource⟩ := hSource resource hGiven
      obtain rfl : source = key :=
        Option.some.inj ((Request.key?_of_reads hRequest).symm.trans hKey)
      rw [hObjects] at hStored
      cases hStored.symm.trans hSourced
      exact Except.ok.inj (hRead.symm.trans hResource)
  | @committed written draft hDraft hObjects _ hSource =>
      have hWritten : written = key := Option.some.inj (hDraft.key?_eq.symm.trans hKey)
      rw [hObjects, get?_commit, if_pos hWritten.symm] at hStored
      split at hStored
      · cases hStored
      · cases hStored
        exact Except.ok.inj (hRead.symm.trans (hSource resource hGiven))

/-- What comes of a request about the resource under a key: the answer is what can be read there
afterwards, if anything can, or nothing more can be read than before. -/
inductive Replies (store : Store) (key : Key) : Except StoreError Resource → Store → Prop where
  | given {resource : Resource} {store' : Store} (hKey : resource.key = key)
    (hCurrent : resource.Current store') : Replies store key (.ok resource) store'
  | failed {error : StoreError} {store' : Store} (hStore : store.ShowsNoMore store') :
    Replies store key (.error error) store'

/-- Every request about a resource replies in one of the two ways. -/
theorem Reachable.replies (h : store.Reachable) (now : Timestamp) (request : Request)
    {answer : Except StoreError Resource} (hKey : request.key? = some key)
    (hGiven : request.given? (request.serve now store).1 = answer.toOption)
    (hFault : request.fault? (request.serve now store).1 = answer.error?) :
    store.Replies key answer (request.serve now store).2 := by
  cases answer with
  | ok resource =>
      obtain ⟨hSame, hCurrent⟩ := h.current_of_given hKey hGiven
      exact .given hSame hCurrent
  | error error => exact .failed (showsNoMore_of_fault hFault)

theorem Reachable.replies_get (h : store.Reachable) (key : Key) :
    store.Replies key (store.get key).1 (store.get key).2 :=
  h.replies default (.get key) rfl rfl rfl

theorem Reachable.replies_update (h : store.Reachable) (resource : Resource) :
    store.Replies resource.key (store.update resource).1 (store.update resource).2 :=
  h.replies default (.update resource) rfl rfl rfl

theorem Reachable.replies_updateStatus (h : store.Reachable) (resource : Resource) :
    store.Replies resource.key (store.updateStatus resource).1 (store.updateStatus resource).2 :=
  h.replies default (.updateStatus resource) rfl rfl rfl

theorem Reachable.replies_patch (h : store.Reachable) (resource base : Resource) :
    store.Replies resource.key (store.patch resource base).1 (store.patch resource base).2 :=
  h.replies default (.patch resource base) rfl rfl rfl

theorem Reachable.replies_patchStatus (h : store.Reachable) (resource base : Resource) :
    store.Replies resource.key (store.patchStatus resource base).1
      (store.patchStatus resource base).2 :=
  h.replies default (.patchStatus resource base) rfl rfl rfl

/-- What was fetched is current. -/
theorem Reachable.current_of_get (h : store.Reachable)
    (hGet : (store.get key).1 = .ok resource) :
    resource.key = key ∧ resource.Current (store.count .get) := by
  have hReplies := h.replies_get key
  rw [hGet] at hReplies
  cases hReplies with
  | given hKey hCurrent => exact ⟨hKey, hCurrent⟩

end Store

end Reconciliation
