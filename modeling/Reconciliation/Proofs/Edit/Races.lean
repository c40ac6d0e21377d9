import Reconciliation.Proofs.Edit.Interleaving
import Reconciliation.Proofs.Resource.ReadBack

/-!
Edits in a race. Whatever an edit writes rests on an answer that it got earlier: the resource as it
was fetched, or as its own first patch left it. If anything was committed under the key since then,
the write is refused, and the edit ends without another request.
-/
namespace Reconciliation

namespace Edit

variable {σ μ ι : Type} {i : ι} {history : List (Event ι)} {store : Store} {key : Key}
  {token : Option String} {source event : Event ι} {between : List (Event ι)}

/-- The request whose answer an edit works from: `token` is a version that the store had handed out
by then, under no other key, and the requests made since are those of others. -/
structure Source (i : ι) (history : List (Event ι)) (store : Store) (key : Key)
    (token : Option String) (source : Event ι) (between : List (Event ι)) : Prop where
  split : ∃ first, history = first ++ source :: between
  maker : source.maker = some i
  others : ∀ event ∈ between, event.maker ≠ some i
  numbered : ∃ number, number ≤ source.after.version ∧ token = some (toString number)
  only : ∀ {key' document}, source.after.objects.get? key' = some document →
    document.version? = token → key' = key
  later : source.after.Later store
  disturbed : (∃ event ∈ between, event.CommitsTo key) →
    ∀ {document}, store.objects.get? key = some document → document.version? ≠ token

/-- A request changes at most what stands under the key that it may write under. -/
theorem Event.changed (hSound : event.before.Sound) :
    event.before.Changed event.request.written? event.after :=
  Store.changed_serve hSound event.now event.request

/-- A source remains one while others make requests. -/
theorem Source.extend (h : Source i history store key token source between)
    (hSound : store.Sound) (hBefore : event.before = store) (hMaker : event.maker ≠ some i) :
    Source i (history ++ [event]) event.after key token source (between ++ [event]) := by
  obtain ⟨first, hSplit⟩ := h.split
  have hChanged : store.Changed event.request.written? event.after :=
    hBefore ▸ Event.changed (hBefore ▸ hSound)
  refine {
    split := ⟨first, by simp [hSplit]⟩
    maker := h.maker
    others := ?_
    numbered := h.numbered
    only := h.only
    later := h.later.trans hChanged.later
    disturbed := ?_ }
  · intro other hOther
    rcases List.mem_append.1 hOther with hOld | hNew
    · exact h.others other hOld
    · rw [List.mem_singleton.1 hNew]
      exact hMaker
  · rintro ⟨other, hOther, hCommits⟩ document hGet
    rcases hChanged.get?_cases hGet with ⟨hOld, hKept⟩ | ⟨-, -, -, hNew⟩
    · rcases List.mem_append.1 hOther with hBetween | hLast
      · exact h.disturbed ⟨other, hBetween, hCommits⟩ hOld
      · rw [List.mem_singleton.1 hLast] at hCommits
        rcases hKept with hSame | hElsewhere
        · exact absurd (hSame.trans (congrArg Store.version hBefore).symm) hCommits.2
        · exact absurd hCommits.1 hElsewhere
    · obtain ⟨number, hNumber, rfl⟩ := h.numbered
      rw [hNew]
      intro hSame
      have hEqual : store.version + 1 = number := toString_injective (Option.some.inj hSame)
      have hLater := h.later.version
      omega

/-- A write that names the version it rests on is refused, or finds the very document that the
source left. -/
theorem Source.write_cases (h : Source i history store key token source between) (verb : Verb)
    (key' : Key) (change : Json → Json) :
    (∃ error, store.Refuses verb key' token error ∧
      store.write verb key' token change = (.error error, store.count verb)) ∨
    ∃ document, key' = key ∧ store.objects.get? key = some document ∧
      source.after.objects.get? key = some document ∧
      (∀ other ∈ between, ¬other.CommitsTo key) ∧
      (store.write verb key' token change).2.version = store.version + 1 := by
  rcases Store.write_cases verb key' token change store with
    hRefused | ⟨document, hGet, hVersion, hWrite⟩
  · exact .inl hRefused
  · right
    obtain ⟨number, hNumber, rfl⟩ := h.numbered
    have hToken := hVersion _ rfl
    have hOld : source.after.objects.get? key' = some document := by
      rcases h.later.stored hGet with hOld | ⟨newer, hNewer, hNewVersion⟩
      · exact hOld
      · have hEqual : number = newer :=
          toString_injective (Option.some.inj (hToken.symm.trans hNewVersion))
        omega
    have hKey : key' = key := h.only hOld hToken
    subst hKey
    refine ⟨document, rfl, hGet, hOld, ?_, by rw [hWrite]; rfl⟩
    intro other hOther hCommits
    exact h.disturbed ⟨other, hOther, hCommits⟩ hGet hToken

/-- What becomes of a write of the edit `i` that rests on `source`: it is applied to the document
that stood under `origin` then, or it is refused and the edit ends with the refusal. -/
inductive Decided (i : ι) (source : Event ι) (between : List (Event ι)) (origin key : Key)
    (event : Event ι) (later : List (Event ι)) (stage : Stage σ μ) : Prop where
  | applied {document : Json} (hKey : key = origin) (hCommits : event.CommitsTo key)
    (hUndisturbed : ∀ other ∈ between, ¬other.CommitsTo key)
    (hSeen : source.after.objects.get? key = some document)
    (hFound : event.before.objects.get? key = some document)
  | refused {verb : Verb} {token : Option String} {error : StoreError} {value : μ} {scene : Scene σ}
    (hRefused : event.before.Refuses verb key token error)
    (hObjects : event.after.objects = event.before.objects)
    (hVersion : event.after.version = event.before.version)
    (hEnded : stage =
      .ended (.ok { mutation := some value, written := .error (.store error) }) scene)
    (hLast : ∀ other ∈ later, other.maker ≠ some i)

theorem Decided.extend {origin : Key} {later : List (Event ι)} {stage stage' : Stage σ μ}
    {last : Event ι} (h : Decided i source between origin key event later stage)
    (hNext : ∀ result scene, stage = .ended result scene →
      stage' = stage ∧ last.maker ≠ some i) :
    Decided i source between origin key event (later ++ [last]) stage' := by
  cases h with
  | applied hKey hCommits hUndisturbed hSeen hFound =>
      exact .applied hKey hCommits hUndisturbed hSeen hFound
  | refused hRefused hObjects hVersion hEnded hLast =>
      obtain ⟨hSame, hMaker⟩ := hNext _ _ hEnded
      refine .refused hRefused hObjects hVersion (hSame.trans hEnded) fun other hOther => ?_
      rcases List.mem_append.1 hOther with hOld | hNew
      · exact hLast other hOld
      · rw [List.mem_singleton.1 hNew]
        exact hMaker

/-- A write that names the token of a source is applied to what has stood there since, or refused
and the end of the edit. -/
theorem Source.decided {origin : Key} {stage : Stage σ μ} {verb : Verb} {change : Json → Json}
    {served : Except StoreError Resource × Store}
    (h : Source i history store origin token source between) (hBefore : event.before = store)
    (hServed : served = store.write verb key token change) (hAfter : event.after = served.2)
    (hWritten : event.request.written? = some key)
    (hEnds : ∀ error, served.1 = .error error → ∃ value scene,
      stage = .ended (.ok { mutation := some value, written := .error (.store error) }) scene) :
    Decided i source between origin key event [] stage := by
  subst hBefore
  rcases h.write_cases verb key change with
    ⟨error, hRefused, hWrite⟩ | ⟨document, hKey, hFound, hSeen, hUndisturbed, hVersion⟩
  · rw [hWrite] at hServed
    subst hServed
    obtain ⟨value, scene, hEnded⟩ := hEnds error rfl
    exact .refused hRefused (by rw [hAfter]; rfl) (by rw [hAfter]; rfl) hEnded
      fun _ hOther => absurd hOther List.not_mem_nil
  · subst hKey
    refine .applied rfl ⟨hWritten, ?_⟩ hUndisturbed hSeen hFound
    rw [hAfter, hServed, hVersion]
    exact Nat.succ_ne_self _

/-- What an edit may rest a write on: a patch on what was fetched, and a patch of the status on that
too or on what its own patch has left. -/
inductive Grounds : Key → Request → Request → Prop where
  | fetched {key : Key} {resource base : Resource} : Grounds key (.get key) (.patch resource base)
  | fetchedStatus {key : Key} {target base : Resource} :
    Grounds key (.get key) (.patchStatus target base)
  | patched {resource base target before : Resource} :
    Grounds resource.key (.patch resource base) (.patchStatus target before)

/-- A resource that an edit has from the answer to one of its requests. -/
structure Held (grounds : Key → Request → Prop) (i : ι) (history : List (Event ι)) (store : Store)
    (resource : Resource) : Prop where
  writable : resource.unwritable = none
  source : ∃ key source between,
    Source i history store key resource.metadata.version source between ∧
      grounds key source.request

section

variable {grounds : Key → Request → Prop} {resource base : Resource} {now : Timestamp}

/-- An edit goes on to hold a resource while others make requests. -/
theorem Held.extend (h : Held grounds i history store resource) (hSound : store.Sound)
    (hBefore : event.before = store) (hMaker : event.maker ≠ some i) :
    Held grounds i (history ++ [event]) event.after resource := by
  obtain ⟨key, source, between, hSource, hGrounds⟩ := h.source
  exact ⟨h.writable, key, source, _, hSource.extend hSound hBefore hMaker, hGrounds⟩

/-- The last request of an edit is the source of what it was answered with. -/
theorem Held.of_answer {number : Nat} (hMaker : event.maker = some i)
    (hWritable : resource.unwritable = none) (hGrounds : grounds key event.request)
    (hNumber : number ≤ event.after.version)
    (hVersion : resource.metadata.version = some (toString number))
    (hOnly : ∀ {key' document}, event.after.objects.get? key' = some document →
      document.version? = some (toString number) → key' = key) :
    Held grounds i (history ++ [event]) event.after resource := by
  refine ⟨hWritable, key, event, [], ?_, hGrounds⟩
  exact {
    split := ⟨history, rfl⟩
    maker := hMaker
    others := fun _ hOther => absurd hOther List.not_mem_nil
    numbered := ⟨number, hNumber, hVersion⟩
    only := fun hGet hSame => hOnly hGet (hSame.trans hVersion)
    later := .refl _
    disturbed := fun ⟨_, hOther, _⟩ => absurd hOther List.not_mem_nil }

/-- An edit holds what it has fetched. -/
theorem Held.of_get (hEvent : event = ⟨some i, .get key, now, store⟩) (hSound : store.Sound)
    (hAnswer : (store.get key).1 = .ok resource) :
    Held (fun key request => request = .get key) i (history ++ [event]) event.after resource := by
  obtain ⟨⟨document, hGet, hRead⟩, hStore⟩ := Store.of_get_eq_ok (Prod.ext hAnswer rfl)
  have hAfter : event.after = store.count .get := by
    rw [hEvent]
    exact hStore
  obtain ⟨hParts, number, hNumber, hVersion⟩ := hSound.stored hGet
  obtain ⟨hToken, hWritable⟩ := Resource.version_of_ofJson hParts hVersion hRead
  refine Held.of_answer (by rw [hEvent]) hWritable (by rw [hEvent]) (hAfter ▸ hNumber) hToken
    fun hOther hSame => ?_
  rw [hAfter] at hOther
  exact hSound.distinct hOther hGet (hSame.trans hVersion.symm)

/-- An edit holds what its patch was answered with, also with another status. -/
theorem Held.of_patch {first target : Resource}
    (hEvent : event = ⟨some i, .patch resource base, now, store⟩) (hSound : store.Sound)
    (hAnswer : (store.patch resource base).1 = .ok first)
    (hMetadata : target.metadata = first.metadata) (hWritable : target.unwritable = none)
    (hGrounds : grounds resource.key (.patch resource base)) :
    Held grounds i (history ++ [event]) event.after target := by
  obtain ⟨document, hGet, hRead, hStore⟩ := Store.of_patch_eq_ok (Prod.ext hAnswer rfl)
  have hAfter : event.after = (store.patch resource base).2 := by
    rw [hEvent]
    rfl
  have hVersion : event.after.version = store.version + 1 := hAfter ▸ congrArg Store.version hStore
  have hMerged := Store.hasParts_merge (hSound.stored hGet).1 base resource
  obtain ⟨hToken, -⟩ :=
    Resource.version_of_ofJson (hMerged.withVersion _) (hMerged.version? _) hRead
  refine Held.of_answer (by rw [hEvent]) hWritable (by rw [hEvent]; exact hGrounds)
    (Nat.le_of_eq hVersion.symm) (hMetadata ▸ hToken) fun hOther hSame => ?_
  rw [hAfter] at hOther
  rcases (Store.changed_serve hSound now (.patch resource base)).get?_cases hOther with ⟨hOld, -⟩ | ⟨hKey, -⟩
  · exact absurd hSame (hSound.version?_ne_next hOld)
  · exact (Option.some.inj hKey).symm

/-- A write that names the version of what the edit has. -/
theorem Held.decided {stage : Stage σ μ} {verb : Verb} {change : Json → Json}
    {served : Except StoreError Resource × Store} (h : Held grounds i history store base)
    (hGrounds : ∀ origin request, grounds origin request → Grounds origin request event.request)
    (hBefore : event.before = store)
    (hServed : served = store.write verb key base.metadata.version change)
    (hAfter : event.after = served.2) (hWritten : event.request.written? = some key)
    (hEnds : ∀ error, served.1 = .error error → ∃ value scene,
      stage = .ended (.ok { mutation := some value, written := .error (.store error) }) scene) :
    ∃ first source between origin, history = first ++ source :: between ∧
      source.maker = some i ∧ (∀ other ∈ between, other.maker ≠ some i) ∧
      Grounds origin source.request event.request ∧
      Decided i source between origin key event [] stage := by
  obtain ⟨origin, source, between, hSource, hGround⟩ := h.source
  obtain ⟨first, hSplit⟩ := hSource.split
  exact ⟨first, source, between, origin, hSplit, hSource.maker, hSource.others,
    hGrounds origin source.request hGround,
    hSource.decided hBefore hServed hAfter hWritten hEnds⟩

end

/-- Whether an edit at a stage has what it still writes from its own requests. -/
def Stage.Founded (i : ι) (history : List (Event ι)) (store : Store) : Stage σ μ → Prop
  | .fetching _ | .ended .. => True
  | .mutating base _ | .hooking base _ _ =>
    Held (fun key request => request = .get key) i history store base.resource
  | .patching base _ _ scene =>
    Held (fun key request => request = .get key) i history store base.resource ∧
      scene.resource.unwritable = none
  | .patchingStatus _ _ target base _ =>
    Held (fun key request => Grounds key request (.patchStatus target base)) i history store base ∧
      target.unwritable = none

namespace Stage

/-- What others do does not take away what an edit rests on. -/
theorem Founded.extend {stage : Stage σ μ} (h : stage.Founded i history store)
    (hSound : store.Sound) (hBefore : event.before = store) (hMaker : event.maker ≠ some i) :
    stage.Founded i (history ++ [event]) event.after := by
  cases stage with
  | fetching => trivial
  | mutating => exact Held.extend h hSound hBefore hMaker
  | hooking => exact Held.extend h hSound hBefore hMaker
  | patching => exact ⟨h.1.extend hSound hBefore hMaker, h.2⟩
  | patchingStatus => exact ⟨h.1.extend hSound hBefore hMaker, h.2⟩
  | ended => trivial

section

variable {edit : Edit σ μ} {base : Base} {value : μ} {scene : Scene σ}

/-- What is due rests on what was fetched. -/
theorem founded_due {after : Snapshot}
    (h : Held (fun key request => request = .get key) i history store base.resource)
    (hWritable : scene.resource.unwritable = none) :
    (due base value after scene).Founded i history store := by
  unfold due
  split
  · split
    · trivial
    · obtain ⟨key, source, between, hSource, hGet⟩ := h.source
      exact ⟨⟨h.writable, key, source, between, hSource, hGet ▸ .fetchedStatus⟩, hWritable⟩
  · exact ⟨h, hWritable⟩

theorem founded_hooked {ended : Except (Stop Empty) Unit × Scene σ}
    (h : Held (fun key request => request = .get key) i history store base.resource) :
    (hooked base value ended).Founded i history store := by
  unfold hooked
  split
  · trivial
  · split
    · trivial
    · rename_i hSnapshot
      exact founded_due h (Resource.snapshot_eq_ok_iff.1 hSnapshot).1

theorem founded_mutated {ended : Except (Stop Empty) μ × Scene σ}
    (h : Held (fun key request => request = .get key) i history store base.resource) :
    (mutated edit base ended).Founded i history store := by
  unfold mutated
  split
  · trivial
  · split
    · trivial
    · split
      · trivial
      · split
        · trivial
        · rename_i hSnapshot
          have hWritable := (Resource.snapshot_eq_ok_iff.1 hSnapshot).1
          split
          · exact founded_due h hWritable
          · split
            · exact founded_due h hWritable
            · exact h

theorem Founded.leaveHook {stage : Stage σ μ} (h : stage.Founded i history store) :
    stage.leaveHook.Founded i history store := by
  unfold Stage.leaveHook
  split
  · exact founded_hooked h
  · exact h

theorem Founded.proceed {stage : Stage σ μ} (h : stage.Founded i history store) :
    (stage.proceed edit).Founded i history store := by
  unfold Stage.proceed
  split
  · exact (founded_mutated h).leaveHook
  · exact h.leaveHook

/-- An edit has its answers from its own requests, whoever made the last one. -/
theorem Founded.next {stage : Stage σ μ} {pending : Pending σ μ} {now : Timestamp}
    (h : stage.Founded i history store) (hSound : store.Sound)
    (hPending : stage.pending? edit = some pending)
    (hEvent : event = ⟨if pending.own then some i else none, pending.request, now, store⟩) :
    (pending.next (pending.request.serve now store).1).Founded i (history ++ [event])
      event.after := by
  cases stage with
  | fetching scene =>
      cases hPending
      show (fetched edit scene (store.get scene.resource.key).1).Founded i _ _
      cases hAnswer : (store.get scene.resource.key).1 with
      | error error => trivial
      | ok resource =>
          unfold fetched
          dsimp only
          split
          · trivial
          · exact Held.of_get hEvent hSound hAnswer
  | mutating base left =>
      cases left with
      | done ended => cases hPending
      | call request next =>
          cases hPending
          exact Held.extend h hSound (by rw [hEvent]) (by simp [hEvent])
  | hooking base value left =>
      cases left with
      | done ended => cases hPending
      | call request next =>
          cases hPending
          exact Held.extend h hSound (by rw [hEvent]) (by simp [hEvent])
  | patching base value after scene =>
      cases hPending
      show (patched base value after scene
        (store.patch scene.resource base.resource).1).Founded i _ _
      cases hAnswer : (store.patch scene.resource base.resource).1 with
      | error error => trivial
      | ok first =>
          unfold patched
          dsimp only
          split
          · trivial
          · split
            · trivial
            · rename_i hBefore
              split
              · trivial
              · rename_i hTarget
                obtain ⟨hMetadata, -, hWritable⟩ := Resource.of_withStatus_eq_ok hBefore
                obtain ⟨-, -, hTargetWritable⟩ := Resource.of_withStatus_eq_ok hTarget
                exact ⟨Held.of_patch hEvent hSound hAnswer hMetadata hWritable .patched,
                  hTargetWritable⟩
  | patchingStatus value written target base scene =>
      cases hPending
      show (statusPatched value written scene (store.patchStatus target base).1).Founded i _ _
      cases (store.patchStatus target base).1 <;> trivial
  | ended => cases hPending

/-- What becomes of a write when an edit makes it. -/
theorem Founded.decided {stage : Stage σ μ} {pending : Pending σ μ} {now : Timestamp}
    (h : stage.Founded i history store) (hPending : stage.pending? edit = some pending)
    (hOwn : pending.own = true) (hEvent : event = ⟨some i, pending.request, now, store⟩)
    (hWritten : event.request.written? = some key) :
    ∃ first source between origin, history = first ++ source :: between ∧
      source.maker = some i ∧ (∀ other ∈ between, other.maker ≠ some i) ∧
      Grounds origin source.request event.request ∧
      Decided i source between origin key event []
        ((pending.next (pending.request.serve now store).1).proceed edit) := by
  cases stage with
  | fetching scene =>
      cases hPending
      rw [hEvent] at hWritten
      cases hWritten
  | mutating base left =>
      cases left with
      | done ended => cases hPending
      | call request next =>
          cases hPending
          cases hOwn
  | hooking base value left =>
      cases left with
      | done ended => cases hPending
      | call request next =>
          cases hPending
          cases hOwn
  | patching base value after scene =>
      cases hPending
      have hKey : scene.resource.key = key := by
        rw [hEvent] at hWritten
        exact Option.some.inj hWritten
      refine h.1.decided (fun _ _ hGet => by rw [hGet, hEvent]; exact .fetched) (by rw [hEvent])
        (hKey ▸ Store.patch_eq_write h.1.writable h.2 store) (by rw [hEvent]; rfl) hWritten
        fun error hError => ⟨value, scene, ?_⟩
      show (patched base value after scene
        (store.patch scene.resource base.resource).1).proceed edit = _
      rw [hError]
      rfl
  | patchingStatus value written target base scene =>
      cases hPending
      have hKey : target.key = key := by
        rw [hEvent] at hWritten
        exact Option.some.inj hWritten
      refine h.1.decided (fun _ _ hGrounds => by rw [hEvent]; exact hGrounds) (by rw [hEvent])
        (hKey ▸ Store.patchStatus_eq_write h.1.writable h.2 store) (by rw [hEvent]; rfl) hWritten
        fun error hError => ⟨value, scene, ?_⟩
      show (statusPatched value written scene (store.patchStatus target base).1).proceed edit = _
      rw [hError]
      rfl
  | ended => cases hPending

end

end Stage

end Edit

end Reconciliation
