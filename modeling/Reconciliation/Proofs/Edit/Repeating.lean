import Reconciliation.Proofs.Edit.Effect
import Reconciliation.Proofs.Json.Assignment
import Reconciliation.Proofs.Store.Failing
import Reconciliation.Proofs.Task.Conduct

/-!
Edits that put a value in place of the specification, one after another. `Assigns` says what one of
them writes, and `Ready` what it needs to succeed and leaves behind: `Ready.next` is the step and
`Ready.repeated` the run. Such edits either have nothing to write from the second one on, or each of
them writes the same patch again, as `exists_repeats_of_assigning` says.
-/
namespace Reconciliation

open Json (patchedTo)

namespace Resource

/-- Beside the status a document has the metadata and the specification, and nothing else. -/
theorem get?_main (resource : Resource) (key : String) :
    (Json.object resource.toObject).snapshot.main.members.get? key =
      if key = "metadata" then some resource.metadata.toJson
      else if key = "spec" then some resource.spec else none := by
  by_cases hMetadata : key = "metadata"
  · subst hMetadata
    exact resource.parts_main.metadata
  by_cases hSpec : key = "spec"
  · subst hSpec
    exact resource.parts_main.spec
  simp +contextual [Json.snapshot, Json.setStatus, toObject, Json.Object.ofList,
    Members.get?_erase, hMetadata, hSpec]

/-- With the same metadata, all but the status agrees if and only if the specifications do. -/
theorem mainAgree_iff_of_metadata {resource base : Resource}
    (h : resource.metadata = base.metadata) :
    (Json.object base.toObject).snapshot.MainAgree (Json.object resource.toObject).snapshot ↔
      base.spec.Agree resource.spec := by
  rw [Snapshot.MainAgree, base.parts_main.eq_object, resource.parts_main.eq_object,
    Json.agree_object_iff]
  simp only [get?_main, h]
  constructor
  · intro hMembers
    exact Option.some.inj (hMembers "spec")
  · intro hAgree key
    split
    · rfl
    · split
      · exact congrArg some hAgree
      · rfl

end Resource

namespace Edit

variable {σ : Type} {value : Json} {persistent : Bool} {now : Timestamp}
  {scene scene' : Scene σ} {key : Key} {fetched result : Resource} {store store' : Store}
  {written : Written} {made : List Request}

def assign (value : Json) : Task σ Report Unit :=
  Task.modifyResource fun resource => { resource with spec := value }

/-- An edit that puts a value in place of the specification. -/
def assigning (value : Json) (persistent : Bool) : Task σ WorkError Outcome :=
  runTask (assign value) persistent

/-- What an edit of this kind writes: nothing if the specification agrees with the value, and else a
patch. -/
inductive Assigns (value : Json) (fetched : Resource) (store : Store) :
    Written → List Request → Resource → Store → Prop where
  | kept (hAgree : fetched.spec.Agree value) :
    Assigns value fetched store .nothing [] { fetched with spec := value } store
  | patched {found : Resource} {store' : Store} (hAgree : ¬fetched.spec.Agree value)
    (hPatch : store.patch { fetched with spec := value } fetched = (.ok found, store')) :
    Assigns value fetched store .main [.patch { fetched with spec := value } fetched] found store'

/-- To write a resource with another specification is to write that specification. -/
theorem writes_iff_assigns {base : Base} {after : Snapshot}
    (hBase : base.resource.snapshot = .ok base.snapshot)
    (hAfter : Resource.snapshot { base.resource with spec := value } = .ok after) :
    Writes base { base.resource with spec := value } after store written made result store' ↔
      Assigns value base.resource store written made result store' := by
  obtain ⟨-, hBefore⟩ := Resource.snapshot_eq_ok_iff.1 hBase
  obtain ⟨-, rfl⟩ := Resource.snapshot_eq_ok_iff.1 hAfter
  have hMain : base.snapshot.MainAgree
      (Json.object { base.resource with spec := value }.toObject).snapshot ↔
        base.resource.spec.Agree value := by
    rw [hBefore]
    exact Resource.mainAgree_iff_of_metadata rfl
  have hStatus : base.snapshot.StatusAgree
      (Json.object { base.resource with spec := value }.toObject).snapshot := by
    rw [hBefore, Snapshot.StatusAgree, Resource.status_snapshot, Resource.status_snapshot]
  constructor
  · intro h
    cases h with
    | nothing hSame _ => exact .kept (hMain.1 hSame)
    | main hChanged _ hPatch => exact .patched (mt hMain.2 hChanged) hPatch
    | mainAndStatus _ hChanged | statusOnly _ hChanged => exact absurd hStatus hChanged
  · intro h
    cases h with
    | kept hAgree => exact .nothing (hMain.2 hAgree) hStatus
    | patched hAgree hPatch => exact .main (mt hMain.1 hAgree) hStatus hPatch

/-- An edit that finds its resource assigns the value. -/
theorem ends_assigning (hGet : store.get scene.resource.key = (.ok fetched, store.count .get))
    (hKey : fetched.key = scene.resource.key) (hWritable : fetched.unwritable = none)
    (h : Assigns value fetched (store.count .get) written made result store') :
    (assigning value persistent).Ends now scene store (.get scene.resource.key :: made)
      ⟨.ok { written, failure := none }, { scene with resource := result }, store'⟩ := by
  have hBase : fetched.snapshot = .ok _ := Resource.snapshot_eq_ok_iff.2 ⟨hWritable, rfl⟩
  have hAfter : Resource.snapshot { fetched with spec := value } = .ok _ :=
    Resource.snapshot_eq_ok_iff.2 ⟨hWritable, rfl⟩
  have hFetch : fetch.Ends now scene store [.get scene.resource.key]
      ⟨.ok ⟨scene.resource.key, fetched, _⟩, { scene with resource := fetched },
        store.count .get⟩ :=
    ends_fetch_ok_iff.2 ⟨rfl, rfl, hGet, hBase, rfl⟩
  have hAssign : (assign value).Ends now { scene with resource := fetched } (store.count .get) []
      ⟨.ok (), { scene with resource := { fetched with spec := value } }, store.count .get⟩ :=
    ⟨rfl, rfl⟩
  exact ends_runTask hFetch hAssign hKey hAfter ((writes_iff_assigns hBase hAfter).2 h)

/-- An edit whose mutation ends with one value at all times ends with that value. -/
theorem mutation_eq_of_exec {μ : Type} {edit : Edit σ μ} {edited : Edited μ} {value found : μ}
    (hRun : edit.run.exec now scene store = ⟨.ok edited, scene', store'⟩)
    (hMutate : ∀ scene store, (edit.mutate.exec now scene store).result = .ok value)
    (hFound : edited.mutation = some found) : found = value := by
  obtain ⟨answer, scene₁, store₁, -, hRest⟩ := Task.exec_bind_eq_ok_iff.1 hRun
  cases answer with
  | error error =>
      cases hRest
      cases hFound
  | ok base =>
      obtain ⟨given, scene₂, store₂, hGiven, hPersist⟩ := Task.exec_bind_eq_ok_iff.1 hRest
      obtain ⟨written, scene₃, store₃, -, hReturn⟩ := Task.exec_bind_eq_ok_iff.1 hPersist
      cases hReturn
      cases hFound
      have hResult := hMutate scene₁ store₁
      rw [hGiven] at hResult
      exact Except.ok.inj hResult

/-- Every edit that ends with an outcome has assigned the value. -/
theorem exists_assigns_of_exec {outcome : Outcome}
    (hRun : (assigning value persistent).exec now scene store = ⟨.ok outcome, scene', store'⟩) :
    ∃ fetched made, store.get scene.resource.key = (.ok fetched, store.count .get) ∧
      Assigns value fetched (store.count .get) outcome.written made scene'.resource store' := by
  obtain ⟨edited, hEdited, hWritten, -, -⟩ := of_runTask_eq_ok hRun
  have hQuiet : (assign value : Task σ Report Unit).Quiet := fun _ => ⟨_, rfl⟩
  have hHook : ∀ hook, (ofTask (assign value) persistent none : Edit σ _).onChange = some hook →
      hook.Quiet := by
    intro hook hHook
    cases hHook
  have hKeeps : ∀ found, edited.mutation = some found →
      (ofTask (assign value) persistent none : Edit σ _).aborts found = false := by
    intro found hFound
    rw [mutation_eq_of_exec hEdited (fun _ _ => rfl) hFound]
    simp [ofTask, Except.isOk, Except.toBool]
  obtain ⟨course, made, -, -, hWrites, -⟩ :=
    exists_course_of_exec hQuiet.attempt hHook hEdited hWritten hKeeps
  obtain ⟨-, hStore⟩ := Store.of_get_eq_ok course.get_eq
  have hMutated : course.mutated =
      { scene with resource := { course.base.resource with spec := value } } :=
    (congrArg Execution.scene course.mutate_eq).symm
  have hSettled : course.settled.resource = { course.base.resource with spec := value } :=
    congrArg Scene.resource hMutated
  have hAfter : course.settled.resource.snapshot = .ok course.after := course.after_eq
  rw [hSettled] at hWrites hAfter
  rw [hStore] at hWrites
  exact ⟨course.base.resource, made, hStore ▸ course.get_eq,
    (writes_iff_assigns course.snapshot_eq hAfter).1 hWrites⟩

structure Ready (value : Json) (key : Key) (resource : Resource) (store : Store) : Prop where
  reachable : store.Reachable
  get_eq : (store.get key).1 = .ok resource
  /-- There is nothing to write, or what there is can be written and read again. -/
  writes : ¬resource.spec.Agree value → value ≠ .null ∧ .patch ∉ store.failing

/-- A patch that assigns a value leads to what comes of the specification by a patch to that. -/
theorem Reads.spec_of_patch {document : Json} (h : Reads store key fetched document)
    (hAgree : ¬fetched.spec.Agree value)
    (hPatch : store.patch { fetched with spec := value } fetched = (.ok result, store')) :
    value ≠ .null ∧ result.spec = patchedTo value fetched.spec := by
  obtain ⟨stored, hStored, hRead, -⟩ := Store.of_patch_eq_ok hPatch
  obtain rfl : document = stored :=
    Option.some.inj (h.stored.symm.trans (h.key_eq ▸ hStored))
  obtain ⟨metadata, spec, status, hParts⟩ := h.hasParts
  have hSpec := ((Resource.ofJson_eq_ok_iff hParts).1 h.read).spec
  have hNew := Resource.parts_main { fetched with spec := value }
  obtain ⟨spec', hMerged, -⟩ := hParts.merge_diff fetched.parts_main hNew
  have hResult := ((Resource.ofJson_eq_ok_iff (hMerged.withVersion _)).1 hRead).spec
  have hNull : value ≠ .null := by
    rintro rfl
    have hDrops : Resource.DropsSpec { fetched with spec := .null } fetched :=
      ⟨rfl, fun hWas => hAgree (by rw [hWas])⟩
    cases hResult.symm.trans (hMerged.spec_eq_none_of_dropsSpec hDrops)
  refine ⟨hNull, ?_⟩
  have hFound := hResult.symm.trans hMerged.spec_of_merge
  rw [Json.get?_mergeMembers_diffObjects_of_ne_null hNew.spec hNull, fetched.parts_main.spec,
    hParts.spec, hSpec] at hFound
  simp only [hAgree, if_false, Option.getD_some] at hFound
  rw [patchedTo, if_neg hAgree]
  exact Option.some.inj hFound

/-- What has been patched in this way stands in the store. -/
theorem Reads.get_of_patch {document : Json} (h : Reads store key fetched document)
    (hStore : store.Reachable)
    (hPatch : store.patch { fetched with spec := value } fetched = (.ok result, store')) :
    store'.Reachable ∧ (store'.get key).1 = .ok result ∧ store'.version = store.version + 1 ∧
      store'.failing = store.failing := by
  obtain rfl : fetched.key = key := h.key_eq
  let request : Request := .patch { fetched with spec := value } fetched
  have hServe : (request.serve default store).2 = store' := congrArg Prod.snd hPatch
  have hReachable : store'.Reachable := hServe ▸ hStore.serve default request
  have hSpared : store.Spared store' fetched.key :=
    hServe ▸ Store.spared_serve hStore.sound default (show request.SparesMetadata from rfl) _
  obtain ⟨document', hStored', -⟩ := hSpared.stored h.stored (hStore.isReleased_of_get? h.stored)
  obtain ⟨stored, hStored, hRead, rfl⟩ := Store.of_patch_eq_ok hPatch
  have hCommitted := Store.get?_of_commit_of_contains (Option.isSome_iff_exists.2 ⟨_, hStored'⟩)
  have hGet := Store.get_eq_ok (by exact h.allowed) hCommitted hRead
  exact ⟨hReachable, congrArg Prod.fst hGet, rfl, rfl⟩

/-- A patch that went through was of a kind that does not fail. -/
theorem not_mem_failing_of_patch {resource base : Resource}
    (hPatch : store.patch resource base = (.ok result, store')) (hBase : base.unwritable = none)
    (hResource : resource.unwritable = none) : .patch ∉ store.failing := by
  intro hFailing
  rw [Store.patch_eq_write hBase hResource] at hPatch
  simp [Store.write, Store.allow, Store.count, hFailing, bind, Except.bind] at hPatch

/-- Where an edit that assigns a value succeeds, the store was ready for it. -/
theorem Assigns.ready (h : Assigns value fetched (store.count .get) written made result store')
    (hStore : store.Reachable) (hGet : (store.get key).1 = .ok fetched) :
    Ready value key fetched store := by
  obtain ⟨document, hReads⟩ := exists_reads hStore hGet
  cases h with
  | kept hAgree => exact ⟨hStore, hGet, absurd hAgree⟩
  | patched hAgree hPatch =>
      obtain ⟨hNull, -⟩ := (hReads.count .get).spec_of_patch hAgree hPatch
      have hAllowed := not_mem_failing_of_patch hPatch hReads.writable hReads.writable
      exact ⟨hStore, hGet, fun _ => ⟨hNull, hAllowed⟩⟩

/-- What is left by an edit that assigns a value is ready for the next one. -/
theorem Ready.next (h : Ready value key fetched store)
    (hAssigns : Assigns value fetched (store.count .get) written made result store') :
    ∃ found, found.spec = patchedTo value fetched.spec ∧ Ready value key found store' ∧
      store'.version = store.version + made.length := by
  obtain ⟨document, hReads⟩ := exists_reads h.reachable h.get_eq
  have hFetched : (store.count .get).Reachable := h.reachable.serve default (.get key)
  cases hAssigns with
  | kept hAgree =>
      have hSpec := Json.patchedTo_of_agree hAgree
      exact ⟨fetched, hSpec.symm, ⟨hFetched, h.get_eq, h.writes⟩, rfl⟩
  | patched hAgree hPatch =>
      obtain ⟨-, hSpec⟩ := (hReads.count .get).spec_of_patch hAgree hPatch
      obtain ⟨hReachable, hGet, hVersion, hFailing⟩ :=
        (hReads.count .get).get_of_patch hFetched hPatch
      exact ⟨result, hSpec, ⟨hReachable, hGet, fun _ => hFailing ▸ h.writes hAgree⟩, hVersion⟩

/-- In a store that is ready, the value can be assigned. -/
theorem Ready.exists_assigns (h : Ready value key fetched store) :
    ∃ written made result store',
      Assigns value fetched (store.count .get) written made result store' := by
  by_cases hAgree : fetched.spec.Agree value
  · exact ⟨_, _, _, _, .kept hAgree⟩
  obtain ⟨hNull, hAllowed⟩ := h.writes hAgree
  obtain ⟨document, hReads⟩ := exists_reads h.reachable h.get_eq
  have hFetched : (store.count .get).Reachable := h.reachable.serve default (.get key)
  have hKeeps : ¬Resource.DropsSpec { fetched with spec := value } fetched :=
    fun hDrops => hNull hDrops.1
  have hWritable : Resource.unwritable { fetched with spec := value } = none := hReads.writable
  rcases Store.patch_cases_of_finds hFetched.sound hReads.read
      (by exact hReads.key_eq ▸ (hReads.count .get).finds) hAllowed hReads.writable hWritable with
    ⟨-, -, result, hPatch⟩ | ⟨hDrops | hUnsound, -⟩
  · exact ⟨_, _, _, _, .patched hAgree (Prod.ext hPatch rfl)⟩
  · exact absurd hDrops hKeeps
  · exact absurd hReads.sound hUnsound

/-- So an edit that assigns it to the resource there goes through. -/
theorem Ready.ends (h : Ready value key fetched store) (hKey : scene.resource.key = key)
    (hAssigns : Assigns value fetched (store.count .get) written made result store') :
    (assigning value persistent).Ends now scene store (.get key :: made)
      ⟨.ok { written, failure := none }, { scene with resource := result }, store'⟩ := by
  obtain ⟨document, hReads⟩ := exists_reads h.reachable h.get_eq
  subst hKey
  exact ends_assigning (Prod.ext h.get_eq rfl) hReads.key_eq hReads.writable hAssigns

end Edit

/-- What is left of a store by a task that is carried out time and again, each time with another
resource in hand. -/
def Task.repeated {σ ε α : Type} (task : Task σ ε α) : List (Timestamp × Scene σ) → Store → Store
  | [], store => store
  | (now, scene) :: rest, store => task.repeated rest (task.exec now scene store).store

namespace Edit

variable {σ : Type} {value : Json} {persistent : Bool} {key : Key} {fetched : Resource}
  {store : Store}

/-- How often a value is assigned makes no difference to the specification. Each time there is one
version more, unless it has become the value. -/
theorem Ready.repeated (h : Ready value key fetched store)
    (hFixed : patchedTo value fetched.spec = fetched.spec) {turns : List (Timestamp × Scene σ)}
    (hKeys : ∀ turn ∈ turns, turn.2.resource.key = key) :
    let last := (assigning value persistent).repeated turns store
    ∃ found, found.spec = fetched.spec ∧ Ready value key found last ∧
      last.version = store.version + if fetched.spec.Agree value then 0 else turns.length := by
  induction turns generalizing fetched store with
  | nil => exact ⟨fetched, rfl, h, by simp [Task.repeated]⟩
  | cons turn rest ih =>
      obtain ⟨now, scene⟩ := turn
      obtain ⟨hKey, hRest⟩ := List.forall_mem_cons.1 hKeys
      obtain ⟨written, made, result, store', hAssigns⟩ := h.exists_assigns
      obtain ⟨found, hSpec, hReady, hVersion⟩ := h.next hAssigns
      rw [hFixed] at hSpec
      obtain ⟨found', hSpec', hReady', hVersion'⟩ := ih hReady (by rw [hSpec, hFixed]) hRest
      rw [Task.repeated, (h.ends hKey hAssigns).exec]
      refine ⟨found', hSpec'.trans hSpec, hReady', ?_⟩
      rw [hVersion', hVersion, hSpec]
      cases hAssigns with
      | kept hAgree => simp [hAgree]
      | patched hAgree => simp [hAgree]; omega

/-- What a further edit does that assigns a value to a specification as an earlier one has left it.
-/
structure Recurs (σ : Type) (value : Json) (persistent : Bool) (key : Key) (found : Resource)
    (store : Store) : Prop where
  peek : store.peek key = some found
  /-- Where the specification is the value, it writes nothing. -/
  settled : found.spec.Agree value → ∀ {now} {scene : Scene σ}, scene.resource.key = key →
    (assigning value persistent).Ends now scene store [.get key]
      ⟨.ok { written := .nothing, failure := none },
        { scene with resource := { found with spec := value } }, store.count .get⟩
  /-- Where it is not, the edit writes a version more that has the same specification again. -/
  restless : ¬found.spec.Agree value → ∀ {now} {scene : Scene σ}, scene.resource.key = key →
    ∃ next store', (assigning value persistent).Ends now scene store
        [.get key, .patch { found with spec := value } found]
        ⟨.ok { written := .main, failure := none }, { scene with resource := next }, store'⟩ ∧
      store'.version = store.version + 1 ∧
      ∃ found', store'.peek key = some found' ∧ found'.spec = found.spec

theorem Ready.peek_eq (h : Ready value key fetched store) : store.peek key = some fetched := by
  obtain ⟨document, hReads⟩ := exists_reads h.reachable h.get_eq
  exact Store.peek_eq_some hReads.stored hReads.read

/-- A value that a patch leads to is assigned once, and all further edits find nothing to do. -/
theorem Ready.recurs (h : Ready value key fetched store)
    (hFixed : patchedTo value fetched.spec = fetched.spec) :
    Recurs σ value persistent key fetched store where
  peek := h.peek_eq
  settled hAgree _ _ hKey := h.ends hKey (.kept hAgree)
  restless hAgree _ _ hKey := by
    obtain ⟨written, made, result, store', hAssigns⟩ := h.exists_assigns
    obtain ⟨found, hSpec, hReady, hVersion⟩ := h.next hAssigns
    cases hAssigns with
    | kept hKept => exact absurd hKept hAgree
    | patched _ hPatch =>
        exact ⟨result, store', h.ends hKey (.patched hAgree hPatch), hVersion, found,
          hReady.peek_eq, hSpec.trans hFixed⟩

/-- What has become of the specification by an edit that assigns a value to it, and what comes of
all further edits of this kind. -/
structure Repeats (σ : Type) (value : Json) (persistent : Bool) (key : Key)
    (fetched found : Resource) (store : Store) : Prop where
  /-- The specification is the value exactly if a patch can lead there. -/
  agree_iff : found.spec.Agree value ↔ Json.MemberReaches (some fetched.spec) value
  agree : value.hasNull = false → found.spec.Agree value
  recurs : Recurs σ value persistent key found store
  /-- So it goes on, with the same specification each time. -/
  again : ∀ turns : List (Timestamp × Scene σ), (∀ turn ∈ turns, turn.2.resource.key = key) →
    let last := (assigning value persistent).repeated turns store
    ∃ found', found'.spec = found.spec ∧ Recurs σ value persistent key found' last ∧
      last.version = store.version + if found.spec.Agree value then 0 else turns.length

/-- An edit that assigns a value to the specification and succeeds leaves the value there exactly if
a patch can lead there, as it can wherever the value has no nulls. If so, no further edit of this
kind writes anything, and else each of them writes once more. -/
theorem exists_repeats_of_assigning {now : Timestamp} {scene scene' : Scene σ} {store' : Store}
    {outcome : Outcome} (hStore : store.Reachable)
    (hRun : (assigning value persistent).exec now scene store = ⟨.ok outcome, scene', store'⟩) :
    ∃ fetched found, (store.get scene.resource.key).1 = .ok fetched ∧
      Repeats σ value persistent scene.resource.key fetched found store' := by
  obtain ⟨fetched, made, hGet, hAssigns⟩ := exists_assigns_of_exec hRun
  have hReady := hAssigns.ready hStore (congrArg Prod.fst hGet)
  obtain ⟨found, hSpec, hFound, -⟩ := hReady.next hAssigns
  have hFixed : patchedTo value found.spec = found.spec := by
    rw [hSpec, Json.patchedTo_patchedTo]
  refine ⟨fetched, found, congrArg Prod.fst hGet, ?_⟩
  constructor
  · rw [hSpec]
    refine Json.patchedTo_agree_iff (or_iff_not_imp_right.2 fun hAgree => ?_)
    exact (hReady.writes hAgree).1
  · rw [hSpec]
    exact Json.patchedTo_agree_of_hasNull_eq_false fetched.spec
  · exact hFound.recurs hFixed
  · intro turns hKeys
    obtain ⟨found', hSame, hLast, hVersion⟩ := hFound.repeated hFixed hKeys
    exact ⟨found', hSame, hLast.recurs (by rw [hSame, hFixed]), hVersion⟩

/-- A null that was there before is kept, and the edit is not repeated. -/
theorem exists_repeats_of_keptNull :
    let value := Json.object (Json.Object.ofList [("a", .null), ("b", .bool true)])
    let before := { plainResource with spec := .object (Json.Object.ofList [("a", .null)]) }
    let store := (Store.insert before {}).2
    let first := (assigning value false).exec default ⟨plainResource, ()⟩ store
    store.Reachable ∧ first.result = .ok { written := .main, failure := none } ∧
      ∃ fetched found, (store.get plainResource.key).1 = .ok fetched ∧ found.spec = value ∧
        Repeats Unit value false plainResource.key fetched found first.store := by
  intro value before store first
  have hStore : store.Reachable := .serve .empty default (.insert before)
  have hResult : first.result = .ok { written := .main, failure := none } :=
    Except.of_toOption_eq_some (by decide +kernel)
  have hSpec : (first.store.peek plainResource.key).map Resource.spec = some value := by
    decide +kernel
  have hRun : (assigning value false).exec default ⟨plainResource, ()⟩ store =
      ⟨.ok { written := .main, failure := none }, first.scene, first.store⟩ := by
    rw [← hResult]
  obtain ⟨fetched, found, hGet, hRepeats⟩ := exists_repeats_of_assigning hStore hRun
  rw [hRepeats.recurs.peek] at hSpec
  exact ⟨hStore, hResult, fetched, found, hGet, Option.some.inj hSpec, hRepeats⟩

/-- A null that was not there before does not come in, and the edit writes time and again. -/
theorem not_agree_of_freshNull :
    let value := Json.object (Json.Object.ofList [("x", .null)])
    let first := (assigning value false).exec default ⟨plainResource, ()⟩ plainStore
    let second := (assigning value false).exec default first.scene first.store
    plainStore.Reachable ∧ first.result = .ok { written := .main, failure := none } ∧
      (first.store.peek plainResource.key).map Resource.spec = some (.object .nil) ∧
      ¬Json.Agree (.object .nil) value ∧
      second.result = .ok { written := .main, failure := none } ∧
      second.store.version = first.store.version + 1 :=
  ⟨plainStore_reachable, rfl, rfl, by decide, rfl, rfl⟩

end Edit

end Reconciliation
