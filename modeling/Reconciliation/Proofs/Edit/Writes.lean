import Reconciliation.Proofs.Edit.Stages
import Reconciliation.Proofs.Store.Keys
import Reconciliation.Proofs.Task.Requests

/-!
What an edit writes when nobody else uses the store and neither the mutation nor the hook makes
requests. `Writes` lists the four cases, and `writes_of_run` finds the case of an edit.
-/
namespace Reconciliation.Edit

variable {σ μ : Type} {now : Timestamp} {scene scene' : Scene σ} {store store' : Store}

theorem fetch_apply (scene : Scene σ) :
    fetch scene = .call (.get scene.resource.key) fun
      | .error error => .done (.error (.error (.store error)), scene)
      | .ok resource =>
        match resource.snapshot with
        | .error error => .done (.error (.error (.codec error)), { scene with resource })
        | .ok snapshot =>
          .done (.ok { key := scene.resource.key, resource, snapshot }, { scene with resource }) := by
  refine congrArg (Program.call _) (funext fun answer => ?_)
  cases answer with
  | error error => rfl
  | ok resource =>
      show ((capture resource : Task σ WorkError Snapshot) { scene with resource }).bind _ = _
      rw [capture]
      cases hSnapshot : resource.snapshot with
      | error error => simp only [hSnapshot]; rfl
      | ok snapshot => simp only [hSnapshot]; rfl

/-- What is fetched is what the store has under the key of the resource in hand. -/
theorem ends_fetch_ok_iff {base : Base} {made : List Request} :
    fetch.Ends now scene store made ⟨.ok base, scene', store'⟩ ↔
      made = [.get scene.resource.key] ∧ base.key = scene.resource.key ∧
        store.get scene.resource.key = (.ok base.resource, store') ∧
        base.resource.snapshot = .ok base.snapshot ∧
        scene' = { scene with resource := base.resource } := by
  constructor
  · rintro ⟨hExec, rfl⟩
    rw [Task.exec, fetch_apply] at hExec
    rw [fetch_apply]
    rcases hGet : store.get scene.resource.key with ⟨error | resource, fetched⟩
    · simp only [Program.run, Request.serve, hGet] at hExec
      cases hExec
    · cases hSnapshot : resource.snapshot with
      | error error =>
          simp only [Program.run, Request.serve, hGet, hSnapshot] at hExec
          cases hExec
      | ok snapshot =>
          simp only [Program.run, Request.serve, hGet, hSnapshot] at hExec
          cases hExec
          refine ⟨?_, rfl, rfl, hSnapshot, rfl⟩
          simp only [Program.requests, Request.serve, hGet, hSnapshot]
  · obtain ⟨key, resource, snapshot⟩ := base
    rintro ⟨rfl, rfl, hGet, hSnapshot, rfl⟩
    dsimp only at hGet hSnapshot
    constructor
    · rw [Task.exec, fetch_apply]
      simp only [Program.run, Request.serve, hGet, hSnapshot]
    · rw [fetch_apply]
      simp only [Program.requests, Request.serve, hGet, hSnapshot]

theorem store_fetch (now : Timestamp) (scene : Scene σ) (store : Store) :
    ((fetch : Task σ WorkError Base).exec now scene store).store = store.count .get := by
  have hCounted : (store.get scene.resource.key).2 = store.count .get := rfl
  rw [Task.exec, fetch_apply]
  cases hGet : (store.get scene.resource.key).1 with
  | error error => simp only [Program.run, Request.serve, hGet, hCounted]
  | ok resource =>
      cases hSnapshot : resource.snapshot with
      | error error => simp only [Program.run, Request.serve, hGet, hSnapshot, hCounted]
      | ok snapshot => simp only [Program.run, Request.serve, hGet, hSnapshot, hCounted]

/-- How an edit ends whose mutation has ended. -/
theorem ends_run {edit : Edit σ μ} {base : Base} {value : μ} {scene₁ mutated : Scene σ}
    {store₁ store₂ : Store} {written : Except WorkError Written} {first second third : List Request}
    (hFetch : fetch.Ends now scene store first ⟨.ok base, scene₁, store₁⟩)
    (hMutate : edit.mutate.Ends now scene₁ store₁ second ⟨.ok value, mutated, store₂⟩)
    (hPersist : (persist base (edit.aborts value) edit.onChange).Ends now mutated store₂ third
      ⟨written.mapError .error, scene', store'⟩) :
    edit.run.Ends now scene store (first ++ (second ++ third))
      ⟨.ok { mutation := some value, written }, scene', store'⟩ := by
  refine (Task.ends_attempt_ok_iff.2 hFetch).bind (hMutate.bind ?_)
  rw [← List.append_nil third]
  exact (Task.ends_attempt_iff.2 hPersist).bind (Task.ends_pure_iff.2 ⟨rfl, rfl⟩)

section

variable {key : Key} {fetched : Resource}

/-- What a store is read from, and the document it is read from. -/
structure Reads (store : Store) (key : Key) (resource : Resource) (document : Json) : Prop where
  stored : store.objects.get? key = some document
  read : Resource.ofJson document = .ok resource
  hasParts : document.HasParts
  key_eq : resource.key = key
  finds : store.Finds key resource.metadata.version document
  writable : resource.unwritable = none
  allowed : .get ∉ store.failing

/-- What a store that began empty is read from. -/
theorem exists_reads (hStore : store.Reachable) (hGet : (store.get key).1 = .ok fetched) :
    ∃ document, Reads store key fetched document := by
  obtain ⟨⟨_, hStored, hRead⟩, -⟩ := Store.of_get_eq_ok (Prod.ext hGet rfl)
  obtain ⟨document, hFinds, hParts, hRead, hWritable⟩ :=
    hStore.sound.exists_finds (Store.peek_eq_some hStored hRead)
  refine ⟨document, hFinds.get_eq, hRead, hParts,
    (hStore.keyed hFinds.get_eq).key_of_ofJson hParts hRead, hFinds, hWritable,
    fun hFailing => ?_⟩
  rw [Store.get] at hGet
  simp [Store.allow, Store.count, hFailing, bind, Except.bind] at hGet

theorem Reads.count {document : Json} (h : Reads store key fetched document) (verb : Verb) :
    Reads (store.count verb) key fetched document where
  stored := h.stored
  read := h.read
  hasParts := h.hasParts
  key_eq := h.key_eq
  finds := ⟨h.finds.get_eq, h.finds.version_eq⟩
  writable := h.writable
  allowed := h.allowed

theorem Reads.sound {document : Json} (h : Reads store key fetched document) :
    fetched.metadata.Sound := by
  obtain ⟨_, _, _, hParts⟩ := h.hasParts
  exact ((Resource.ofJson_eq_ok_iff hParts).1 h.read).metadata.sound

theorem Reads.snapshot_eq {document : Json} (h : Reads store key fetched document) :
    fetched.snapshot = .ok (Json.object fetched.toObject).snapshot :=
  Resource.snapshot_eq_ok_iff.2 ⟨h.writable, rfl⟩

/-- A resource that can be read is fetched by one request. -/
theorem Reads.ends_fetch {document : Json} (h : Reads store scene.resource.key fetched document) :
    fetch.Ends now scene store [.get scene.resource.key]
      ⟨.ok { key := fetched.key, resource := fetched, snapshot := (Json.object fetched.toObject).snapshot },
        { scene with resource := fetched }, store.count .get⟩ :=
  ends_fetch_ok_iff.2
    ⟨rfl, h.key_eq, Store.get_eq_ok h.allowed h.stored h.read, h.snapshot_eq, rfl⟩

end

/-- What an edit writes of a resource that has the snapshot `after`, with the requests it makes, the
resource it has in hand then and the store afterwards. -/
inductive Writes (base : Base) (resource : Resource) (after : Snapshot) (store : Store) :
    Written → List Request → Resource → Store → Prop where
  | nothing (hMain : base.snapshot.MainAgree after) (hStatus : base.snapshot.StatusAgree after) :
    Writes base resource after store .nothing [] resource store
  | main {result : Resource} {store' : Store} (hMain : ¬base.snapshot.MainAgree after)
    (hStatus : base.snapshot.StatusAgree after)
    (hPatch : store.patch resource base.resource = (.ok result, store')) :
    Writes base resource after store .main [.patch resource base.resource] result store'
  | mainAndStatus {first before target result : Resource} {store₁ store' : Store}
    (hMain : ¬base.snapshot.MainAgree after) (hStatus : ¬base.snapshot.StatusAgree after)
    (hPatch : store.patch resource base.resource = (.ok first, store₁))
    (hBefore : first.withStatus base.snapshot.status = .ok before)
    (hTarget : first.withStatus after.status = .ok target)
    (hPatchStatus : store₁.patchStatus target before = (.ok result, store')) :
    Writes base resource after store .mainAndStatus
      [.patch resource base.resource, .patchStatus target before] result store'
  | statusOnly {result : Resource} {store' : Store} (hMain : base.snapshot.MainAgree after)
    (hStatus : ¬base.snapshot.StatusAgree after)
    (hPatch : store.patchStatus resource base.resource = (.ok result, store')) :
    Writes base resource after store .statusOnly [.patchStatus resource base.resource] result store'

section

variable {base : Base} {made : List Request}

/-- A request that is answered with a resource puts that in the place of the one in hand, and one
that is refused does not succeed. -/
theorem ends_renew_ok_iff {request : Task σ WorkError (Except StoreError Resource)} :
    (renew request).Ends now scene store made ⟨.ok (), scene', store'⟩ ↔
      ∃ result asked, request.Ends now scene store made ⟨.ok (.ok result), asked, store'⟩ ∧
        scene' = { asked with resource := result } := by
  constructor
  · intro h
    obtain ⟨first, _, answer, _, _, rfl, hRequest, hRest⟩ := Task.ends_bind_ok_iff.1 h
    obtain ⟨_, _, result, _, _, rfl, hGiven, hSet⟩ := Task.ends_bind_ok_iff.1 hRest
    obtain ⟨rfl, hAnswer, rfl, rfl⟩ := Task.ends_ofExcept_ok_iff.1 hGiven
    obtain rfl : answer = .ok result := Except.mapError_eq_ok_iff.1 hAnswer
    obtain ⟨rfl, hEnd⟩ := Task.ends_setResource_iff.1 hSet
    cases hEnd
    refine ⟨result, _, ?_, rfl⟩
    rw [List.append_nil, List.append_nil]
    exact hRequest
  · rintro ⟨result, asked, hRequest, rfl⟩
    refine Task.ends_bind_ok_iff.2
      ⟨made, [], _, _, _, (List.append_nil made).symm, hRequest, ?_⟩
    exact Task.ends_bind_ok_iff.2
      ⟨[], [], result, _, _, rfl, Task.ends_ofExcept_ok_iff.2 ⟨rfl, rfl, rfl, rfl⟩,
        Task.ends_setResource_iff.2 ⟨rfl, rfl⟩⟩

/-- All but the status goes out in one patch against what was fetched, and the answer is in hand
afterwards. -/
theorem ends_writeMain_ok_iff :
    (writeMain base).Ends now scene store made ⟨.ok (), scene', store'⟩ ↔
      made = [.patch scene.resource base.resource] ∧ ∃ result,
        store.patch scene.resource base.resource = (.ok result, store') ∧
        scene' = { scene with resource := result } := by
  constructor
  · intro h
    obtain ⟨_, _, _, _, _, rfl, hResource, hRenew⟩ := Task.ends_bind_ok_iff.1 h
    obtain ⟨hExec, rfl⟩ := hResource
    cases hExec
    obtain ⟨result, _, hPatch, rfl⟩ := ends_renew_ok_iff.1 hRenew
    obtain ⟨rfl, hServe, rfl⟩ := Task.ends_ask_ok_iff.1 hPatch
    exact ⟨rfl, result, hServe, rfl⟩
  · rintro ⟨rfl, result, hPatch, rfl⟩
    exact Task.ends_bind_ok_iff.2 ⟨[], _, _, _, _, rfl, Task.ends_resource,
      ends_renew_ok_iff.2 ⟨result, scene, Task.ends_ask_ok_iff.2 ⟨rfl, hPatch, rfl⟩, rfl⟩⟩

/-- The status goes out in one patch against what was fetched. -/
theorem ends_writeStatus_ok_iff :
    (writeStatus base).Ends now scene store made ⟨.ok (), scene', store'⟩ ↔
      made = [.patchStatus scene.resource base.resource] ∧ ∃ result,
        store.patchStatus scene.resource base.resource = (.ok result, store') ∧
        scene' = { scene with resource := result } := by
  constructor
  · intro h
    obtain ⟨_, _, _, _, _, rfl, hResource, hRenew⟩ := Task.ends_bind_ok_iff.1 h
    obtain ⟨hExec, rfl⟩ := hResource
    cases hExec
    obtain ⟨result, _, hPatch, rfl⟩ := ends_renew_ok_iff.1 hRenew
    obtain ⟨rfl, hServe, rfl⟩ := Task.ends_ask_ok_iff.1 hPatch
    exact ⟨rfl, result, hServe, rfl⟩
  · rintro ⟨rfl, result, hPatch, rfl⟩
    exact Task.ends_bind_ok_iff.2 ⟨[], _, _, _, _, rfl, Task.ends_resource,
      ends_renew_ok_iff.2 ⟨result, scene, Task.ends_ask_ok_iff.2 ⟨rfl, hPatch, rfl⟩, rfl⟩⟩

/-- After the rest the status goes out in one patch against the answer that has come to that, with
the status before the edit on one side and the status after it on the other. -/
theorem ends_writeStatusAfterMain_ok_iff {before after : Option Json} :
    (writeStatusAfterMain before after).Ends now scene store made ⟨.ok (), scene', store'⟩ ↔
      ∃ source target result, scene.resource.withStatus before = .ok source ∧
        scene.resource.withStatus after = .ok target ∧ made = [.patchStatus target source] ∧
        store.patchStatus target source = (.ok result, store') ∧
        scene' = { scene with resource := result } := by
  constructor
  · intro h
    obtain ⟨_, _, _, _, _, rfl, hResource, hRest⟩ := Task.ends_bind_ok_iff.1 h
    obtain ⟨hExec, rfl⟩ := hResource
    cases hExec
    obtain ⟨_, _, source, _, _, rfl, hBefore, hLater⟩ := Task.ends_bind_ok_iff.1 hRest
    obtain ⟨rfl, hSource, rfl, rfl⟩ := Task.ends_ofExcept_ok_iff.1 hBefore
    obtain ⟨_, _, target, _, _, rfl, hAfter, hRenew⟩ := Task.ends_bind_ok_iff.1 hLater
    obtain ⟨rfl, hTarget, rfl, rfl⟩ := Task.ends_ofExcept_ok_iff.1 hAfter
    obtain ⟨result, _, hPatch, rfl⟩ := ends_renew_ok_iff.1 hRenew
    obtain ⟨rfl, hServe, rfl⟩ := Task.ends_ask_ok_iff.1 hPatch
    exact ⟨source, target, result, Except.mapError_eq_ok_iff.1 hSource,
      Except.mapError_eq_ok_iff.1 hTarget, rfl, hServe, rfl⟩
  · rintro ⟨source, target, result, hSource, hTarget, rfl, hPatch, rfl⟩
    constructor
    · rw [Task.exec, writeStatusAfterMain_apply, hSource, hTarget]
      simp only [renewal, Program.run, Request.serve, hPatch, id]
    · rw [writeStatusAfterMain_apply, hSource, hTarget]
      simp only [renewal, Program.requests, Request.serve, hPatch, id]

/-- What is written is written without a failure, and nothing else is. -/
theorem ends_write_ok_iff {after : Snapshot} {written : Written} :
    (write base after).Ends now scene store made ⟨.ok written, scene', store'⟩ ↔
      Writes base scene.resource after store written made scene'.resource store' ∧
        scene'.state = scene.state := by
  constructor
  · intro h
    by_cases hMain : base.snapshot.MainAgree after
    · by_cases hStatus : base.snapshot.StatusAgree after
      · rw [write, decide_eq_true hMain, decide_eq_true hStatus] at h
        obtain ⟨rfl, hEnd⟩ := Task.ends_pure_iff.1 h
        cases hEnd
        exact ⟨.nothing hMain hStatus, rfl⟩
      · rw [write, decide_eq_true hMain, decide_eq_false hStatus] at h
        obtain ⟨_, _, _, _, _, rfl, hFirst, hRest⟩ := Task.ends_bind_ok_iff.1 h
        obtain ⟨rfl, result, hPatch, rfl⟩ := ends_writeStatus_ok_iff.1 hFirst
        obtain ⟨rfl, hEnd⟩ := Task.ends_pure_iff.1 hRest
        cases hEnd
        exact ⟨.statusOnly hMain hStatus hPatch, rfl⟩
    · by_cases hStatus : base.snapshot.StatusAgree after
      · rw [write, decide_eq_false hMain, decide_eq_true hStatus] at h
        obtain ⟨_, _, _, _, _, rfl, hFirst, hRest⟩ := Task.ends_bind_ok_iff.1 h
        obtain ⟨rfl, result, hPatch, rfl⟩ := ends_writeMain_ok_iff.1 hFirst
        obtain ⟨rfl, hEnd⟩ := Task.ends_pure_iff.1 hRest
        cases hEnd
        exact ⟨.main hMain hStatus hPatch, rfl⟩
      · rw [write, decide_eq_false hMain, decide_eq_false hStatus] at h
        obtain ⟨_, _, _, _, _, rfl, hFirst, hRest⟩ := Task.ends_bind_ok_iff.1 h
        obtain ⟨rfl, first, hPatch, rfl⟩ := ends_writeMain_ok_iff.1 hFirst
        obtain ⟨_, _, _, _, _, rfl, hSecond, hRest⟩ := Task.ends_bind_ok_iff.1 hRest
        obtain ⟨_, _, result, hBefore, hTarget, rfl, hPatchStatus, rfl⟩ :=
          ends_writeStatusAfterMain_ok_iff.1 hSecond
        obtain ⟨rfl, hEnd⟩ := Task.ends_pure_iff.1 hRest
        cases hEnd
        exact ⟨.mainAndStatus hMain hStatus hPatch hBefore hTarget hPatchStatus, rfl⟩
  · obtain ⟨result, state⟩ := scene'
    rintro ⟨hWrites, rfl⟩
    cases hWrites with
    | nothing hMain hStatus =>
        rw [write, decide_eq_true hMain, decide_eq_true hStatus]
        exact Task.ends_pure_iff.2 ⟨rfl, rfl⟩
    | main hMain hStatus hPatch =>
        rw [write, decide_eq_false hMain, decide_eq_true hStatus]
        exact Task.ends_bind_ok_iff.2 ⟨_, [], (), _, _, rfl,
          ends_writeMain_ok_iff.2 ⟨rfl, _, hPatch, rfl⟩, Task.ends_pure_iff.2 ⟨rfl, rfl⟩⟩
    | mainAndStatus hMain hStatus hPatch hBefore hTarget hPatchStatus =>
        rw [write, decide_eq_false hMain, decide_eq_false hStatus]
        refine Task.ends_bind_ok_iff.2 ⟨[_], [_], (), _, _, rfl,
          ends_writeMain_ok_iff.2 ⟨rfl, _, hPatch, rfl⟩, ?_⟩
        exact Task.ends_bind_ok_iff.2 ⟨_, [], (), _, _, rfl, ends_writeStatusAfterMain_ok_iff.2
          ⟨_, _, _, hBefore, hTarget, rfl, hPatchStatus, rfl⟩, Task.ends_pure_iff.2 ⟨rfl, rfl⟩⟩
    | statusOnly hMain hStatus hPatch =>
        rw [write, decide_eq_true hMain, decide_eq_false hStatus]
        exact Task.ends_bind_ok_iff.2 ⟨_, [], (), _, _, rfl,
          ends_writeStatus_ok_iff.2 ⟨rfl, _, hPatch, rfl⟩, Task.ends_pure_iff.2 ⟨rfl, rfl⟩⟩

/-- Each of the four cases is what the writing ends with. -/
theorem Writes.ends {after : Snapshot} {written : Written} {result : Resource}
    (h : Writes base scene.resource after store written made result store') :
    (write base after).Ends now scene store made
      ⟨.ok written, { scene with resource := result }, store'⟩ :=
  ends_write_ok_iff.2 ⟨h, rfl⟩

end

/-- What is to be written is written if the resource keeps its name. -/
theorem persist_of_target {base : Base} {onChange : Option (Task σ Empty Unit)} {after : Snapshot}
    (hKey : scene.resource.key = base.key)
    (hTarget : target base onChange scene = .done (.ok after, scene)) :
    persist base false onChange scene = write base after scene := by
  rw [persist_apply, if_neg (not_not_intro hKey), if_neg Bool.false_ne_true]
  show (target base onChange scene).bind _ = _
  rw [hTarget]
  rfl

/-- Without a hook, what is to be written is what the mutation has left. -/
theorem persist_of_snapshot {base : Base} {after : Snapshot}
    (hKey : scene.resource.key = base.key) (hAfter : scene.resource.snapshot = .ok after) :
    persist base false none scene = write base after scene :=
  persist_of_target hKey (by rw [target_apply, hAfter])

/-- A resource that cannot be written is not written. -/
theorem exec_persist_of_snapshot_error {base : Base} {error : CodecError}
    (hKey : scene.resource.key = base.key) (hAfter : scene.resource.snapshot = .error error) :
    (persist base false none).exec now scene store = ⟨.error (.error (.codec error)), scene, store⟩ := by
  rw [persist, Task.exec_bind, Task.exec_resource, Execution.andThen_ok,
    if_neg (not_not_intro hKey), if_neg Bool.false_ne_true, Task.exec_bind, Task.exec, target_apply,
    hAfter]
  rfl

/-- A resource that is written has kept its name, and what has changed since it was fetched has been
requested of the store and granted. -/
theorem ends_persist_ok_iff {base : Base} {written : Written} {made : List Request} :
    (persist base false none).Ends now scene store made ⟨.ok written, scene', store'⟩ ↔
      scene.resource.key = base.key ∧ ∃ after, scene.resource.snapshot = .ok after ∧
        Writes base scene.resource after store written made scene'.resource store' ∧
        scene'.state = scene.state := by
  by_cases hKey : scene.resource.key = base.key
  · cases hAfter : scene.resource.snapshot with
    | error error =>
        constructor
        · rintro ⟨hExec, -⟩
          rw [exec_persist_of_snapshot_error hKey hAfter] at hExec
          cases hExec
        · rintro ⟨-, _, hOther, -⟩
          cases hOther
    | ok after =>
        have hSame : (persist base false none).Ends now scene store made ⟨.ok written, scene', store'⟩ ↔
            (write base after).Ends now scene store made ⟨.ok written, scene', store'⟩ := by
          have hPersist := persist_of_snapshot hKey hAfter
          constructor
          · rintro ⟨hExec, hMade⟩
            rw [Task.exec, hPersist] at hExec
            exact ⟨hExec, hPersist ▸ hMade⟩
          · rintro ⟨hExec, hMade⟩
            refine ⟨?_, hPersist ▸ hMade⟩
            rw [Task.exec, hPersist]
            exact hExec
        rw [hSame, ends_write_ok_iff]
        constructor
        · exact fun h => ⟨hKey, after, rfl, h⟩
        · rintro ⟨-, _, hFound, h⟩
          cases hFound
          exact h
  · constructor
    · rintro ⟨hExec, -⟩
      rw [persist, Task.exec_bind, Task.exec_resource, Execution.andThen_ok, if_pos hKey] at hExec
      cases hExec
    · exact fun h => absurd h.1 hKey

/-- What an edit leaves of the store, however it ends: what the fetch has left of it, or what the
writing leaves. -/
theorem store_run_cases {edit : Edit σ μ} (hQuiet : edit.mutate.Quiet) (now : Timestamp)
    (scene : Scene σ) (store : Store) :
    (edit.run.exec now scene store).store = store.count .get ∨
      ∃ base fetched value left, fetch.exec now scene store = ⟨.ok base, fetched, store.count .get⟩ ∧
        edit.mutate.exec now fetched (store.count .get) = ⟨.ok value, left, store.count .get⟩ ∧
        (edit.run.exec now scene store).store =
          ((persist base (edit.aborts value) edit.onChange).exec now left (store.count .get)).store := by
  have hCounted := store_fetch now scene store
  rw [Edit.run, Task.exec_bind, Task.exec_attempt]
  rcases hFetch : (fetch : Task σ WorkError Base).exec now scene store with
    ⟨(payload | error) | base, fetched, store₁⟩
  · rw [hFetch] at hCounted
    exact .inl hCounted
  · rw [hFetch] at hCounted
    exact .inl hCounted
  · rw [hFetch] at hCounted
    obtain rfl : store₁ = store.count .get := hCounted
    simp only [Execution.andThen_ok, Task.exec_bind]
    rcases hMutate : edit.mutate.exec now fetched (store.count .get) with
      ⟨reason | value, left, store₂⟩
    · exact .inl (hQuiet.exec_store hMutate store).1
    · obtain ⟨rfl, -⟩ := hQuiet.exec_store hMutate store
      refine .inr ⟨base, fetched, value, left, rfl, hMutate, ?_⟩
      rw [Execution.andThen_ok, Task.exec_bind, Task.exec_attempt]
      rcases (persist base (edit.aborts value) edit.onChange).exec now left (store.count .get) with
        ⟨(_ | _) | _, _, _⟩ <;> rfl

/-- What the hook leaves of what the mutation has left. It runs if there is a change. -/
def settle (now : Timestamp) (onChange : Option (Task σ Empty Unit)) (before changed : Snapshot)
    (scene : Scene σ) (store : Store) : Scene σ :=
  match onChange with
  | some hook => if changed.Agree before then scene else (hook.exec now scene store).scene
  | none => scene

/-- An edit that ends with an error has written nothing. -/
theorem not_written_of_conclude {edit : Edit σ μ} {value : μ} {error : WorkError}
    {edited : Edited μ} {written : Written}
    (hRun : ((Stage.conclude value (.error error) scene).program edit).run now store =
      ((.ok edited, scene'), store')) : edited.written ≠ .ok written := by
  rw [program_conclude] at hRun
  cases hRun
  intro hWritten
  cases hWritten

theorem of_run_patchingStatus {edit : Edit σ μ} {value : μ} {target base : Resource}
    {claimed written : Written} {edited : Edited μ}
    (hRun : ((Stage.patchingStatus value claimed target base scene).program edit).run now store =
      ((.ok edited, scene'), store'))
    (hWritten : edited.written = .ok written) :
    edited.mutation = some value ∧ written = claimed ∧ scene'.state = scene.state ∧
      store.patchStatus target base = (.ok scene'.resource, store') ∧
      ((Stage.patchingStatus value claimed target base scene).program edit).requests now store =
        [.patchStatus target base] := by
  rcases hAnswer : store.patchStatus target base with ⟨answer, store₁⟩
  rw [Stage.program] at hRun ⊢
  simp only [Program.run, Program.requests, Request.serve, hAnswer] at hRun ⊢
  cases answer with
  | error error =>
      exact absurd hWritten (not_written_of_conclude hRun)
  | ok result =>
      rw [Stage.statusPatched, program_conclude] at hRun ⊢
      cases hRun
      cases hWritten
      exact ⟨rfl, rfl, rfl, rfl, rfl⟩

/-- What is due is one of the four cases, if it is written. -/
theorem writes_of_due {edit : Edit σ μ} {base : Base} {value : μ} {after : Snapshot}
    {edited : Edited μ} {written : Written}
    (hRun : ((Stage.due base value after scene).program edit).run now store =
      ((.ok edited, scene'), store'))
    (hWritten : edited.written = .ok written) :
    edited.mutation = some value ∧ scene'.state = scene.state ∧
      Writes base scene.resource after store written
        (((Stage.due base value after scene).program edit).requests now store)
        scene'.resource store' := by
  by_cases hMain : base.snapshot.MainAgree after
  · by_cases hStatus : base.snapshot.StatusAgree after
    · have hDue : Stage.due base value after scene = Stage.conclude value (.ok .nothing) scene := by
        rw [Stage.due, if_pos hMain, if_pos hStatus]
      rw [hDue, program_conclude] at hRun ⊢
      cases hRun
      cases hWritten
      exact ⟨rfl, rfl, .nothing hMain hStatus⟩
    · have hDue : Stage.due base value after scene =
          .patchingStatus value .statusOnly scene.resource base.resource scene := by
        rw [Stage.due, if_pos hMain, if_neg hStatus]
      rw [hDue] at hRun ⊢
      obtain ⟨hValue, rfl, hState, hPatch, hRequests⟩ := of_run_patchingStatus hRun hWritten
      rw [hRequests]
      exact ⟨hValue, hState, .statusOnly hMain hStatus hPatch⟩
  · have hDue : Stage.due base value after scene = .patching base value after scene := by
      rw [Stage.due, if_neg hMain]
    rcases hAnswer : store.patch scene.resource base.resource with ⟨answer, store₁⟩
    rw [hDue, Stage.program] at hRun ⊢
    simp only [Program.run, Program.requests, Request.serve, hAnswer] at hRun ⊢
    cases answer with
    | error error =>
        exact absurd hWritten (not_written_of_conclude hRun)
    | ok first =>
        by_cases hStatus : base.snapshot.StatusAgree after
        · have hPatched : Stage.patched base value after scene (.ok first) =
              Stage.conclude value (.ok .main) { scene with resource := first } := by
            simp only [Stage.patched, hStatus, if_true]
          rw [hPatched, program_conclude] at hRun ⊢
          cases hRun
          cases hWritten
          exact ⟨rfl, rfl, .main hMain hStatus hAnswer⟩
        · simp only [Stage.patched, hStatus, if_false] at hRun ⊢
          cases hBefore : first.withStatus base.snapshot.status with
          | error error =>
              simp only [hBefore] at hRun
              exact absurd hWritten (not_written_of_conclude hRun)
          | ok before =>
              cases hTarget : first.withStatus after.status with
              | error error =>
                  simp only [hBefore, hTarget] at hRun
                  exact absurd hWritten (not_written_of_conclude hRun)
              | ok target =>
                  simp only [hBefore, hTarget] at hRun ⊢
                  obtain ⟨hValue, rfl, hState, hPatch, hRequests⟩ :=
                    of_run_patchingStatus hRun hWritten
                  rw [hRequests]
                  exact ⟨hValue, hState,
                    .mainAndStatus hMain hStatus hAnswer hBefore hTarget hPatch⟩

/-- What has been written is one of the cases. -/
theorem exists_writes_of_exec {base : Base} {after : Snapshot} {written : Written}
    (hExec : (write base after).exec now scene store = ⟨.ok written, scene', store'⟩) :
    ∃ made, Writes base scene.resource after store written made scene'.resource store' := by
  let edit : Edit σ Unit := { mutate := pure () }
  have hWrite : (write base after scene).run now store = ((.ok written, scene'), store') := by
    rcases hRun : (write base after scene).run now store with ⟨⟨result, left⟩, last⟩
    rw [Task.exec_of_run now scene store hRun] at hExec
    cases hExec
    rfl
  have hDue : ((Stage.due base () after scene).program edit).run now store =
      ((.ok { mutation := some (), written := .ok written }, scene'), store') := by
    rw [program_due, Program.run_bind, hWrite]
    rfl
  exact ⟨_, (writes_of_due hDue rfl).2.2⟩

/-- The course of an edit up to its writing. -/
structure Course (now : Timestamp) (edit : Edit σ μ) (scene : Scene σ) (store : Store) where
  base : Base
  /-- The store after the resource was fetched. -/
  fetched : Store
  value : μ
  /-- What the mutation leaves. -/
  mutated : Scene σ
  changed : Snapshot
  /-- What is written. -/
  after : Snapshot
  key_eq : base.key = scene.resource.key
  get_eq : store.get scene.resource.key = (.ok base.resource, fetched)
  snapshot_eq : base.resource.snapshot = .ok base.snapshot
  mutate_eq : edit.mutate.exec now { scene with resource := base.resource } fetched =
    ⟨.ok value, mutated, fetched⟩
  mutated_key : mutated.resource.key = scene.resource.key
  changed_eq : mutated.resource.snapshot = .ok changed
  after_eq : (settle now edit.onChange base.snapshot changed mutated fetched).resource.snapshot =
    .ok after

namespace Course

variable {edit : Edit σ μ}

/-- What the mutation and the hook leave together. -/
def settled (course : Course now edit scene store) : Scene σ :=
  settle now edit.onChange course.base.snapshot course.changed course.mutated course.fetched

end Course

/-- A hook that has ended leads to the writing of what it leaves. -/
theorem hooked_eq_due {edit : Edit σ μ} {base : Base} {value : μ} {edited : Edited μ}
    {written : Written} {ended : Except (Stop Empty) Unit × Scene σ}
    (hRun : ((Stage.hooked base value ended).program edit).run now store =
      ((.ok edited, scene'), store'))
    (hWritten : edited.written = .ok written) :
    ∃ after, ended.2.resource.snapshot = .ok after ∧
      Stage.hooked base value ended = Stage.due base value after ended.2 := by
  obtain ⟨result, hooked⟩ := ended
  cases result with
  | error reason =>
      rw [Stage.hooked, Stage.program] at hRun
      cases hRun
  | ok _ =>
      cases hAfter : hooked.resource.snapshot with
      | error error =>
          simp only [Stage.hooked, hAfter] at hRun
          exact absurd hWritten (not_written_of_conclude hRun)
      | ok after => exact ⟨after, rfl, by simp only [Stage.hooked, hAfter]⟩

/-- A mutation that has ended leads to the writing of what it and the hook leave. -/
theorem program_mutated_eq_due {edit : Edit σ μ} {base : Base} {edited : Edited μ}
    {written : Written} {ended : Except (Stop Empty) μ × Scene σ}
    (hHook : ∀ hook, edit.onChange = some hook → hook.Quiet)
    (hRun : ((Stage.mutated edit base ended).program edit).run now store =
      ((.ok edited, scene'), store'))
    (hWritten : edited.written = .ok written)
    (hKeeps : ∀ value, edited.mutation = some value → edit.aborts value = false) :
    ∃ value changed after, ended.1 = .ok value ∧ ended.2.resource.key = base.key ∧
      ended.2.resource.snapshot = .ok changed ∧
      (settle now edit.onChange base.snapshot changed ended.2 store).resource.snapshot =
        .ok after ∧
      (Stage.mutated edit base ended).program edit =
        (Stage.due base value after
          (settle now edit.onChange base.snapshot changed ended.2 store)).program edit := by
  obtain ⟨result, mutated⟩ := ended
  cases result with
  | error reason =>
      rw [Stage.mutated, Stage.program] at hRun
      cases hRun
  | ok value =>
      by_cases hKey : mutated.resource.key = base.key
      · by_cases hAborts : edit.aborts value = true
        · simp only [Stage.mutated, hKey, hAborts, ne_eq, not_true, if_true, if_false] at hRun
          rw [program_conclude] at hRun
          cases hRun
          rw [hKeeps value rfl] at hAborts
          cases hAborts
        · simp only [Stage.mutated, hKey, hAborts, Bool.false_eq_true, ne_eq, not_true,
            if_false] at hRun ⊢
          cases hChanged : mutated.resource.snapshot with
          | error error =>
              simp only [hChanged] at hRun
              exact absurd hWritten (not_written_of_conclude hRun)
          | ok changed =>
              cases hOnChange : edit.onChange with
              | none => exact ⟨value, changed, changed, rfl, trivial, rfl, hChanged, rfl⟩
              | some hook =>
                  by_cases hAgree : changed.Agree base.snapshot
                  · have hSettle : settle now (some hook) base.snapshot changed mutated store =
                        mutated := by
                      rw [settle]
                      exact if_pos hAgree
                    refine ⟨value, changed, changed, rfl, trivial, rfl, by rw [hSettle, hChanged], ?_⟩
                    simp only [hAgree, if_true, hSettle]
                  · obtain ⟨⟨hookResult, hooked⟩, hHooked⟩ := hHook hook hOnChange mutated
                    have hExec : hook.exec now mutated store = ⟨hookResult, hooked, store⟩ :=
                      Task.exec_of_run _ _ _ (by rw [hHooked]; rfl)
                    have hSettle : settle now (some hook) base.snapshot changed mutated store =
                        hooked := by
                      rw [settle, hExec]
                      exact if_neg hAgree
                    simp only [hChanged, hOnChange, hAgree, if_false] at hRun ⊢
                    rw [Stage.program, hHooked] at hRun ⊢
                    simp only [Program.bind] at hRun ⊢
                    obtain ⟨after, hAfter, hDue⟩ := hooked_eq_due hRun hWritten
                    exact ⟨value, changed, after, rfl, trivial, rfl, hSettle ▸ hAfter,
                      by rw [hDue, hSettle]⟩
      · simp only [Stage.mutated, hKey, ne_eq, not_false_iff, if_true] at hRun
        exact absurd hWritten (not_written_of_conclude hRun)

/-- An edit that has written something, or has found nothing to write. -/
theorem exists_course_of_exec {edit : Edit σ μ} {edited : Edited μ} {written : Written}
    (hMutate : edit.mutate.Quiet) (hHook : ∀ hook, edit.onChange = some hook → hook.Quiet)
    (hRun : edit.run.exec now scene store = ⟨.ok edited, scene', store'⟩)
    (hWritten : edited.written = .ok written)
    (hKeeps : ∀ value, edited.mutation = some value → edit.aborts value = false) :
    ∃ (course : Course now edit scene store) (made : List Request),
      edited.mutation = some course.value ∧
      scene'.state = course.settled.state ∧
      Writes course.base course.settled.resource course.after course.fetched written made
        scene'.resource store' ∧
      (edit.run scene).requests now store = .get scene.resource.key :: made := by
  have hProgram : (edit.run scene).run now store = ((.ok edited, scene'), store') := by
    rcases hResult : (edit.run scene).run now store with ⟨⟨result, left⟩, last⟩
    rw [Task.exec_of_run now scene store hResult] at hRun
    cases hRun
    rfl
  rw [← program_fetching, Stage.program] at hProgram ⊢
  rcases hAnswer : store.get scene.resource.key with ⟨answer, fetched⟩
  simp only [Program.run, Program.requests, Request.serve, hAnswer] at hProgram ⊢
  cases answer with
  | error error =>
      simp only [Stage.fetched] at hProgram
      rw [program_giveUp] at hProgram
      cases hProgram
      cases hWritten
  | ok resource =>
      cases hSnapshot : resource.snapshot with
      | error error =>
          simp only [Stage.fetched, hSnapshot] at hProgram
          rw [program_giveUp] at hProgram
          cases hProgram
          cases hWritten
      | ok snapshot =>
          obtain ⟨⟨result, mutated⟩, hMutated⟩ := hMutate { scene with resource }
          have hMutateExec : edit.mutate.exec now { scene with resource } fetched =
              ⟨result, mutated, fetched⟩ := Task.exec_of_run _ _ _ (by rw [hMutated]; rfl)
          simp only [Stage.fetched, hSnapshot] at hProgram ⊢
          rw [Stage.program, hMutated] at hProgram ⊢
          simp only [Program.bind] at hProgram ⊢
          obtain ⟨value, changed, after, rfl, hKey, hChanged, hAfter, hDue⟩ :=
            program_mutated_eq_due hHook hProgram hWritten hKeeps
          rw [hDue] at hProgram ⊢
          obtain ⟨hValue, hState, hWrites⟩ := writes_of_due hProgram hWritten
          let course : Course now edit scene store := {
            base := { key := scene.resource.key, resource, snapshot }
            fetched, value, mutated, changed, after
            key_eq := rfl
            get_eq := hAnswer
            snapshot_eq := hSnapshot
            mutate_eq := hMutateExec
            mutated_key := hKey
            changed_eq := hChanged
            after_eq := hAfter }
          exact ⟨course, _, hValue, hState, hWrites, rfl⟩

end Reconciliation.Edit
