import Reconciliation.Proofs.Edit.Effect
import Reconciliation.Proofs.Store.Failing
import Reconciliation.Proofs.Task.Conduct

/-!
Edits that give their resource another name. If the mutation does so, nothing is written. If the hook
does so, everything but the status is patched under the new name, and the store refuses that: the
version of what was fetched was never handed out under another name.
-/
namespace Reconciliation

namespace Store

variable {store : Store} {key key' : Key} {base resource : Resource}

/-- A write under one key that expects the version of what is known of another key is refused. -/
theorem Knows.refuses (h : store.Knows key base) (hKey : key' ≠ key) (verb : Verb)
    (change : Json → Json) :
    ∃ error, store.write verb key' base.metadata.version change = (.error error, store.count verb) := by
  obtain ⟨number, -, hToken, hOnly⟩ := h
  rcases write_cases verb key' base.metadata.version change store with
    ⟨error, -, hWrite⟩ | ⟨document, hGet, hExpected, -⟩
  · exact ⟨error, hWrite⟩
  · exact absurd (hOnly hGet (hExpected _ hToken)).1 hKey

/-- A patch of a resource under one key that is made against what is known of another key does
nothing. -/
theorem Knows.patch_of_ne (h : store.Knows key base) (hKey : resource.key ≠ key) :
    ∃ error store', store.patch resource base = (.error error, store') ∧ store.Unharmed store' := by
  unfold patch
  split
  · exact ⟨_, _, rfl, unharmed_of_kept rfl⟩
  · exact ⟨_, _, rfl, unharmed_of_kept rfl⟩
  · obtain ⟨error, hWrite⟩ := h.refuses hKey .patch _
    exact ⟨error, _, hWrite, unharmed_of_kept rfl⟩

end Store

namespace Edit

variable {σ μ : Type} {now : Timestamp} {scene scene' : Scene σ} {store store' : Store}
  {made rest : List Request}

theorem ends_capture {resource : Resource} {snapshot : Snapshot}
    (h : resource.snapshot = .ok snapshot) :
    (capture resource : Task σ WorkError Snapshot).Ends now scene store []
      ⟨.ok snapshot, scene, store⟩ := by
  rw [capture, h]
  exact ⟨rfl, rfl⟩

/-- A refused request ends an edit with the refusal, and leaves the resource in hand. -/
theorem ends_renew_of_error {request : Task σ WorkError (Except StoreError Resource)}
    {error : StoreError} (h : request.Ends now scene store made ⟨.ok (.error error), scene', store'⟩) :
    (renew request).Ends now scene store made ⟨.error (.error (.store error)), scene', store'⟩ := by
  rw [← List.append_nil made]
  exact h.bind (Task.Ends.bind_error ⟨rfl, rfl⟩ _)

/-- A refused patch of everything but the status ends the writing. -/
theorem ends_write_of_refused {base : Base} {after : Snapshot} {error : StoreError}
    (hMain : ¬base.snapshot.MainAgree after)
    (hPatch : store.patch scene.resource base.resource = (.error error, store')) :
    (write base after).Ends now scene store [.patch scene.resource base.resource]
      ⟨.error (.error (.store error)), scene, store'⟩ := by
  have hRefused : (writeMain base).Ends now scene store [.patch scene.resource base.resource]
      ⟨.error (.error (.store error)), scene, store'⟩ := by
    refine Task.ends_resource.bind (ends_renew_of_error ⟨?_, rfl⟩)
    rw [Task.exec_patch, hPatch]
  rw [write, decide_eq_false hMain]
  by_cases hStatus : base.snapshot.StatusAgree after
  · rw [decide_eq_true hStatus]
    exact hRefused.bind_error _
  · rw [decide_eq_false hStatus]
    exact hRefused.bind_error _

/-- After a mutation that has given the resource another name, nothing is written. -/
theorem ends_persist_of_renamed {base : Base} {aborted : Bool}
    {onChange : Option (Task σ Empty Unit)} (hKey : scene.resource.key ≠ base.key) :
    (persist base aborted onChange).Ends now scene store []
      ⟨.error (.error (.renamed base.key scene.resource.key)), scene, store⟩ := by
  constructor
  · rw [Task.exec, persist_apply, if_pos hKey]
    rfl
  · rw [persist_apply, if_pos hKey]
    rfl

/-- After a mutation that has changed the resource, the hook runs, and then the writing. -/
theorem ends_persist_of_hooked {base : Base} {hook : Task σ Empty Unit} {changed : Snapshot}
    {hooked : Scene σ} {left : Store} {execution : Execution σ WorkError Written}
    (hKey : scene.resource.key = base.key) (hChanged : scene.resource.snapshot = .ok changed)
    (hChange : ¬changed.Agree base.snapshot)
    (hHook : hook.Ends now scene store made ⟨.ok (), hooked, left⟩)
    (hRest : (capture hooked.resource >>= write base).Ends now hooked left rest execution) :
    (persist base false (some hook)).Ends now scene store (made ++ rest) execution := by
  have hTarget : target base (some hook) scene =
      (hook.widen >>= fun _ => Task.resource >>= capture : Task σ WorkError Snapshot) scene := by
    rw [target_apply, hChanged]
    exact if_neg hChange
  have hPersist : persist base false (some hook) scene =
      ((hook.widen >>= fun _ => Task.resource >>= capture) >>= write base) scene := by
    rw [persist_apply, if_neg (not_not_intro hKey), if_neg Bool.false_ne_true]
    show (target base (some hook) scene).bind _ = _
    rw [hTarget]
    rfl
  have hEnds : ((hook.widen >>= fun _ => Task.resource >>= capture) >>= write base).Ends now scene
      store (made ++ rest) execution := by
    rw [bind_assoc]
    refine (Task.ends_widen_ok_iff.2 hHook).bind ?_
    rw [bind_assoc]
    exact Task.ends_resource.bind hRest
  constructor
  · rw [← hEnds.exec, Task.exec, Task.exec, hPersist]
  · rw [← hEnds.requests, hPersist]

/-- A resource that has got another name than the fetched one is not written: it cannot be, or the
store refuses it. -/
theorem exists_failed_of_renamed (base : Base)
    (hBase : base.resource.snapshot = .ok base.snapshot) (hSound : base.resource.metadata.Sound)
    (hKnown : store.Knows base.resource.key base.resource)
    (hKey : scene.resource.key ≠ base.resource.key) :
    ∃ error store' made, (capture scene.resource >>= write base).Ends now scene store made
        ⟨.error (.error error), scene, store'⟩ ∧
      (made = [] ∨ made = [.patch scene.resource base.resource]) ∧ store.Unharmed store' := by
  cases hAfter : scene.resource.snapshot with
  | error error =>
      refine ⟨.codec error, store, [], Task.Ends.bind_error ?_ _, .inl rfl,
        Store.unharmed_of_kept rfl⟩
      rw [capture, hAfter]
      exact ⟨rfl, rfl⟩
  | ok after =>
      have hMain : ¬base.snapshot.MainAgree after := by
        intro hAgree
        obtain ⟨-, hBefore⟩ := Resource.snapshot_eq_ok_iff.1 hBase
        obtain ⟨-, rfl⟩ := Resource.snapshot_eq_ok_iff.1 hAfter
        rw [hBefore] at hAgree
        obtain ⟨hMetadata, -⟩ := Resource.of_main_agree hSound hAgree
        apply hKey
        rw [Resource.key, Resource.key, hMetadata]
      obtain ⟨error, store', hPatch, hUnharmed⟩ := hKnown.patch_of_ne hKey
      exact ⟨.store error, store', _, (ends_capture hAfter).bind (ends_write_of_refused hMain hPatch),
        .inr rfl, hUnharmed⟩

/-- How an edit ends that fetches a resource and whose mutation then ends, if the resource does not
keep its name. -/
structure NeverRenames (now : Timestamp) (edit : Edit σ μ) (scene : Scene σ) (store : Store)
    (fetched : Resource) (made : List Request) (value : μ) (mutated : Scene σ) (left : Store) :
    Prop where
  /-- If the mutation has given it another name, that is the error, whatever the mutation has ended
  with, and nothing more is asked of the store. -/
  mutation : mutated.resource.key ≠ fetched.key →
    edit.run.Ends now scene store (.get scene.resource.key :: made)
      ⟨.ok { mutation := some value,
             written := .error (.renamed fetched.key mutated.resource.key) }, mutated, left⟩
  /-- If the hook runs and has given it another name, then there is an error as well, whatever else
  has changed. What is asked of the store after the hook, if anything, is a patch that does nothing.
  -/
  hook : ∀ {hook changed asked hooked last}, mutated.resource.key = fetched.key →
    edit.aborts value = false → edit.onChange = some hook →
    mutated.resource.snapshot = .ok changed →
    ¬changed.Agree (Json.object fetched.toObject).snapshot →
    hook.Ends now mutated left asked ⟨.ok (), hooked, last⟩ →
    hooked.resource.key ≠ fetched.key →
    ∃ error rest store', edit.run.Ends now scene store
        (.get scene.resource.key :: (made ++ (asked ++ rest)))
        ⟨.ok { mutation := some value, written := .error error }, hooked, store'⟩ ∧
      (rest = [] ∨ rest = [.patch hooked.resource fetched]) ∧ last.Unharmed store' ∧
      (edit.mutate.Quiet → hook.Quiet → store.Unharmed store')
  /-- A mutation that makes no requests has done nothing to the store either. -/
  quiet : edit.mutate.Quiet → made = [] ∧ store.Unharmed left

/-- An edit gives no stored resource another name, and writes nothing under another one. -/
theorem neverRenames_of_get {edit : Edit σ μ} {fetched : Resource} {value : μ} {mutated : Scene σ}
    {left : Store} (hStore : store.Reachable) (hGet : (store.get scene.resource.key).1 = .ok fetched)
    (hMutate : edit.mutate.Ends now { scene with resource := fetched } (store.count .get) made
      ⟨.ok value, mutated, left⟩) :
    NeverRenames now edit scene store fetched made value mutated left := by
  obtain ⟨document, hReads⟩ := exists_reads hStore hGet
  have hQuiet : edit.mutate.Quiet → made = [] ∧ left = store.count .get := by
    intro hQuiet
    exact ⟨hMutate.requests.symm.trans (hQuiet.ends rfl).requests,
      (hQuiet.exec_store hMutate.exec store).1⟩
  refine ⟨fun hKey => ?_, ?_, fun hMutate => ?_⟩
  · rw [← List.append_nil made]
    exact ends_run hReads.ends_fetch hMutate (ends_persist_of_renamed hKey)
  · intro hook changed asked hooked last hKey hAborts hOnChange hChanged hChange hHook hRenamed
    -- The version of the fetched resource is good for its own key only, whatever was written since.
    have hFetched : (store.count .get).Reachable := hStore.serve now (.get scene.resource.key)
    have hKnown : (store.count .get).Knows fetched.key fetched := by
      rw [hReads.key_eq]
      exact hStore.sound.knows_of_get hGet
    have hMutated := hKnown.later (hFetched.later_exec hMutate.exec)
    have hHooked := hMutated.later ((hFetched.exec hMutate.exec).later_exec hHook.exec)
    obtain ⟨error, store', rest, hRest, hMade, hUnharmed⟩ :=
      exists_failed_of_renamed ⟨fetched.key, fetched, _⟩ hReads.snapshot_eq hReads.sound hHooked
        hRenamed
    have hPersist := ends_persist_of_hooked hKey hChanged hChange hHook hRest
    rw [← hAborts, ← hOnChange] at hPersist
    refine ⟨error, rest, store', ends_run hReads.ends_fetch hMutate hPersist, hMade, hUnharmed, ?_⟩
    intro hMutateQuiet hHookQuiet
    obtain ⟨-, rfl⟩ := hQuiet hMutateQuiet
    obtain ⟨rfl, -⟩ := hHookQuiet.exec_store hHook.exec store
    exact Store.unharmed_of_kept (hUnharmed.kept.trans rfl)
  · obtain ⟨hMade, rfl⟩ := hQuiet hMutate
    exact ⟨hMade, Store.unharmed_of_kept rfl⟩

def pairedStore : Store :=
  (plainStore.insert { plainResource with metadata := { name := "b" } }).2

/-- The other resource, without a version and with another specification. -/
def usurper : Resource :=
  { metadata := { name := "b" }, spec := .bool true }

/-- Changes the specification, and then takes the place of the other resource. -/
def usurping : Edit Unit Unit where
  mutate := Task.modifyResource fun resource => { resource with spec := .bool true }
  onChange := some (Task.setResource usurper)

/-- The resource whose place is to be taken stays as it is. -/
theorem neverRenames_of_usurping :
    NeverRenames default usurping ⟨plainResource, ()⟩ pairedStore plainResource [] ()
        ⟨{ plainResource with spec := .bool true }, ()⟩ (pairedStore.count .get) ∧
      pairedStore.contains usurper.key = true ∧ ∃ error store',
        usurping.run.exec default ⟨plainResource, ()⟩ pairedStore =
          ⟨.ok ⟨some (), .error (.store error)⟩, ⟨usurper, ()⟩, store'⟩ ∧
        error.isConflict = true ∧ pairedStore.Unharmed store' := by
  have hStore : pairedStore.Reachable := plainStore_reachable.serve default (.insert _)
  have hNever : NeverRenames default usurping ⟨plainResource, ()⟩ pairedStore plainResource [] ()
      ⟨{ plainResource with spec := .bool true }, ()⟩ (pairedStore.count .get) :=
    neverRenames_of_get hStore rfl ⟨rfl, rfl⟩
  obtain ⟨error, rest, store', hEnds, -, -, hUnharmed⟩ :=
    hNever.hook rfl rfl rfl rfl (by decide) ⟨rfl, rfl⟩ (by decide)
  have hConflict : usurping.run.exec default ⟨plainResource, ()⟩ pairedStore =
      ⟨.ok ⟨some (), .error (.store _)⟩, _, _⟩ := rfl
  cases hEnds.exec.symm.trans hConflict
  exact ⟨hNever, rfl, _, _, hConflict, rfl, hUnharmed (fun _ => ⟨_, rfl⟩) fun _ => ⟨_, rfl⟩⟩

end Edit

end Reconciliation
