import Reconciliation.Proofs.Engine.Footprint
import Reconciliation.Proofs.Store.Showing

/-!
How the resource in hand keeps track of the store. Wherever the engine itself makes a request, it
works on a copy, and what it has in hand is replaced by the answer or stays as it is. `Task.Tracks`
says so of a task; it holds of all that an engine does beside the work of steps and the cleanup.
-/
namespace Reconciliation

theorem Resource.Current.mono {resource : Resource} {store store' : Store}
    (h : resource.Current store) (hStore : store.ShowsNoMore store') : resource.Current store' :=
  fun found hFound => h found (hStore _ found hFound)

/-- What becomes of the resource in hand while requests are made to a store: another one takes its
place that is current, or it stays, and nothing more can be read than before. -/
inductive Store.Tracks (store : Store) (resource : Resource) : Resource → Store → Prop where
  | renewed {resource' : Resource} {store' : Store} (hCurrent : resource'.Current store') :
    Tracks store resource resource' store'
  | kept {store' : Store} (hStore : store.ShowsNoMore store') :
    Tracks store resource resource store'

namespace Store

variable {store store' : Store} {resource resource' : Resource} {key : Key}

theorem Tracks.refl (store : Store) (resource : Resource) :
    store.Tracks resource resource store :=
  .kept (.refl store)

/-- One request after another keeps track. -/
theorem Tracks.trans {store'' : Store} {resource'' : Resource}
    (h : store.Tracks resource resource' store') (h' : store'.Tracks resource' resource'' store'') :
    store.Tracks resource resource'' store'' := by
  cases h' with
  | renewed hCurrent => exact .renewed hCurrent
  | kept hStore' =>
      cases h with
      | renewed hCurrent => exact .renewed (hCurrent.mono hStore')
      | kept hStore => exact .kept (hStore.trans hStore')

/-- What tracks a store is current, or is what it was. -/
theorem Tracks.current_or_kept (h : store.Tracks resource resource' store') :
    resource'.Current store' ∨ resource' = resource ∧ store.ShowsNoMore store' := by
  cases h with
  | renewed hCurrent => exact .inl hCurrent
  | kept hNoMore => exact .inr ⟨rfl, hNoMore⟩

end Store

variable {σ ε ε' α β : Type} {now : Timestamp} {scene scene' : Scene σ} {store store' : Store}

namespace Task

/-- A task that keeps the resource in hand on the track of the store. -/
def Tracks (task : Task σ ε α) : Prop :=
  ∀ now (scene : Scene σ) {store : Store}, store.Reachable →
    store.Tracks scene.resource (task.exec now scene store).scene.resource
      (task.exec now scene store).store

variable {task : Task σ ε α}

/-- A task that leaves the store and the resource alone keeps track. -/
theorem tracks_of_kept (h : ∀ now scene store, (task.exec now scene store).store = store ∧
    (task.exec now scene store).scene.resource = scene.resource) : task.Tracks := by
  intro now scene store _
  obtain ⟨hStore, hResource⟩ := h now scene store
  rw [hStore, hResource]
  exact .refl store scene.resource

theorem tracks_pure (value : α) : (Pure.pure value : Task σ ε α).Tracks :=
  tracks_of_kept fun _ _ _ => ⟨rfl, rfl⟩

theorem tracks_resource : (resource : Task σ ε Resource).Tracks :=
  tracks_of_kept fun _ _ _ => ⟨rfl, rfl⟩

theorem tracks_observe (f : Resource → σ → α × σ) : (observe f : Task σ ε α).Tracks :=
  tracks_of_kept fun _ _ _ => ⟨rfl, rfl⟩

theorem tracks_ofExcept (given : Except ε α) : (ofExcept given : Task σ ε α).Tracks :=
  tracks_of_kept fun now scene store => by rw [exec_ofExcept]; exact ⟨rfl, rfl⟩

theorem tracks_orPanic (words : ε' → String) (given : Except ε' α) :
    (orPanic words given : Task σ ε α).Tracks := by
  cases given with
  | ok value => exact tracks_pure value
  | error cause => exact tracks_of_kept fun _ _ _ => ⟨rfl, rfl⟩

theorem Quiet.tracks_onCopy (hQuiet : task.Quiet) (copy : Resource) :
    (task.onCopy copy).Tracks := by
  refine tracks_of_kept fun now scene store => ?_
  obtain ⟨result, left, hExec⟩ := hQuiet.exec_eq now { scene with resource := copy }
  rw [exec_onCopy, hExec]
  exact ⟨rfl, rfl⟩

/-- Tasks keep track one after another. -/
theorem Tracks.bind {f : α → Task σ ε β} (h : task.Tracks) (hNext : ∀ value, (f value).Tracks) :
    (task >>= f).Tracks := by
  intro now scene store hStore
  have hTask := h now scene hStore
  rw [exec_bind]
  rcases hExec : task.exec now scene store with ⟨reason | value, left, last⟩
  · rw [hExec] at hTask
    exact hTask
  · rw [hExec] at hTask
    exact hTask.trans (hNext value now left (hStore.exec hExec))

theorem Tracks.attempt (h : task.Tracks) : (task.attempt : Task σ ε' (Except ε α)).Tracks := by
  intro now scene store hStore
  rw [exec_attempt]
  exact h now scene hStore

theorem exec_ofExcept_of_ok {given : Except ε α} {value : α} (h : given = .ok value) :
    (ofExcept given : Task σ ε α).exec now scene store = ⟨.ok value, scene, store⟩ := by
  rw [h]
  rfl

/-- To return a value afterwards leaves everything else as it is. -/
theorem exec_bind_pure (task : Task σ ε α) (value : β) :
    (task >>= fun _ => Pure.pure value).exec now scene store =
      let ended := task.exec now scene store
      ⟨ended.result.map fun _ => value, ended.scene, ended.store⟩ := by
  rw [exec_bind]
  rcases task.exec now scene store with ⟨_ | _, _, _⟩ <;> rfl

/-- If all that follows a task keeps track, it does so from where the task has ended. -/
theorem tracks_attempt_bind {γ : Type} {f : α → Task σ ε β} {g : Except ε β → Task σ ε' γ}
    (hNext : ∀ value, (f value).Tracks) (hLast : ∀ outcome, (g outcome).Tracks)
    (scene : Scene σ) (hStore : store.Reachable) :
    let first := task.exec now scene store
    let ended := ((task >>= f).attempt >>= g).exec now scene store
    first.store.Tracks first.scene.resource ended.scene.resource ended.store := by
  rcases hFirst : task.exec now scene store with ⟨(payload | error) | value, left, last⟩
  · rw [exec_bind, exec_attempt, exec_bind, hFirst]
    exact .refl last left.resource
  · rw [exec_bind, exec_attempt, exec_bind, hFirst]
    exact hLast (.error error) now left (hStore.exec hFirst)
  · have hRest := ((hNext value).attempt.bind hLast) now left (hStore.exec hFirst)
    rw [exec_bind, exec_attempt] at hRest
    rw [exec_bind, exec_attempt, exec_bind, hFirst, Execution.andThen_ok]
    exact hRest

end Task

namespace Edit

section

variable {request : Task σ WorkError (Except StoreError Resource)}

theorem exec_renew_of_ok {resource : Resource}
    (h : request.exec now scene store = ⟨.ok (.ok resource), scene, store'⟩) :
    (renew request).exec now scene store = ⟨.ok (), { scene with resource }, store'⟩ := by
  rw [renew, Task.exec_bind, h]
  rfl

theorem exec_renew_of_error {error : StoreError}
    (h : request.exec now scene store = ⟨.ok (.error error), scene, store'⟩) :
    (renew request).exec now scene store =
      ⟨.error (.error (.store error)), scene, store'⟩ := by
  rw [renew, Task.exec_bind, h]
  rfl

/-- What a request is answered with takes the place of the resource in hand, and is current then. -/
theorem exec_renew_cases {key : Key} {answer : Except StoreError Resource}
    (hExec : request.exec now scene store = ⟨.ok answer, scene, store'⟩)
    (hReplies : store.Replies key answer store') :
    (∃ resource : Resource, resource.key = key ∧ resource.Current store' ∧
      (renew request).exec now scene store = ⟨.ok (), { scene with resource }, store'⟩) ∨
    ∃ error, store.ShowsNoMore store' ∧
      (renew request).exec now scene store = ⟨.error (.error error), scene, store'⟩ := by
  cases hReplies with
  | given hKey hCurrent => exact .inl ⟨_, hKey, hCurrent, exec_renew_of_ok hExec⟩
  | failed hNoMore => exact .inr ⟨_, hNoMore, exec_renew_of_error hExec⟩

/-- A request that is answered by the store keeps the resource in hand on its track. -/
theorem tracks_renew {key : Key} {serve : Store → Except StoreError Resource × Store}
    (hExec : ∀ now scene store, request.exec now scene store =
      ⟨.ok (serve store).1, scene, (serve store).2⟩)
    (hReplies : ∀ {store : Store}, store.Reachable →
      store.Replies key (serve store).1 (serve store).2) : (renew request).Tracks := by
  intro now scene store hStore
  rcases exec_renew_cases (hExec now scene store) (hReplies hStore) with
    ⟨resource, -, hCurrent, hRenewed⟩ | ⟨error, hNoMore, hFailed⟩
  · rw [hRenewed]
    exact .renewed hCurrent
  · rw [hFailed]
    exact .kept hNoMore

/-- Fetching makes the resource current. -/
theorem tracks_fetch : (fetch : Task σ WorkError Base).Tracks := by
  refine Task.tracks_resource.bind fun resource => ?_
  have hRenew : (renew (Task.get resource.key) : Task σ WorkError Unit).Tracks :=
    tracks_renew (fun now scene store => Task.exec_get now scene store resource.key)
      fun hStore => hStore.replies_get resource.key
  exact hRenew.bind fun _ => Task.tracks_resource.bind fun found =>
    (Task.tracks_ofExcept _).bind fun _ => Task.tracks_pure _

theorem tracks_updateStatus (resource : Resource) :
    (renew (Task.updateStatus resource) : Task σ WorkError Unit).Tracks :=
  tracks_renew (fun now scene store => Task.exec_updateStatus now scene store resource)
    fun hStore => hStore.replies_updateStatus resource

end

/-- How the writing of an edit ends. What is in hand is current, or there was nothing to write, or
it stays in hand as the work has left it, and nothing is written that can be read. -/
inductive Persists (base : Base) (scene : Scene σ) (store : Store) :
    Except (Stop WorkError) Written → Scene σ → Store → Prop where
  | current {result : Except (Stop WorkError) Written} {scene' : Scene σ} {store' : Store}
    (hKey : scene'.resource.key = base.key) (hCurrent : scene'.resource.Current store') :
    Persists base scene store result scene' store'
  | unchanged {after : Snapshot} (hKey : scene.resource.key = base.key)
    (hAfter : scene.resource.snapshot = .ok after) (hAgree : base.snapshot.Agree after) :
    Persists base scene store (.ok .nothing) scene store
  | failed {error : WorkError} {store' : Store} (hNoMore : store.ShowsNoMore store') :
    Persists base scene store (.error (.error error)) scene store'

section

variable {base : Base} {after : Snapshot}

/-- Once everything but the status is written, the resource in hand remains current. -/
theorem current_writeStatusAfterMain (before after : Option Json) (now : Timestamp)
    (scene : Scene σ) (hStore : store.Reachable) (hCurrent : scene.resource.Current store) :
    let ended := (writeStatusAfterMain before after).exec now scene store
    ended.scene.resource.key = scene.resource.key ∧ ended.scene.resource.Current ended.store := by
  rw [writeStatusAfterMain, Task.exec_bind, Task.exec_resource, Execution.andThen_ok,
    Task.exec_bind]
  cases scene.resource.withStatus before with
  | error error => exact ⟨rfl, hCurrent⟩
  | ok source =>
      rw [Task.exec_ofExcept_of_ok (Except.mapError_eq_ok_iff.2 rfl), Execution.andThen_ok,
        Task.exec_bind]
      cases hTarget : scene.resource.withStatus after with
      | error error => exact ⟨rfl, hCurrent⟩
      | ok target =>
          rw [Task.exec_ofExcept_of_ok (Except.mapError_eq_ok_iff.2 rfl), Execution.andThen_ok]
          rcases exec_renew_cases (Task.exec_patchStatus now scene store target source)
            (hStore.replies_patchStatus target source) with
            ⟨result, hKey, hResult, hRenewed⟩ | ⟨error, hNoMore, hFailed⟩
          · rw [hRenewed]
            have hSame := (Resource.of_withStatus_eq_ok hTarget).1
            exact ⟨hKey.trans (congrArg Metadata.key hSame), hResult⟩
          · rw [hFailed]
            exact ⟨rfl, hCurrent.mono hNoMore⟩

/-- A first write either fails, or what follows it goes on with what is current. -/
theorem persists_of_first {task : Task σ WorkError Unit} {next : Unit → Task σ WorkError Written}
    {request : Task σ WorkError (Except StoreError Resource)} {answer : Except StoreError Resource}
    (hTask : task.exec now scene store = (renew request).exec now scene store)
    (hExec : request.exec now scene store = ⟨.ok answer, scene, store'⟩)
    (hReplies : store.Replies base.key answer store')
    (hNext : ∀ resource : Resource, resource.key = base.key → resource.Current store' →
      let ended := (next ()).exec now { scene with resource } store'
      ended.scene.resource.key = base.key ∧ ended.scene.resource.Current ended.store) :
    let ended := (task >>= next).exec now scene store
    Persists base scene store ended.result ended.scene ended.store := by
  rw [Task.exec_bind, hTask]
  rcases exec_renew_cases hExec hReplies with
    ⟨first, hKey, hCurrent, hRenewed⟩ | ⟨error, hNoMore, hFailed⟩
  · rw [hRenewed, Execution.andThen_ok]
    obtain ⟨hLastKey, hLast⟩ := hNext first hKey hCurrent
    exact .current hLastKey hLast
  · rw [hFailed]
    exact .failed hNoMore

/-- What is written is current, or nothing differed, or a request has failed and shows nothing new.
-/
theorem persists_write (now : Timestamp) (hStore : store.Reachable)
    (hKey : scene.resource.key = base.key) (hAfter : scene.resource.snapshot = .ok after) :
    let ended := (write base after).exec now scene store
    Persists base scene store ended.result ended.scene ended.store := by
  have hMainTask : (writeMain base : Task σ WorkError Unit).exec now scene store =
      (renew (Task.patch scene.resource base.resource)).exec now scene store := by
    rw [writeMain, Task.exec_bind, Task.exec_resource, Execution.andThen_ok]
  have hMainExec : (Task.patch scene.resource base.resource : Task σ WorkError _).exec now scene
      store = ⟨.ok (store.patch scene.resource base.resource).1, scene,
        (store.patch scene.resource base.resource).2⟩ :=
    Task.exec_patch now scene store scene.resource base.resource
  have hMainReplies := hKey ▸ hStore.replies_patch scene.resource base.resource
  by_cases hMain : base.snapshot.MainAgree after
  · by_cases hStatus : base.snapshot.StatusAgree after
    · rw [write, decide_eq_true hMain, decide_eq_true hStatus]
      exact .unchanged hKey hAfter ⟨hMain, hStatus⟩
    · rw [write, decide_eq_true hMain, decide_eq_false hStatus]
      have hTask : (writeStatus base : Task σ WorkError Unit).exec now scene store =
          (renew (Task.patchStatus scene.resource base.resource)).exec now scene store := by
        rw [writeStatus, Task.exec_bind, Task.exec_resource, Execution.andThen_ok]
      exact persists_of_first hTask (Task.exec_patchStatus now scene store _ _)
        (hKey ▸ hStore.replies_patchStatus scene.resource base.resource)
        fun _ hFirst hCurrent => ⟨hFirst, hCurrent⟩
  · by_cases hStatus : base.snapshot.StatusAgree after
    · rw [write, decide_eq_false hMain, decide_eq_true hStatus]
      exact persists_of_first hMainTask hMainExec hMainReplies
        fun _ hFirst hCurrent => ⟨hFirst, hCurrent⟩
    · rw [write, decide_eq_false hMain, decide_eq_false hStatus]
      refine persists_of_first hMainTask hMainExec hMainReplies fun first hFirst hCurrent => ?_
      -- Whether the status is written then or not, what is in hand is current.
      rw [Task.exec_bind_pure]
      obtain ⟨hSame, hLast⟩ := current_writeStatusAfterMain base.snapshot.status after.status now
        { scene with resource := first }
        (hStore.serve now (.patch scene.resource base.resource)) hCurrent
      exact ⟨hSame.trans hFirst, hLast⟩

/-- There is no other way for the writing of an edit to end. -/
theorem persists_of_exec {result : Except (Stop WorkError) Written} (hStore : store.Reachable)
    (hExec : (persist base false none).exec now scene store = ⟨result, scene', store'⟩) :
    Persists base scene store result scene' store' := by
  by_cases hKey : scene.resource.key = base.key
  · cases hAfter : scene.resource.snapshot with
    | ok after =>
        have hWrite := persists_write now hStore hKey hAfter
        rw [Task.exec, persist_of_snapshot hKey hAfter] at hExec
        rwa [Task.exec, hExec] at hWrite
    | error error =>
        rw [exec_persist_of_snapshot_error hKey hAfter] at hExec
        cases hExec
        exact .failed (.refl store)
  · rw [persist, Task.exec_bind, Task.exec_resource, Execution.andThen_ok, if_pos hKey] at hExec
    cases hExec
    exact .failed (.refl store)

end

end Edit

namespace Finalizer

variable {finalizer : Finalizer σ}

theorem tracks_write (resource : Resource) : (write resource : Task σ WorkError Unit).Tracks :=
  Edit.tracks_renew (fun now scene store => Task.exec_update now scene store resource)
    fun hStore => hStore.replies_update resource

theorem tracks_release : finalizer.release.Tracks := by
  refine Task.tracks_resource.bind fun resource => ?_
  split
  · exact tracks_write _
  · exact Task.tracks_pure ()

theorem tracks_hold : finalizer.hold.Tracks := by
  refine Task.tracks_resource.bind fun resource => ?_
  split
  · exact tracks_write _
  · exact Task.tracks_pure ()

end Finalizer

namespace Engine

variable {engine : Engine σ} {step : Step σ}

theorem tracks_skips : (engine.skips step).Tracks := by
  unfold skips
  split
  · exact Task.tracks_observe _
  · exact Task.tracks_pure false

theorem tracks_mark (hQuiet : step.Quiet) (now : Timestamp) : (step.mark now).Tracks := by
  have hHook : (step.runHook.mapError WorkError.hook).Quiet :=
    Task.quiet_iff_conducts.2 ((Task.quiet_iff_conducts.1 hQuiet.runHook).mapError _)
  refine Task.tracks_resource.bind fun resource =>
    (Task.tracks_orPanic _ _).bind fun condition => ?_
  exact (hHook.tracks_onCopy _).bind fun copied => Edit.tracks_updateStatus copied.2

theorem tracks_markStep (hQuiet : step.Quiet) (now : Timestamp) : (markStep step now).Tracks := by
  unfold markStep
  split
  · exact (tracks_mark hQuiet now).attempt
  · exact Task.tracks_pure _

/-- All that comes before the work of a step keeps track. -/
theorem tracks_approach (hQuiet : step.Quiet) (now : Timestamp) :
    (engine.approach now step).Tracks := by
  refine tracks_skips.bind fun skipped => ?_
  split
  · exact Task.tracks_pure _
  · refine (tracks_markStep hQuiet now).bind fun marked => ?_
    cases marked with
    | error error => exact Task.tracks_pure _
    | ok _ =>
        refine Edit.tracks_fetch.attempt.bind fun fetched => ?_
        cases fetched with
        | error error => exact Task.tracks_pure _
        | ok base => exact Task.tracks_pure _

theorem tracks_recordFinalizing (now : Timestamp) (error : WorkError) :
    (recordFinalizing now error : Task σ Empty Unit).Tracks := by
  rw [recordFinalizing_eq]
  exact Task.tracks_resource.bind fun resource =>
    (Edit.tracks_updateStatus _).attempt.bind fun _ => Task.tracks_pure ()

/-- What an engine does once the finalizer has been seen to. -/
def heedFinalizer (engine : Engine σ) (now : Timestamp) :
    Except WorkError Bool → Task σ Empty (Option Requeue)
  | .ok true => pure (some .none)
  | .ok false => pure none
  | .error error => do
    recordFinalizing now error
    return some engine.config.onFailure

theorem tracks_heedFinalizer (engine : Engine σ) (now : Timestamp)
    (outcome : Except WorkError Bool) : (engine.heedFinalizer now outcome).Tracks := by
  rcases outcome with error | _ | _
  · exact (tracks_recordFinalizing now error).bind fun _ => Task.tracks_pure _
  · exact Task.tracks_pure _
  · exact Task.tracks_pure _

theorem finalize_eq {finalizer : Finalizer σ} (h : engine.finalizer = some finalizer)
    (now : Timestamp) :
    engine.finalize now = finalizer.enforce.attempt >>= engine.heedFinalizer now := by
  rw [finalize, h]
  refine congrArg (finalizer.enforce.attempt >>= ·) (funext fun outcome => ?_)
  rcases outcome with error | _ | _ <;> rfl

/-- Unless there is a cleanup to do, what is in hand keeps track. -/
theorem tracks_finalize_of_alive (now : Timestamp) (scene : Scene σ)
    (hAlive : ∀ finalizer, engine.finalizer = some finalizer →
      scene.resource.isTerminating = false) (hStore : store.Reachable) :
    let ended := (engine.finalize now).exec now scene store
    store.Tracks scene.resource ended.scene.resource ended.store := by
  cases hFinalizer : engine.finalizer with
  | none =>
      rw [finalize, hFinalizer]
      exact .refl store scene.resource
  | some finalizer =>
      have hTask : ((finalizer.hold >>= fun _ => pure false).attempt >>=
          engine.heedFinalizer now : Task σ Empty _).Tracks :=
        (Finalizer.tracks_hold.bind fun _ => Task.tracks_pure false).attempt.bind
          (tracks_heedFinalizer engine now)
      have hExec : (engine.finalize now).exec now scene store =
          ((finalizer.hold >>= fun _ => pure false).attempt >>=
            engine.heedFinalizer now : Task σ Empty _).exec now scene store := by
        rw [finalize_eq hFinalizer, Task.exec_bind, Task.exec_bind, Task.exec_attempt,
          Task.exec_attempt, Task.exec,
          Finalizer.enforce_apply_of_alive (hAlive finalizer hFinalizer), ← Task.exec]
      rw [hExec]
      exact hTask now scene hStore

/-- Else it keeps track once the cleanup has ended. -/
theorem tracks_finalize_of_terminating {finalizer : Finalizer σ}
    (hFinalizer : engine.finalizer = some finalizer)
    (hTerminating : scene.resource.isTerminating = true) (hStore : store.Reachable) :
    let cleaned := finalizer.cleanUp.exec now scene store
    let ended := (engine.finalize now).exec now scene store
    cleaned.store.Tracks cleaned.scene.resource ended.scene.resource ended.store := by
  intro cleaned ended
  have hEnded : ended = ((finalizer.cleanUp >>= fun _ => finalizer.release >>= fun _ =>
      pure true).attempt >>= engine.heedFinalizer now : Task σ Empty _).exec now scene store := by
    show (engine.finalize now).exec now scene store = _
    rw [finalize_eq hFinalizer, Task.exec_bind, Task.exec_bind, Task.exec_attempt,
      Task.exec_attempt, Task.exec, Finalizer.enforce_apply_of_terminating hTerminating,
      ← Task.exec]
  rw [hEnded]
  exact Task.tracks_attempt_bind (fun _ => Finalizer.tracks_release.bind fun _ =>
    Task.tracks_pure true) (tracks_heedFinalizer engine now) scene hStore

/-- Before the steps, the finalizer is all that changes the resource in hand and the store. -/
theorem exec_lead (engine : Engine σ) (now : Timestamp) (scene : Scene σ) (store : Store) :
    ∃ skipped state, (asks engine.preFinalizeSkipper).exec now scene store =
      ⟨.ok skipped, { scene with state }, store⟩ ∧
      let ended := (engine.lead now).exec now scene store
      let finalized := (engine.finalize now).exec now { scene with state } store
      if skipped then ended.scene.resource = scene.resource ∧ ended.store = store
      else ended.scene.resource = finalized.scene.resource ∧ ended.store = finalized.store := by
  obtain ⟨skipped, state, hAsked⟩ := exec_asks engine.preFinalizeSkipper now scene store
  refine ⟨skipped, state, hAsked, ?_⟩
  rw [lead, Task.exec_bind, hAsked, Execution.andThen_ok]
  cases skipped with
  | true => exact ⟨rfl, rfl⟩
  | false =>
      rw [if_neg Bool.false_ne_true, if_neg Bool.false_ne_true, Task.exec_bind, Task.widen,
        Task.exec_mapError]
      rcases (engine.finalize now).exec now { scene with state } store with
        ⟨reason | _ | requeue, left, last⟩
      · exact ⟨rfl, rfl⟩
      · obtain ⟨leftAlone, state', hLeft⟩ := exec_asks engine.skipper now left last
        simp only [Except.mapError, Execution.andThen_ok, Task.exec_bind, hLeft]
        cases leftAlone <;> exact ⟨rfl, rfl⟩
      · exact ⟨rfl, rfl⟩

/-- So does all that comes before the steps, if the resource is not being deleted. -/
theorem tracks_lead_of_alive (engine : Engine σ) (now : Timestamp) (scene : Scene σ)
    (hAlive : ∀ finalizer, engine.finalizer = some finalizer →
      scene.resource.isTerminating = false) (hStore : store.Reachable) :
    let ended := (engine.lead now).exec now scene store
    store.Tracks scene.resource ended.scene.resource ended.store := by
  intro ended
  obtain ⟨_ | _, state, -, hResource, hSame⟩ := exec_lead engine now scene store
  · rw [show ended.scene.resource = _ from hResource, show ended.store = _ from hSame]
    exact tracks_finalize_of_alive now { scene with state } hAlive hStore
  · rw [show ended.scene.resource = _ from hResource, show ended.store = _ from hSame]
    exact .refl store scene.resource

/-- A resource that is being deleted tracks the store from the end of its cleanup on. -/
theorem tracks_lead_of_terminating (now : Timestamp) (scene : Scene σ) {finalizer : Finalizer σ}
    (hFinalizer : engine.finalizer = some finalizer)
    (hTerminating : scene.resource.isTerminating = true) (hStore : store.Reachable) :
    let ended := (engine.lead now).exec now scene store
    store.Tracks scene.resource ended.scene.resource ended.store ∨
      ∃ state, let cleaned := finalizer.cleanUp.exec now { scene with state } store
        cleaned.store.Tracks cleaned.scene.resource ended.scene.resource ended.store := by
  intro ended
  obtain ⟨_ | _, state, -, hResource, hSame⟩ := exec_lead engine now scene store
  · rw [show ended.scene.resource = _ from hResource, show ended.store = _ from hSame]
    exact .inr ⟨state, tracks_finalize_of_terminating hFinalizer hTerminating hStore⟩
  · rw [show ended.scene.resource = _ from hResource, show ended.store = _ from hSame]
    exact .inl (.refl store scene.resource)

end Engine

end Reconciliation
