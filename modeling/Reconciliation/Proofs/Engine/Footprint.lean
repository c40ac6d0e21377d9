import Reconciliation.Proofs.Engine.StepReadBack
import Reconciliation.Proofs.Engine.Visits
import Reconciliation.Proofs.Finalizer.Enforcing
import Reconciliation.Proofs.Store.Isolation

/-!
The footprint of an invocation: the keys under which it may change anything. It writes under the key
that it is about, and under those keys that a cleanup, or a hook on a resource that is being marked,
has put in its place. An edit asks whether the resource has still its key before it writes, so that
the work of steps adds none.
-/
namespace Reconciliation

variable {σ ε ε' α β : Type} {own : Key → Prop}

/-- A request that writes under the given keys only. -/
def Request.Within (own : Key → Prop) (request : Request) : Prop :=
  ∀ key, request.written? = some key → own key

/-- A request is within the keys if it may write under one of them only. -/
theorem Request.within_of_written? {request : Request} {key : Key}
    (h : request.written? = some key) (hKey : own key) : request.Within own := by
  intro key' hWritten
  cases h.symm.trans hWritten
  exact hKey

theorem Request.within_get (key : Key) : (Request.get key).Within own := by
  intro key' hWritten
  cases hWritten

/-- A store that has changed under the given keys only. -/
structure Store.Changes (own : Key → Prop) (start store : Store) : Prop where
  reachable : store.Reachable
  elsewhere : ∀ key, ¬own key → store.objects.get? key = start.objects.get? key

namespace Store.Changes

variable {start store : Store} {request : Request}

theorem refl (h : store.Reachable) : Changes own store store :=
  ⟨h, fun _ _ => rfl⟩

/-- A request within the given keys is answered as asked and leaves everything else. -/
theorem serve (h : Changes own start store) (now : Timestamp) (hWithin : request.Within own) :
    request.Fits (request.serve now store).1 ∧ Changes own start (request.serve now store).2 := by
  refine ⟨fits_serve h.reachable.sound h.reachable.keyed now request,
    h.reachable.serve now request, fun key hKey => ?_⟩
  rw [get?_serve_of_written?_ne fun hWritten => hKey (hWithin key hWritten)]
  exact h.elsewhere key hKey

end Store.Changes

namespace Task

/-- A task that keeps within the given keys if the resource has one of them, and leaves the resource
with one of them. -/
def Stays (own : Key → Prop) (task : Task σ ε α) : Prop :=
  ∀ scene, own scene.resource.key →
    task.AbidesAt (Request.Within own) Request.Fits scene fun _ left => own left.resource.key

/-- A task without requests that leaves a resource with one of the given keys if it finds one. -/
def Keeps (own : Key → Prop) (task : Task σ ε α) : Prop :=
  ∀ scene, own scene.resource.key →
    ∃ ended, task scene = .done ended ∧ own ended.2.resource.key

/-- A task without requests stays within the keys if it keeps the resource to them. -/
theorem Keeps.stays {task : Task σ ε α} (h : task.Keeps own) : task.Stays own := by
  intro scene hOwn
  obtain ⟨ended, hDone, hLeft⟩ := h scene hOwn
  unfold AbidesAt
  rw [hDone]
  exact .done hLeft

theorem stays_pure (value : α) : (Pure.pure value : Task σ ε α).Stays own :=
  fun _ hOwn => .done hOwn

/-- One task after another stays within the keys if both do. -/
theorem Stays.bind {task : Task σ ε α} {f : α → Task σ ε β} (h : task.Stays own)
    (hNext : ∀ value, (f value).Stays own) : (task >>= f).Stays own :=
  fun scene hOwn => (h scene hOwn).bind (fun value left hLeft => hNext value left hLeft)
    fun _ _ => id

theorem Stays.attempt {task : Task σ ε α} (h : task.Stays own) :
    (task.attempt : Task σ ε' (Except ε α)).Stays own :=
  fun scene hOwn => (h scene hOwn).attempt (fun _ _ => id) (fun _ _ => id) fun _ _ => id

theorem Stays.mapError {task : Task σ ε α} (h : task.Stays own) (f : ε → ε') :
    (task.mapError f).Stays own := by
  refine fun scene hOwn => Program.Abides.bind (h scene hOwn) fun ended hEnded => ?_
  obtain ⟨_ | value, left⟩ := ended
  · exact .done hEnded
  · exact .done hEnded

/-- A task that stays leaves a resource with one of the keys in hand. -/
theorem Stays.exec {task : Task σ ε α} (h : task.Stays own) (now : Timestamp) (scene : Scene σ)
    (hScene : own scene.resource.key) {store : Store} (hStore : store.Reachable) :
    own (task.exec now scene store).scene.resource.key :=
  ((h scene hScene).exec (fun _ _ hWithin hKept => hKept.serve now hWithin)
    (Store.Changes.refl hStore)).1

end Task

namespace Edit

variable {μ : Type} {edit : Edit σ μ} {base : Base} {value : μ} {scene : Scene σ}

/-- A resource has been written, and has one of the given keys. -/
def Lands (own : Key → Prop) (ended : End σ μ) : Prop :=
  ∀ {edited written}, ended.1 = .ok edited → edited.written = .ok written →
    own ended.2.resource.key

theorem lands_of_error {mutation : Option μ} {error : WorkError} {scene : Scene σ} :
    Lands own ((.ok { mutation, written := .error error }, scene) : End σ μ) := by
  rintro _ _ ⟨⟩ hWritten
  cases hWritten

/-- Whatever the mutation makes of the resource, only its own key is written. -/
theorem within_mutated (hNone : edit.onChange = none) (hBase : own base.key)
    (ended : Except (Stop Empty) μ × Scene σ) :
    ((Stage.mutated edit base ended).program edit).Abides (Request.Within own) Request.Fits
      (Lands own) := by
  obtain ⟨reason | value, scene⟩ := ended
  · rw [Stage.mutated, Stage.program]
    exact .done fun hEdited _ => by cases hEdited
  · unfold Stage.mutated
    dsimp only
    split
    · rw [program_conclude]
      exact .done lands_of_error
    · rename_i hKey
      have hSame : scene.resource.key = base.key := Decidable.not_not.1 hKey
      have hWorks {stage : Stage σ μ} (h : stage.Works (Request.Within own) edit base.key) :
          (stage.program edit).Abides (Request.Within own) Request.Fits (Lands own) :=
        h.mono (fun _ => id) (fun _ _ => id) fun _ hEnded _ _ _ _ => hEnded ▸ hBase
      simp only [hNone]
      split
      · exact hWorks (Stage.works_conclude hSame)
      · split
        · exact hWorks (Stage.works_conclude hSame)
        · refine hWorks (Stage.works_due (fun target _ hTarget => ?_) ?_ hSame)
          · exact Request.within_of_written? rfl (hTarget ▸ hBase)
          · exact Request.within_of_written? rfl (hSame ▸ hBase)

/-- An edit writes under the key of the resource in hand, whatever its mutation does to that. -/
theorem within_run (hMutate : edit.mutate.Quiet) (hNone : edit.onChange = none)
    (hScene : own scene.resource.key) :
    (edit.run scene).Abides (Request.Within own) Request.Fits (Lands own) := by
  rw [← program_fetching, Stage.program]
  refine .call (Request.within_get _) fun answer _ => ?_
  cases answer with
  | error error =>
      rw [Stage.fetched, program_giveUp]
      exact .done lands_of_error
  | ok resource =>
      rw [Stage.fetched]
      split
      · rw [program_giveUp]
        exact .done lands_of_error
      · obtain ⟨ended, hDone⟩ := hMutate { scene with resource }
        rw [Stage.program, hDone]
        exact within_mutated hNone hScene ended

end Edit

namespace Engine

variable {engine : Engine σ} {step : Step σ} {now : Timestamp}

/-- The keys are closed under what users may put in the place of a resource and have written without
a look at its key: a cleanup, and the hooks of steps that are marked. Nothing that users supply
makes requests. -/
structure Confined (own : Key → Prop) (engine : Engine σ) : Prop where
  quiet : ∀ step ∈ engine.steps, step.Quiet
  marking : ∀ step ∈ engine.steps, step.marks = true → ∀ hook, step.hook = some hook →
    hook.Keeps own
  cleanup : ∀ finalizer cleanup, engine.finalizer = some finalizer →
    finalizer.cleanup = some cleanup → cleanup.Keeps own

theorem stays_markStep (hHook : step.marks = true → ∀ hook, step.hook = some hook → hook.Keeps own)
    (now : Timestamp) : (markStep step now).Stays own := by
  unfold markStep
  split
  · rename_i hMarks
    have hRun : step.runHook.Stays own := by
      rw [Step.runHook]
      cases hGiven : step.hook with
      | none => exact Task.stays_pure ()
      | some hook => exact (hHook hMarks hook hGiven).stays
    have hMark : (step.mark now).Stays own := fun scene hScene =>
      mark_abides own (fun _ hKey => Request.within_of_written? rfl hKey) hScene
        (fun copy hCopy => hRun copy hCopy) now
    exact hMark.attempt
  · exact Task.stays_pure _

theorem stays_skips : (engine.skips step).Stays own :=
  fun scene hScene => (conducts_skips scene).mono fun _ left
    (hKey : left.resource.key = scene.resource.key) => hKey ▸ hScene

/-- If the engine goes on after a step, it does so with a resource under one of the given keys. -/
theorem within_runStep (hQuiet : step.Quiet)
    (hHook : step.marks = true → ∀ hook, step.hook = some hook → hook.Keeps own)
    {scene : Scene σ} (hScene : own scene.resource.key) :
    (engine.runStep now step).AbidesAt (Request.Within own) Request.Fits scene
      fun result left => result = .ok .proceed → own left.resource.key := by
  refine (stays_skips scene hScene).bind (fun skipped asked hAsked => ?_) nofun
  split
  · exact .done fun _ => hAsked
  · refine (stays_markStep hHook now asked hAsked).bind (fun outcome marked hMarked => ?_) nofun
    cases outcome with
    | error error => exact .done nofun
    | ok _ =>
        have hEdit : (step.edit now engine.config.catchesPanics engine.sink).run.AbidesAt
            (Request.Within own) Request.Fits marked fun result left =>
              Edit.Lands own (result, left) :=
          Edit.within_run hQuiet.perform rfl hMarked
        refine hEdit.bind (fun edited left hLands => ?_) fun _ _ _ hGoes => nomatch hGoes
        dsimp only
        split
        · exact .done nofun
        · rename_i hWritten
          exact .done fun _ => hLands rfl hWritten

/-- Steps write within the keys, whatever their work makes of the resource. -/
theorem within_runSteps {steps : List (Step σ)} (hQuiet : ∀ step ∈ steps, step.Quiet)
    (hHooks : ∀ step ∈ steps, step.marks = true → ∀ hook, step.hook = some hook → hook.Keeps own)
    {scene : Scene σ} (hScene : own scene.resource.key) :
    (engine.runSteps now steps).AbidesAt (Request.Within own) Request.Fits scene
      fun _ _ => True := by
  induction steps generalizing scene with
  | nil => exact .done trivial
  | cons step rest ih =>
      refine (within_runStep (hQuiet step List.mem_cons_self) (hHooks step List.mem_cons_self)
        hScene).bind (fun control left hLeft => ?_) fun _ _ _ => trivial
      cases control with
      | halt requeue => exact .done trivial
      | proceed =>
          exact ih (fun step hStep => hQuiet step (List.mem_cons_of_mem _ hStep))
            (fun step hStep => hHooks step (List.mem_cons_of_mem _ hStep)) (hLeft rfl)

theorem stays_fetch : (Edit.fetch : Task σ WorkError Edit.Base).Stays own := by
  intro scene hScene
  rw [Task.AbidesAt, Edit.fetch_apply]
  refine .call (Request.within_get _) fun answer hFits => ?_
  cases answer with
  | error error => exact .done hScene
  | ok resource =>
      have hResource : own resource.key := (hFits rfl rfl : resource.key = _).symm ▸ hScene
      cases hSnapshot : resource.snapshot with
      | error error =>
          simp only [hSnapshot]
          exact .done hResource
      | ok snapshot =>
          simp only [hSnapshot]
          exact .done hResource

theorem stays_approach
    (hHook : step.marks = true → ∀ hook, step.hook = some hook → hook.Keeps own)
    (now : Timestamp) : (engine.approach now step).Stays own := by
  refine stays_skips.bind fun skipped => ?_
  split
  · exact Task.stays_pure _
  · refine (stays_markStep hHook now).bind fun marked => ?_
    cases marked with
    | error error => exact Task.stays_pure _
    | ok _ =>
        refine stays_fetch.attempt.bind fun fetched => ?_
        cases fetched with
        | error error => exact Task.stays_pure _
        | ok base => exact Task.stays_pure _

theorem stays_asks (skipper : Option (Skipper σ)) : (asks skipper).Stays own := by
  intro scene hScene
  cases skipper with
  | none => exact .done hScene
  | some skipper => exact .done hScene

end Engine

namespace Finalizer

variable {finalizer : Finalizer σ}

theorem within_write {resource : Resource} {scene : Scene σ} (hResource : own resource.key)
    (hScene : own scene.resource.key) :
    (write resource).AbidesAt (Request.Within own) Request.Fits scene
      fun _ left => own left.resource.key := by
  refine Task.renew_abides hScene (.call (Request.within_of_written? rfl hResource)
    fun answer hFits => .done ⟨rfl, fun found hFound => ?_⟩)
  cases hFound
  exact (hFits rfl rfl : found.key = resource.key).symm ▸ hResource

/-- A finalizer writes under the key of the resource in hand, which its cleanup may have put there.
-/
theorem stays_enforce (hCleanup : ∀ cleanup, finalizer.cleanup = some cleanup → cleanup.Keeps own) :
    finalizer.enforce.Stays own := by
  have hClean : finalizer.cleanUp.Stays own := by
    rw [cleanUp]
    cases hGiven : finalizer.cleanup with
    | none => exact Task.stays_pure ()
    | some cleanup => exact (hCleanup cleanup hGiven).stays.mapError _
  have hRelease : finalizer.release.Stays own := by
    refine fun scene hScene => .bind_of_done rfl ?_
    split
    · exact within_write hScene hScene
    · exact .done hScene
  have hHold : finalizer.hold.Stays own := by
    refine fun scene hScene => .bind_of_done rfl ?_
    split
    · exact within_write ((scene.resource.key_addFinalizer finalizer.name).symm ▸ hScene) hScene
    · exact .done hScene
  refine fun scene hScene => .bind_of_done rfl ?_
  split
  · exact hClean.bind (fun _ => hRelease.bind fun _ => Task.stays_pure true) scene hScene
  · exact hHold.bind (fun _ => Task.stays_pure false) scene hScene

end Finalizer

namespace Engine

variable {engine : Engine σ} {now : Timestamp} {key : Key} {state : σ} {store : Store}

theorem stays_finalize (h : engine.Confined own) : (engine.finalize now).Stays own := by
  rw [finalize]
  cases hFinalizer : engine.finalizer with
  | none => exact Task.stays_pure none
  | some finalizer =>
      refine (Finalizer.stays_enforce (h.cleanup finalizer · hFinalizer)).attempt.bind
        fun outcome => ?_
      rcases outcome with error | (_ | _)
      · have hRecord : (recordFinalizing now error : Task σ Empty Unit).Stays own :=
          fun scene hScene => recordFinalizing_abides own
            (fun _ hKey => Request.within_of_written? rfl hKey) hScene now error
        exact hRecord.bind fun _ => Task.stays_pure _
      · exact Task.stays_pure none
      · exact Task.stays_pure _

theorem stays_lead (h : engine.Confined own) (now : Timestamp) : (engine.lead now).Stays own := by
  refine (stays_asks engine.preFinalizeSkipper).bind fun passedOver => ?_
  split
  · exact Task.stays_pure _
  · refine ((stays_finalize h).mapError _).bind fun finalized => ?_
    cases finalized with
    | some requeue => exact Task.stays_pure _
    | none =>
        refine (stays_asks engine.skipper).bind fun leftAlone => ?_
        split
        · exact Task.stays_pure _
        · exact Task.stays_pure _

/-- So does an invocation that has fetched its resource. -/
theorem within_process (h : engine.Confined own) {scene : Scene σ}
    (hScene : own scene.resource.key) :
    (engine.process now).AbidesAt (Request.Within own) Request.Fits scene fun _ _ => True := by
  rw [process_eq]
  refine (stays_lead h now scene hScene).bind (fun lead left hLeft => ?_) fun _ _ _ => trivial
  cases lead with
  | passedOver | finalized requeue | leftAlone => exact .done trivial
  | ready =>
      refine Program.Abides.bind (within_runSteps h.quiet h.marking hLeft) fun ended _ => ?_
      obtain ⟨_ | requeue, last⟩ := ended <;> exact .done trivial

/-- An invocation writes under the given keys only, if its own key is one of them and they are
closed under what users put in the place of a resource. -/
theorem Confined.changes (h : engine.Confined own) (hStore : store.Reachable) (hKey : own key) :
    Store.Changes own store ((engine.run now key state).run now store).2 := by
  have hRun : (engine.run now key state).Abides (Request.Within own) Request.Fits
      fun _ => True := by
    refine .call (Request.within_get _) fun answer hFits => ?_
    rcases answer with error | resource
    · cases error <;> exact .done trivial
    · exact Program.Abides.bind (within_process h (hFits rfl rfl ▸ hKey)) fun _ _ => .done trivial
  exact (hRun.run (fun request store hWithin hKept => hKept.serve now hWithin)
    (Store.Changes.refl hStore)).2

/-- The keys under which a resource may be written that was found under a key: this one, and those
that a cleanup, or the hook of a step that is marked, gives to a resource under one of them. -/
inductive Strays (engine : Engine σ) (key : Key) : Key → Prop where
  | found : Strays engine key key
  | cleanup {finalizer : Finalizer σ} {cleanup : Task σ Report Unit} {scene : Scene σ}
    {ended : Except (Stop Report) Unit × Scene σ} (hFinalizer : engine.finalizer = some finalizer)
    (hCleanup : finalizer.cleanup = some cleanup) (hFrom : Strays engine key scene.resource.key)
    (hDone : cleanup scene = .done ended) : Strays engine key ended.2.resource.key
  | marking {step : Step σ} {hook : Task σ Report Unit} {scene : Scene σ}
    {ended : Except (Stop Report) Unit × Scene σ} (hStep : step ∈ engine.steps)
    (hMarks : step.marks = true) (hHook : step.hook = some hook)
    (hFrom : Strays engine key scene.resource.key) (hDone : hook scene = .done ended) :
    Strays engine key ended.2.resource.key

/-- An engine whose users' parts make no requests. -/
structure Quiet (engine : Engine σ) : Prop where
  steps : ∀ step ∈ engine.steps, step.Quiet
  cleanup : ∀ finalizer cleanup, engine.finalizer = some finalizer →
    finalizer.cleanup = some cleanup → cleanup.Quiet

/-- What an engine may stray to is closed under what its users do, if they make no requests. -/
theorem Quiet.confined (h : engine.Quiet) (key : Key) : engine.Confined (engine.Strays key) where
  quiet := h.steps
  marking step hStep hMarks hook hHook scene hScene := by
    obtain ⟨ended, hDone⟩ := (h.steps step hStep).hook hook hHook scene
    exact ⟨ended, hDone, .marking hStep hMarks hHook hScene hDone⟩
  cleanup finalizer cleanup hFinalizer hCleanup scene hScene := by
    obtain ⟨ended, hDone⟩ := h.cleanup finalizer cleanup hFinalizer hCleanup scene
    exact ⟨ended, hDone, .cleanup hFinalizer hCleanup hScene hDone⟩

/-- An invocation leaves alone what is stored under any key but its own and those that cleanups and
hooks of marked steps have put in its place, whatever else users do to the resource. -/
theorem Quiet.get?_run (hQuiet : engine.Quiet) (hStore : store.Reachable) (now : Timestamp)
    (state : σ) {other : Key} (hOther : ¬engine.Strays key other) :
    ((engine.run now key state).run now store).2.objects.get? other = store.objects.get? other :=
  ((hQuiet.confined key).changes hStore .found).elsewhere other hOther

def rename {ε : Type} (name : String) : Task Unit ε Unit :=
  Task.modifyResource fun resource =>
    { resource with metadata := { resource.metadata with name, space := "", version := none } }

def bare (name : String) (finalizers : List String := []) : Resource :=
  { metadata := { name, finalizers }, spec := .object .nil }

def neighbours : Store :=
  [.insert (bare "a" ["f"]), .insert (bare "b"), .insert (bare "c"), .delete ⟨"", "a"⟩].foldl
    (fun store request => (Request.serve default request store).2) {}

theorem neighbours_reachable : neighbours.Reachable :=
  (((Store.Reachable.empty.serve default (.insert (bare "a" ["f"]))).serve default
    (.insert (bare "b"))).serve default (.insert (bare "c"))).serve default (.delete ⟨"", "a"⟩)

/-- An engine that marks its step under another name, and whose work takes a third one. -/
def wanderer : Engine Unit where
  steps := [Step.ofOptions "Ready" (rename "c") { marks := true, hook := some (rename "b") }]

theorem quiet_wanderer : wanderer.Quiet where
  steps step hStep := by
    obtain rfl := List.mem_singleton.1 hStep
    exact ⟨fun _ => ⟨_, rfl⟩, by rintro _ ⟨⟩ scene; exact ⟨_, rfl⟩, by rintro _ ⟨⟩⟩
  cleanup _ _ hFinalizer := nomatch hFinalizer

theorem not_strays_wanderer : ¬wanderer.Strays ⟨"", "a"⟩ ⟨"", "c"⟩ := by
  have hStrays {key : Key} (h : wanderer.Strays ⟨"", "a"⟩ key) :
      key = ⟨"", "a"⟩ ∨ key = ⟨"", "b"⟩ := by
    cases h with
    | found => exact .inl rfl
    | cleanup hFinalizer => cases hFinalizer
    | marking hStep _ hHook _ hDone =>
        obtain rfl := List.mem_singleton.1 hStep
        cases hHook
        cases hDone
        exact .inr rfl
  intro h
  rcases hStrays h with hKey | hKey <;> exact absurd hKey (by decide)

/-- Of the two other resources, one is written. -/
theorem get?_run_of_wanderer :
    wanderer.Quiet ∧ neighbours.Reachable ∧ ¬wanderer.Strays ⟨"", "a"⟩ ⟨"", "c"⟩ ∧
      let after := ((wanderer.run default ⟨"", "a"⟩ ()).run default neighbours).2
      after.version = 7 ∧ after.objects.get? ⟨"", "c"⟩ = neighbours.objects.get? ⟨"", "c"⟩ :=
  ⟨quiet_wanderer, neighbours_reachable, not_strays_wanderer, by decide +kernel,
    quiet_wanderer.get?_run neighbours_reachable default () not_strays_wanderer⟩

/-- An engine whose cleanup gives another name to the resource. -/
def impostor : Engine Unit where
  finalizer := some { name := "f", cleanup := some (rename "b") }

theorem quiet_impostor : impostor.Quiet where
  steps _ hStep := nomatch hStep
  cleanup := by
    rintro _ _ ⟨⟩ ⟨⟩ scene
    exact ⟨_, rfl⟩

/-- The other resource is removed in place of the one that is to be deleted. -/
theorem not_elsewhere_of_impostor :
    impostor.Quiet ∧ neighbours.Reachable ∧ (⟨"", "b"⟩ : Key) ≠ ⟨"", "a"⟩ ∧
      let after := ((impostor.run default ⟨"", "a"⟩ ()).run default neighbours).2
      neighbours.contains ⟨"", "b"⟩ = true ∧ after.contains ⟨"", "b"⟩ = false ∧
      after.contains ⟨"", "a"⟩ = true :=
  ⟨quiet_impostor, neighbours_reachable, by decide, by decide +kernel⟩

end Engine

end Reconciliation
