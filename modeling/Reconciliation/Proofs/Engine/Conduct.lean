import Reconciliation.Engine.Basic
import Reconciliation.Proofs.Edit.Stages
import Reconciliation.Proofs.Engine.Recording
import Reconciliation.Proofs.Resource.ReadBack
import Reconciliation.Proofs.Store.Sparing
import Reconciliation.Proofs.Task.Conduct

/-!
The conduct of engines. Whatever keeps to a conduct in the parts of a step that users supply keeps to
it in the whole performance of the step. With gentle steps, nothing that an engine does after the
finalizer changes stored metadata.
-/
namespace Reconciliation

namespace Step

variable {σ γ : Type} {step : Step σ} {asks : Request → Prop}
  {gets : (request : Request) → request.Answer → Prop} {part : Resource → γ}
  {sink : Option (EventSink σ)}

/-- A step whose work and hook leave a part of the resource alone. The callback for failures has
only a copy of it. -/
structure Conducts (asks : Request → Prop) (gets : (request : Request) → request.Answer → Prop)
    (part : Resource → γ) (step : Step σ) : Prop where
  work : step.work.Conducts asks gets part
  hook : ∀ hook, step.hook = some hook → hook.Conducts asks gets part
  onFail : ∀ callback, step.onFail = some callback → callback.Conducts asks gets fun _ => ()

theorem Conducts.runHook (hStep : step.Conducts asks gets part) :
    step.runHook.Conducts asks gets part := by
  unfold Step.runHook
  cases hHook : step.hook with
  | none => exact Task.conducts_pure ()
  | some hook => exact hStep.hook hook hHook

theorem Conducts.attemptWork (hStep : step.Conducts asks gets part) (catches : Bool) :
    (step.attemptWork catches).Conducts asks gets part := by
  unfold Step.attemptWork
  split
  · refine hStep.work.contain.bind fun ended => ?_
    rcases ended with (_ | _) | _ <;> exact Task.conducts_pure _
  · exact hStep.work.attempt

theorem conducts_emit {ε : Type} (condition : Condition) :
    (emit sink condition : Task σ ε Unit).Conducts asks gets part := by
  cases sink with
  | none => exact Task.conducts_pure ()
  | some sink => exact Task.conducts_of_done fun _ => ⟨_, _, rfl, rfl⟩

section

variable (hPart : ∀ f resource, part (Resource.mapStanding f resource) = part resource)
include hPart

theorem conducts_judge (outcome : Except Objection Unit) :
    (step.judge sink outcome).Conducts asks gets part := by
  rcases outcome with (verdict | report) | ⟨⟩
  · have hRest : ∀ condition : Condition, (do
          if !verdict.silent then emit sink condition
          let failure :=
            if condition.isFalse then some (Report.ofMessage verdict.text) else none
          return (condition, { exit := verdict.exit, requeue := verdict.requeue, failure }) :
            Task σ Empty (Condition × Recorded)).Conducts asks gets part := by
      intro condition
      dsimp only
      split
      · exact (conducts_emit condition).bind fun _ => Task.conducts_pure _
      · exact Task.conducts_pure _
    rw [judge]
    dsimp only
    split
    · exact (Task.conducts_modifyResource (hPart _)).bind fun _ =>
        (Task.conducts_orPanic _ _).bind hRest
    · exact (Task.conducts_orPanic _ _).bind hRest
  · exact (Task.conducts_orPanic _ _).bind fun _ =>
      (conducts_emit _).bind fun _ => Task.conducts_pure _
  · exact (Task.conducts_orPanic _ _).bind fun _ => Task.conducts_pure _

theorem Conducts.enter (hStep : step.Conducts asks gets part) (now : Timestamp) (phaseSet : Bool)
    (condition : Condition) : (step.enter now phaseSet condition).Conducts asks gets part := by
  refine Task.conducts_resource.bind fun resource => ?_
  have hShow : (step.showFailure condition).Conducts asks gets part := by
    unfold Step.showFailure
    split
    · cases hCallback : step.onFail with
      | none => exact Task.conducts_pure ()
      | some callback =>
          refine Task.conducts_resource.bind fun copy => ?_
          exact ((hStep.onFail callback hCallback).onCopy copy).bind fun _ =>
            Task.conducts_pure ()
    · exact Task.conducts_pure ()
  dsimp only
  split
  · exact (Task.conducts_modifyResource (hPart _)).bind fun _ =>
      (Task.conducts_modifyResource (hPart _)).bind fun _ => hShow
  · exact (Task.conducts_modifyResource (hPart _)).bind fun _ => hShow

theorem Conducts.settling (hStep : step.Conducts asks gets part) (now : Timestamp)
    (outcome : Except Objection Unit) : (step.settling now sink outcome).Conducts asks gets part :=
  (conducts_judge hPart outcome).bind fun _ =>
    (hStep.enter hPart now _ _).bind fun _ => Task.conducts_pure _

/-- Whatever conduct the parts of a step keep to, its performance keeps to it. -/
theorem Conducts.perform (hStep : step.Conducts asks gets part) (now : Timestamp)
    (catches : Bool) : (step.perform now catches sink).Conducts asks gets part := by
  refine (hStep.attemptWork catches).bind fun outcome => ?_
  rw [record_eq]
  refine (hStep.settling hPart now outcome).bind fun recorded =>
    hStep.runHook.attempt.bind fun hook => ?_
  cases hook <;> exact Task.conducts_pure _

end

/-- A step whose parts write nothing to the store and leave the metadata of the resource alone. -/
def Gentle (step : Step σ) : Prop :=
  step.Conducts (fun request => request.written? = none) (fun _ _ => True) Resource.metadata

end Step

namespace Task

variable {σ ε α : Type}

/-- A task that changes no stored metadata and works on the same resource all the time, given that
the answers it gets are about the resources it asks for. -/
def Steady (task : Task σ ε α) : Prop :=
  task.Conducts Request.SparesMetadata Request.Fits Resource.key

/-- A gentle task works on one resource and changes no stored metadata. -/
theorem Gentle.steady {task : Task σ ε α} (h : task.Gentle) : task.Steady :=
  h.mono (fun _ => Request.sparesMetadata_of_written_eq_none) (fun _ _ _ => trivial)
    fun _ _ => congrArg Metadata.key

/-- A steady task leaves the metadata in the store as they are, and works on the same resource. -/
theorem Steady.exec {task : Task σ ε α} (h : task.Steady) (now : Timestamp) (scene : Scene σ)
    {start store : Store} {key : Key} (hIntact : Store.Intact start store key) :
    (task.exec now scene store).scene.resource.key = scene.resource.key ∧
      Store.Intact start (task.exec now scene store).store key := by
  have hServe : ∀ (request : Request) (store : Store), request.SparesMetadata →
      Store.Intact start store key → request.Fits (request.serve now store).1 ∧
        Store.Intact start (request.serve now store).2 key :=
    fun _ _ hSpares hKept => hKept.serve now hSpares
  exact (h scene).exec hServe hIntact

section

variable {asks : Request → Prop} {good : Key → Prop} {scene : Scene σ}

/-- A request that is answered with a resource under a good key leaves one in hand. -/
theorem renew_abides {request : Task σ WorkError (Except StoreError Resource)}
    (hScene : good scene.resource.key)
    (h : request.AbidesAt asks Request.Fits scene fun result left =>
      left = scene ∧ ∀ resource, result = .ok (.ok resource) → good resource.key) :
    (Edit.renew request).AbidesAt asks Request.Fits scene fun _ left => good left.resource.key := by
  refine h.bind (fun answer left hAnswer => ?_) fun _ _ hStop => hStop.1 ▸ hScene
  obtain ⟨rfl, hGood⟩ := hAnswer
  cases answer with
  | error error => exact .done hScene
  | ok resource => exact .done (hGood resource rfl)

theorem updateStatus_abides (good : Key → Prop) {resource : Resource}
    (hAsks : asks (.updateStatus resource)) (hScene : good scene.resource.key)
    (hResource : good resource.key) :
    (Edit.renew (updateStatus resource)).AbidesAt asks Request.Fits scene
      fun _ left => good left.resource.key := by
  refine renew_abides hScene (.call hAsks fun answer hFits => .done ⟨rfl, fun found hFound => ?_⟩)
  cases hFound
  exact (hFits rfl rfl : found.key = resource.key).symm ▸ hResource

end

end Task

namespace Edit.Stage

variable {σ μ : Type} {edit : Edit σ μ} {base : Base} {value : μ} {scene : Scene σ} {key : Key}

/-- What is left of an edit at a stage makes requests of a kind, and works on the resource with a
key. -/
def Works (asks : Request → Prop) (edit : Edit σ μ) (key : Key) (stage : Stage σ μ) : Prop :=
  (stage.program edit).Abides asks Request.Fits fun ended => ended.2.resource.key = key

section

variable {asks : Request → Prop}

theorem works_ended {result : Except (Stop Empty) (Edited μ)} (h : scene.resource.key = key) :
    (ended result scene).Works asks edit key := by
  rw [Works, program]
  exact .done h

theorem works_conclude {written : Except WorkError Written} (h : scene.resource.key = key) :
    (conclude value written scene).Works asks edit key :=
  works_ended h

theorem works_patchingStatus {written : Written} {target before : Resource}
    (hAsks : asks (.patchStatus target before)) (hTarget : target.key = key)
    (h : scene.resource.key = key) :
    (patchingStatus value written target before scene).Works asks edit key := by
  rw [Works, program]
  refine .call hAsks fun answer hFits => ?_
  cases answer with
  | error error => exact works_conclude h
  | ok resource => exact works_conclude ((hFits rfl rfl).trans hTarget)

variable (hStatus : ∀ target before : Resource, target.key = key →
  asks (.patchStatus target before))
include hStatus

/-- Patching the resource and then its status are requests about the same resource. -/
theorem works_patching {after : Snapshot} (hAsks : asks (.patch scene.resource base.resource))
    (h : scene.resource.key = key) : (patching base value after scene).Works asks edit key := by
  rw [Works, program]
  refine .call hAsks fun answer hFits => ?_
  cases answer with
  | error error => exact works_conclude h
  | ok first =>
      have hFirst : first.key = key := (hFits rfl rfl).trans h
      show (patched base value after scene (.ok first)).Works asks edit key
      unfold patched
      dsimp only
      split
      · exact works_conclude hFirst
      · split
        · exact works_conclude hFirst
        · split
          · exact works_conclude hFirst
          · rename_i hTarget
            obtain ⟨hSame, -⟩ := Resource.of_withStatus_eq_ok hTarget
            have hKey := (congrArg Metadata.key hSame).trans hFirst
            exact works_patchingStatus (hStatus _ _ hKey) hKey hFirst

/-- Once it is known what is due, an edit patches the resource, or its status, or one after the
other. -/
theorem works_due {after : Snapshot} (hAsks : asks (.patch scene.resource base.resource))
    (h : scene.resource.key = key) : (due base value after scene).Works asks edit key := by
  unfold due
  split
  · split
    · exact works_conclude h
    · exact works_patchingStatus (hStatus _ _ h) h h
  · exact works_patching hStatus hAsks h

end

/-- What is left of an edit at a stage changes no stored metadata and works on the resource with a
key. -/
abbrev Steady (edit : Edit σ μ) (key : Key) (stage : Stage σ μ) : Prop :=
  stage.Works Request.SparesMetadata edit key

/-- What is due changes no metadata if none differ. -/
theorem steady_due {after : Snapshot} (hMetadata : scene.resource.metadata = base.resource.metadata)
    (h : scene.resource.key = key) : (due base value after scene).Steady edit key :=
  works_due (fun _ _ _ => trivial) hMetadata h

theorem steady_hooking {left : Program (Except (Stop Empty) Unit × Scene σ)}
    (hLeft : left.Abides (fun request => request.written? = none) (fun _ _ => True)
      fun ended => ended.2.resource.metadata = base.resource.metadata)
    (hBase : base.resource.key = key) : (hooking base value left).Steady edit key := by
  rw [Steady, Works, program]
  refine Program.Abides.bind (hLeft.mono (fun _ => Request.sparesMetadata_of_written_eq_none)
    (fun _ _ _ => trivial) fun _ => id) fun ended hMetadata => ?_
  obtain ⟨result, hooked⟩ := ended
  have hKey : hooked.resource.key = key := (congrArg Metadata.key hMetadata).trans hBase
  cases result with
  | error reason => exact works_ended hKey
  | ok _ =>
      show (Stage.hooked base value (.ok (), hooked)).Steady edit key
      unfold Stage.hooked
      dsimp only
      split
      · exact works_conclude hKey
      · exact steady_due hMetadata hKey

/-- An edit stays steady from the mutation on, if that and the hook are gentle. -/
theorem steady_mutating {left : Program (Except (Stop Empty) μ × Scene σ)}
    (hHook : ∀ hook, edit.onChange = some hook → hook.Gentle)
    (hLeft : left.Abides (fun request => request.written? = none) (fun _ _ => True)
      fun ended => ended.2.resource.metadata = base.resource.metadata)
    (hBase : base.resource.key = key) : (mutating base left).Steady edit key := by
  rw [Steady, Works, program]
  refine Program.Abides.bind (hLeft.mono (fun _ => Request.sparesMetadata_of_written_eq_none)
    (fun _ _ _ => trivial) fun _ => id) fun ended hMetadata => ?_
  obtain ⟨result, left⟩ := ended
  have hKey : left.resource.key = key := (congrArg Metadata.key hMetadata).trans hBase
  show (mutated edit base (result, left)).Steady edit key
  unfold mutated
  split
  · rename_i hEnded
    cases hEnded
    exact works_ended hKey
  · rename_i hEnded
    cases hEnded
    split
    · exact works_conclude hKey
    · split
      · exact works_conclude hKey
      · split
        · exact works_conclude hKey
        · split
          · exact steady_due hMetadata hKey
          · rename_i hook hOnChange
            split
            · exact steady_due hMetadata hKey
            · refine steady_hooking (Program.Abides.mono (hHook hook hOnChange left)
                (fun _ => id) (fun _ _ => id) fun _ hSame => ?_) hBase
              exact hSame.trans hMetadata

end Edit.Stage

/-- An edit that leaves metadata alone changes none in the store. -/
theorem Edit.steady_run {σ μ : Type} {edit : Edit σ μ} (hMutate : edit.mutate.Gentle)
    (hHook : ∀ hook, edit.onChange = some hook → hook.Gentle) : edit.run.Steady := by
  intro scene
  show (edit.run scene).Abides _ _ _
  rw [← program_fetching, Stage.program]
  refine .call trivial fun answer hFits => ?_
  show (Stage.fetched edit scene answer).Steady edit scene.resource.key
  cases answer with
  | error error => exact Stage.works_ended rfl
  | ok resource =>
      have hKey : resource.key = scene.resource.key := hFits rfl rfl
      unfold Stage.fetched
      dsimp only
      split
      · exact Stage.works_ended hKey
      · exact Stage.steady_mutating hHook (hMutate { scene with resource }) hKey

/-- A resource with the record that its finalizer could not be seen to. -/
def Resource.recordUnfinalized (now : Timestamp) (error : WorkError) (resource : Resource) :
    Resource :=
  (resource.setCondition now
    { type := finalizingType, status := .fails, reason := finalizationFailed
      message := Text.cap maxError error.message }).setPhase .finalizationError

namespace Engine

variable {σ : Type} {engine : Engine σ} {now : Timestamp} {step : Step σ}

/-- A step skipper only looks. -/
theorem conducts_skips {γ : Type} {asks : Request → Prop}
    {gets : (request : Request) → request.Answer → Prop} {part : Resource → γ} :
    (engine.skips step).Conducts asks gets part := by
  unfold skips
  split
  · exact Task.conducts_observe _
  · exact Task.conducts_pure false

/-- What a skipper says of a resource, and the state that it leaves; none says to go on. -/
def consult (skipper : Option (Skipper σ)) (resource : Resource) (state : σ) : Bool × σ :=
  skipper.elim (false, state) fun skipper => skipper resource state

/-- A skipper says what it says of the resource in hand, and makes no requests. -/
theorem asks_apply (skipper : Option (Skipper σ)) (scene : Scene σ) :
    let said := consult skipper scene.resource scene.state
    (asks skipper : Task σ WorkError Bool) scene =
      .done (.ok said.1, { scene with state := said.2 }) := by
  cases skipper <;> rfl

theorem exec_asks (skipper : Option (Skipper σ)) (now : Timestamp) (scene : Scene σ)
    (store : Store) : ∃ skipped state,
      (asks skipper).exec now scene store = ⟨.ok skipped, { scene with state }, store⟩ :=
  ⟨_, _, Task.exec_of_run now scene store (by rw [asks_apply]; rfl)⟩

/-- The record of a finalizer that could not be seen to can always be made. -/
theorem recordFinalizing_eq (now : Timestamp) (error : WorkError) :
    (recordFinalizing now error : Task σ Empty Unit) =
      Task.resource >>= fun resource =>
        (Edit.renew (Task.updateStatus (resource.recordUnfinalized now error))).attempt >>=
          fun _ => pure () := by
  have hMade : Condition.make finalizingType .fails finalizationFailed
      (Text.cap maxError error.message) = .ok _ :=
    Condition.make_eq_ok (by decide) (by decide) _ _
  rw [recordFinalizing, hMade]
  rfl

/-- The record of a failure is attempted, and whatever comes of that, the task goes on. -/
theorem exec_recordFinalizing (now : Timestamp) (error : WorkError) (scene : Scene σ)
    (store : Store) : ∃ resource,
      (recordFinalizing now error).exec now scene store =
        ⟨.ok (), { scene with resource },
          (store.updateStatus (scene.resource.recordUnfinalized now error)).2⟩ := by
  rw [recordFinalizing_eq, Task.exec_bind, Task.exec_resource, Execution.andThen_ok,
    Task.exec_bind, Task.exec_attempt, Edit.renew, Task.exec_bind, Task.exec_updateStatus,
    Execution.andThen_ok]
  rcases store.updateStatus _ with ⟨cause | written, last⟩
  · exact ⟨scene.resource, rfl⟩
  · exact ⟨written, rfl⟩

section

variable {asks : Request → Prop} (good : Key → Prop) {scene : Scene σ}
  (hAsks : ∀ resource : Resource, good resource.key → asks (.updateStatus resource))
include hAsks

/-- Marking writes under the key that the hook leaves on the copy. -/
theorem mark_abides (hScene : good scene.resource.key)
    (hHook : ∀ copy : Scene σ, good copy.resource.key →
      step.runHook.AbidesAt asks Request.Fits copy fun _ left => good left.resource.key)
    (now : Timestamp) : (step.mark now).AbidesAt asks Request.Fits scene
      fun _ left => good left.resource.key := by
  unfold Step.mark
  cases step.markCondition with
  | error violation => exact .done hScene
  | ok condition =>
      have hMapped (copy : Scene σ) (hCopy : good copy.resource.key) :
          (step.runHook.mapError .hook : Task σ WorkError Unit).AbidesAt asks Request.Fits copy
            fun _ left => good left.resource.key := by
        refine Program.Abides.bind (hHook copy hCopy) fun ended hEnded => ?_
        obtain ⟨_ | value, left⟩ := ended
        · exact .done hEnded
        · exact .done hEnded
      have hCopy : (Task.onCopy (scene.resource.setCondition now condition)
          (step.runHook.mapError .hook) : Task σ WorkError (Unit × Resource)).AbidesAt
            asks Request.Fits scene fun result left =>
          left.resource = scene.resource ∧ ∀ value, result = .ok value → good value.2.key := by
        refine (hMapped ⟨scene.resource.setCondition now condition, scene.state⟩ hScene).onCopy
          (fun _ _ hKey => ⟨rfl, ?_⟩) fun _ _ _ => ⟨rfl, nofun⟩
        rintro _ ⟨⟩
        exact hKey
      refine .bind_of_done rfl (.bind_of_done rfl (hCopy.bind (fun value left hLeft => ?_)
        fun _ _ hStop => hStop.1.symm ▸ hScene))
      obtain ⟨hSame, hKey⟩ := hLeft
      exact Task.updateStatus_abides good (hAsks _ (hKey value rfl)) (hSame.symm ▸ hScene)
        (hKey value rfl)

/-- A failure of the finalizer is recorded under the key of the resource in hand. -/
theorem recordFinalizing_abides (hScene : good scene.resource.key) (now : Timestamp)
    (error : WorkError) : (recordFinalizing now error : Task σ Empty Unit).AbidesAt asks
      Request.Fits scene fun _ left => good left.resource.key := by
  let failed := scene.resource.recordUnfinalized now error
  have hWrite : ((Edit.renew (Task.updateStatus failed)).attempt : Task σ Empty _).AbidesAt
      asks Request.Fits scene fun _ left => good left.resource.key :=
    (Task.updateStatus_abides good (hAsks failed hScene) hScene hScene).attempt
      (fun _ _ => id) (fun _ _ => id) fun _ _ => id
  rw [recordFinalizing_eq]
  exact .bind_of_done rfl (hWrite.bind (fun _ _ hLeft => .done hLeft) fun _ _ => id)

end

theorem steady_mark (hStep : step.Gentle) (now : Timestamp) : (step.mark now).Steady :=
  fun scene => mark_abides (· = scene.resource.key) (fun _ _ => trivial) rfl (fun copy hCopy =>
    (Task.Gentle.steady hStep.runHook copy).mono fun _ _ hLeft => hLeft.trans hCopy) now

theorem steady_markStep (hStep : step.Gentle) : (markStep step now).Steady := by
  unfold markStep
  split
  · exact (steady_mark hStep now).attempt
  · exact Task.conducts_pure _

/-- Doing a gentle step changes no stored metadata. -/
theorem steady_runStep (hStep : step.Gentle) : (engine.runStep now step).Steady := by
  refine conducts_skips.bind fun skipped => ?_
  split
  · exact Task.conducts_pure _
  · refine (steady_markStep hStep).bind fun marked => ?_
    cases marked with
    | error error => exact Task.conducts_pure _
    | ok _ =>
        have hEdit : (step.edit now engine.config.catchesPanics engine.sink).run.Steady :=
          Edit.steady_run (hStep.perform (fun _ _ => rfl) now _) nofun
        refine hEdit.bind fun edited => ?_
        dsimp only
        split
        · exact Task.conducts_pure _
        · exact Task.conducts_pure _

/-- Doing any number of gentle steps changes no stored metadata. -/
theorem steady_runSteps {steps : List (Step σ)} (hSteps : ∀ step ∈ steps, step.Gentle) :
    (engine.runSteps now steps).Steady := by
  induction steps with
  | nil => exact Task.conducts_pure _
  | cons step rest ih =>
      refine (steady_runStep (hSteps step List.mem_cons_self)).bind fun control => ?_
      cases control with
      | proceed => exact ih fun step hStep => hSteps step (List.mem_cons_of_mem _ hStep)
      | halt requeue => exact Task.conducts_pure requeue

theorem steady_recordFinalizing (now : Timestamp) (error : WorkError) :
    (recordFinalizing now error : Task σ Empty Unit).Steady :=
  fun scene => recordFinalizing_abides (· = scene.resource.key) (fun _ _ => trivial) rfl now error

end Engine

end Reconciliation
