import Reconciliation.Proofs.Edit.Effect
import Reconciliation.Proofs.Engine.Conduct
import Reconciliation.Proofs.Engine.Passages
import Reconciliation.Proofs.Results

/-!
What an invocation asks for. `Course` tells how an invocation ends from what its parts come to; each
invocation has one, and its result follows from it. Nothing is asked for if there was nothing to do
or everything went well, and something is asked for in every other case.
-/
namespace Reconciliation

inductive Conclusion (σ : Type) where
  /-- The resource could not be fetched. -/
  | unread (error : StoreError)
  | gone
  /-- The skipper before the finalizer leaves the resource alone. -/
  | passedOver
  | unfinalized (error : WorkError)
  | finalized
  /-- The skipper after the finalizer leaves the resource alone. -/
  | leftAlone
  /-- All steps were left out or have gone well. -/
  | completed
  | stopped (step : Step σ) (passage : Passage)

namespace Conclusion

variable {σ : Type}

def IsSettled : Conclusion σ → Prop
  | gone | passedOver | finalized | leftAlone | completed => True
  | unread _ | unfinalized _ | stopped .. => False

def result (engine : Engine σ) : Conclusion σ → Except (Stop WorkError) Requeue
  | unread error => .error (.error (.store error))
  | gone | passedOver | finalized | leftAlone | completed => .ok .none
  | unfinalized _ => .ok engine.config.onFailure
  | stopped step passage => .ok (passage.requeue engine step)

/-- Something is asked for unless there is nothing left to do. -/
theorem result_eq_none_iff {engine : Engine σ} (h : engine.config.onFailure ≠ .none)
    (ending : Conclusion σ) : ending.result engine = .ok .none ↔ ending.IsSettled := by
  cases ending with
  | unread error => exact ⟨nofun, nofun⟩
  | gone => exact ⟨fun _ => trivial, fun _ => rfl⟩
  | passedOver => exact ⟨fun _ => trivial, fun _ => rfl⟩
  | unfinalized error => exact ⟨fun hNone => h (Except.ok.inj hNone), nofun⟩
  | finalized => exact ⟨fun _ => trivial, fun _ => rfl⟩
  | leftAlone => exact ⟨fun _ => trivial, fun _ => rfl⟩
  | completed => exact ⟨fun _ => trivial, fun _ => rfl⟩
  | stopped step passage =>
      exact ⟨fun hNone => passage.requeue_ne_none h step (Except.ok.inj hNone), nofun⟩

/-- How several steps end. -/
def ofStop : Option (Step σ × Passage) → Conclusion σ
  | none => completed
  | some (step, passage) => stopped step passage

end Conclusion

namespace Task.Composes

variable {σ : Type} {holds : ∀ {ε α : Type}, Task σ ε α → Prop} {engine : Engine σ}
  {step : Step σ}

theorem markStep (h : Composes @holds) (hStep : step.Sound)
    (hHook : ∀ hook, step.hook = some hook → holds hook) (now : Timestamp) :
    holds (Engine.markStep step now) := by
  unfold Engine.markStep
  split
  · exact h.attempt (h.mark hStep hHook now)
  · exact h.pure _

theorem finalize (h : Composes @holds) (hCleanup : ∀ finalizer, engine.finalizer = some finalizer →
      ∀ cleanup, finalizer.cleanup = some cleanup → holds cleanup) (now : Timestamp) :
    holds (engine.finalize now) := by
  have hRecord (error : WorkError) : holds (Engine.recordFinalizing now error : Task σ Empty Unit) := by
    rw [Engine.recordFinalizing_eq]
    exact h.bind (h.plain plain_resource) fun _ =>
      h.bind (h.attempt (h.renew (h.ask _))) fun _ => h.pure ()
  unfold Engine.finalize
  cases hFinalizer : engine.finalizer with
  | none => exact h.pure none
  | some finalizer =>
      refine h.bind (h.attempt (h.enforce (hCleanup finalizer hFinalizer))) fun ended => ?_
      rcases ended with error | _ | _
      · exact h.bind (hRecord error) fun _ => h.pure _
      · exact h.pure none
      · exact h.pure _

end Task.Composes

namespace Engine

variable {σ : Type} {engine : Engine σ} {now : Timestamp} {scene : Scene σ} {store : Store}

/-- The finalizer, if there is one, is on a resource that is not being deleted. -/
inductive Holds (engine : Engine σ) (now : Timestamp) (scene : Scene σ) (store : Store) :
    Scene σ → Store → Prop where
  | free (hFinalizer : engine.finalizer = none) : Holds engine now scene store scene store
  | held {scene' : Scene σ} {store' : Store} {finalizer : Finalizer σ}
    (hFinalizer : engine.finalizer = some finalizer)
    (hEnforce : finalizer.enforce.exec now scene store = ⟨.ok false, scene', store'⟩) :
    Holds engine now scene store scene' store'

/-- How an invocation ends that has fetched its resource. -/
inductive Processes (engine : Engine σ) (now : Timestamp) (scene : Scene σ) (store : Store) :
    Conclusion σ → Prop where
  | passedOver {scene₁ : Scene σ}
    (hPre : (asks engine.preFinalizeSkipper).exec now scene store = ⟨.ok true, scene₁, store⟩) :
    Processes engine now scene store .passedOver
  | unfinalized {scene₁ scene₂ : Scene σ} {store₂ : Store} {finalizer : Finalizer σ}
    {error : WorkError}
    (hPre : (asks engine.preFinalizeSkipper).exec now scene store = ⟨.ok false, scene₁, store⟩)
    (hFinalizer : engine.finalizer = some finalizer)
    (hEnforce : finalizer.enforce.exec now scene₁ store =
      ⟨.error (.error error), scene₂, store₂⟩) :
    Processes engine now scene store (.unfinalized error)
  | finalized {scene₁ scene₂ : Scene σ} {store₂ : Store} {finalizer : Finalizer σ}
    (hPre : (asks engine.preFinalizeSkipper).exec now scene store = ⟨.ok false, scene₁, store⟩)
    (hFinalizer : engine.finalizer = some finalizer)
    (hEnforce : finalizer.enforce.exec now scene₁ store = ⟨.ok true, scene₂, store₂⟩) :
    Processes engine now scene store .finalized
  | leftAlone {scene₁ scene₂ scene₃ : Scene σ} {store₂ : Store}
    (hPre : (asks engine.preFinalizeSkipper).exec now scene store = ⟨.ok false, scene₁, store⟩)
    (hHeld : engine.Holds now scene₁ store scene₂ store₂)
    (hSkipper : (asks engine.skipper).exec now scene₂ store₂ = ⟨.ok true, scene₃, store₂⟩) :
    Processes engine now scene store .leftAlone
  | stepped {scene₁ scene₂ scene₃ : Scene σ} {store₂ : Store} {stop : Option (Step σ × Passage)}
    (hPre : (asks engine.preFinalizeSkipper).exec now scene store = ⟨.ok false, scene₁, store⟩)
    (hHeld : engine.Holds now scene₁ store scene₂ store₂)
    (hSkipper : (asks engine.skipper).exec now scene₂ store₂ = ⟨.ok false, scene₃, store₂⟩)
    (hStops : Stops engine now engine.steps scene₃ store₂ stop) :
    Processes engine now scene store (.ofStop stop)

/-- How an invocation on the resource under a key ends. -/
inductive Course (engine : Engine σ) (now : Timestamp) (key : Key) (state : σ) (store : Store) :
    Conclusion σ → Prop where
  | unread {error : StoreError} (hGet : (store.get key).1 = .error error)
    (hFound : error.isNotFound = false) : Course engine now key state store (.unread error)
  | gone {error : StoreError} (hGet : (store.get key).1 = .error error)
    (hGone : error.isNotFound = true) : Course engine now key state store .gone
  | fetched {resource : Resource} {ending : Conclusion σ} (hGet : (store.get key).1 = .ok resource)
    (hProcesses : Processes engine now ⟨resource, state⟩ (store.get key).2 ending) :
    Course engine now key state store ending

/-- An engine whose finalizer, hooks and callbacks do not panic. -/
structure Calm (engine : Engine σ) : Prop where
  steps : ∀ step ∈ engine.steps, step.Calm
  cleanup : ∀ finalizer, engine.finalizer = some finalizer →
    ∀ cleanup, finalizer.cleanup = some cleanup → cleanup.Calm

/-- A step that could be registered can make its conditions. -/
theorem register_sound {registration : Registration σ} {registered : Engine σ}
    (hSteps : ∀ step ∈ engine.steps, step.Sound)
    (h : engine.register registration = .ok registered) : ∀ step ∈ registered.steps, step.Sound := by
  cases registration with
  | config | onFailure | sink =>
      cases h
      exact hSteps
  | skipper | preFinalizeSkipper | stepSkipper | afterDeletion =>
      obtain ⟨_, _, hReturn⟩ := Except.bind_eq_ok_iff.1 h
      cases hReturn
      exact hSteps
  | finalizer =>
      obtain ⟨_, _, hReturn⟩ := Except.bind_eq_ok_iff.1 h
      dsimp only at hReturn
      split at hReturn
      · cases hReturn
      · cases hReturn
        exact hSteps
  | step type work options =>
      obtain ⟨made, hMade, hReturn⟩ := Except.bind_eq_ok_iff.1 h
      cases hReturn
      intro step hStep
      rcases List.mem_append.1 hStep with hOld | hNew
      · exact hSteps step hOld
      · rw [List.mem_singleton.1 hNew]
        exact (Step.of_make_eq_ok hMade).2

/-- The steps of an engine that could be built have conditions that can be made. -/
theorem build_sound {registrations : List (Registration σ)}
    (h : build registrations = .ok engine) : ∀ step ∈ engine.steps, step.Sound := by
  have hFold : ∀ first : Engine σ, (∀ step ∈ first.steps, step.Sound) →
      registrations.foldlM register first = .ok engine → ∀ step ∈ engine.steps, step.Sound := by
    clear h
    induction registrations with
    | nil =>
        intro first hFirst h
        cases h
        exact hFirst
    | cons registration rest ih =>
        intro first hFirst h
        rw [List.foldlM_cons] at h
        obtain ⟨registered, hRegistered, hRest⟩ := Except.bind_eq_ok_iff.1 h
        exact ih registered (register_sound hFirst hRegistered) hRest
  exact hFold {} nofun h

/-- Of a finalizer, nothing but the cleanup panics. -/
theorem panicsWithin_enforce {may : Payload → Prop} {finalizer : Finalizer σ}
    (h : ∀ cleanup, finalizer.cleanup = some cleanup → cleanup.PanicsWithin may) :
    finalizer.enforce.PanicsWithin may :=
  Task.composes_panicsWithin.enforce h

/-- Each invocation that has fetched its resource has a course. -/
theorem exists_processes (hSteps : ∀ step ∈ engine.steps, step.Sound) (hCalm : engine.Calm)
    (scene : Scene σ) (store : Store) : ∃ ending, Processes engine now scene store ending := by
  obtain ⟨passedOver, state, hPre⟩ := exec_asks engine.preFinalizeSkipper now scene store
  cases passedOver with
  | true => exact ⟨_, .passedOver hPre⟩
  | false =>
      have hFurther : ∀ {scene₂ store₂},
          engine.Holds now { scene with state } store scene₂ store₂ →
          ∃ ending, Processes engine now scene store ending := by
        intro scene₂ store₂ hHeld
        obtain ⟨leftAlone, _, hSkipper⟩ := exec_asks engine.skipper now scene₂ store₂
        cases leftAlone with
        | true => exact ⟨_, .leftAlone hPre hHeld hSkipper⟩
        | false =>
            obtain ⟨stop, hStops⟩ := exists_stops hSteps hCalm.steps _ store₂
            exact ⟨_, .stepped hPre hHeld hSkipper hStops⟩
      cases hFinalizer : engine.finalizer with
      | none => exact hFurther (.free hFinalizer)
      | some finalizer =>
          have hEnforces : finalizer.enforce.Calm :=
            panicsWithin_enforce (hCalm.cleanup finalizer hFinalizer)
          rcases hEnforces.exec_cases now { scene with state } store with
            ⟨_ | _, scene₂, store₂, hEnforce⟩ | ⟨error, scene₂, store₂, hEnforce⟩
          · exact hFurther (.held hFinalizer hEnforce)
          · exact ⟨_, .finalized hPre hFinalizer hEnforce⟩
          · exact ⟨_, .unfinalized hPre hFinalizer hEnforce⟩

/-- An invocation goes on where the finalizer holds. -/
theorem Holds.exec_finalize {scene' : Scene σ} {store' : Store}
    (h : engine.Holds now scene store scene' store') :
    (engine.finalize now).exec now scene store = ⟨.ok none, scene', store'⟩ := by
  cases h with
  | free hFinalizer =>
      rw [finalize, hFinalizer]
      rfl
  | held hFinalizer hEnforce =>
      rw [finalize, hFinalizer]
      simp only [Task.exec_bind, Task.exec_attempt, hEnforce, Execution.andThen_ok, Task.exec_pure]

theorem exec_finalize_of_error {scene' : Scene σ} {store' : Store} {finalizer : Finalizer σ}
    {error : WorkError} (hFinalizer : engine.finalizer = some finalizer)
    (hEnforce : finalizer.enforce.exec now scene store = ⟨.error (.error error), scene', store'⟩) :
    ∃ resource, (engine.finalize now).exec now scene store =
      ⟨.ok (some engine.config.onFailure), { scene' with resource },
        (store'.updateStatus (scene'.resource.recordUnfinalized now error)).2⟩ := by
  obtain ⟨resource, hRecord⟩ := exec_recordFinalizing now error scene' store'
  refine ⟨resource, ?_⟩
  rw [finalize, hFinalizer]
  simp only [Task.exec_bind, Task.exec_attempt, hEnforce, hRecord, Execution.andThen_ok,
    Task.exec_pure]

theorem exec_finalize_of_deleted {scene' : Scene σ} {store' : Store} {finalizer : Finalizer σ}
    (hFinalizer : engine.finalizer = some finalizer)
    (hEnforce : finalizer.enforce.exec now scene store = ⟨.ok true, scene', store'⟩) :
    (engine.finalize now).exec now scene store = ⟨.ok (some .none), scene', store'⟩ := by
  rw [finalize, hFinalizer]
  simp only [Task.exec_bind, Task.exec_attempt, hEnforce, Execution.andThen_ok, Task.exec_pure]

def afterFinalizer (engine : Engine σ) (now : Timestamp) :
    Option Requeue → Task σ WorkError Requeue
  | some requeue => pure requeue
  | none => do
    if ← asks engine.skipper then return .none
    (engine.runSteps now engine.steps).widen

/-- What comes after the finalizer is decided by what seeing to it has come to. -/
theorem exec_process_of_finalize {scene₁ scene₂ : Scene σ} {store₂ : Store}
    {ended : Option Requeue}
    (hPre : (asks engine.preFinalizeSkipper).exec now scene store = ⟨.ok false, scene₁, store⟩)
    (hFinalize : (engine.finalize now).exec now scene₁ store = ⟨.ok ended, scene₂, store₂⟩) :
    (engine.process now).exec now scene store =
      (engine.afterFinalizer now ended).exec now scene₂ store₂ := by
  rw [process, Task.exec_bind, hPre, Execution.andThen_ok, if_neg Bool.false_ne_true,
    Task.exec_bind, Task.widen, Task.exec_mapError, hFinalize]
  cases ended <;> rfl

/-- An invocation asks for what its course calls for. -/
theorem Processes.exec_process {ending : Conclusion σ} (hCatches : engine.config.catchesPanics = true)
    (h : Processes engine now scene store ending) :
    ∃ scene' store', (engine.process now).exec now scene store =
      ⟨ending.result engine, scene', store'⟩ := by
  cases h with
  | passedOver hPre =>
      rw [process, Task.exec_bind, hPre]
      exact ⟨_, _, rfl⟩
  | unfinalized hPre hFinalizer hEnforce =>
      obtain ⟨resource, hFinalize⟩ := exec_finalize_of_error hFinalizer hEnforce
      rw [exec_process_of_finalize hPre hFinalize]
      exact ⟨_, _, rfl⟩
  | finalized hPre hFinalizer hEnforce =>
      rw [exec_process_of_finalize hPre (exec_finalize_of_deleted hFinalizer hEnforce)]
      exact ⟨_, _, rfl⟩
  | leftAlone hPre hHeld hSkipper =>
      rw [exec_process_of_finalize hPre hHeld.exec_finalize, afterFinalizer, Task.exec_bind,
        hSkipper]
      exact ⟨_, _, rfl⟩
  | @stepped _ _ _ _ stop hPre hHeld hSkipper hStops =>
      obtain ⟨scene', store', hRun⟩ := hStops.exec_runSteps hCatches
      refine ⟨scene', store', ?_⟩
      rw [exec_process_of_finalize hPre hHeld.exec_finalize, afterFinalizer, Task.exec_bind,
        hSkipper, Execution.andThen_ok, if_neg Bool.false_ne_true, Task.widen, Task.exec_mapError,
        hRun]
      cases stop <;> rfl

/-- The answer to the first request of an invocation decides whether it ends with an error. -/
theorem run_of_get (engine : Engine σ) (now : Timestamp) (key : Key) (state : σ) (store : Store) :
    ((engine.run now key state).run now store).1.1 =
      match (store.get key).1 with
      | .ok resource =>
        ((engine.process now).exec now ⟨resource, state⟩ (store.get key).2).result
      | .error error =>
        if error.isNotFound then .ok .none else .error (.error (.store error)) := by
  rcases hGet : store.get key with ⟨answer, last⟩
  simp only [run, Program.run, Request.serve, hGet]
  cases answer with
  | ok resource => simp only [Program.run_bind, Program.run_done, Task.exec]
  | error error => cases error <;> rfl

/-- An invocation that catches panics ends as its course says. -/
theorem Course.run_eq {ending : Conclusion σ} {key : Key} {state : σ}
    (hCatches : engine.config.catchesPanics = true) (h : Course engine now key state store ending) :
    ((engine.run now key state).run now store).1.1 = ending.result engine := by
  rw [run_of_get]
  cases h with
  | unread hGet hFound =>
      rw [hGet]
      exact if_neg (by rw [hFound]; exact Bool.false_ne_true)
  | gone hGet hGone =>
      rw [hGet]
      exact if_pos hGone
  | fetched hGet hProcesses =>
      obtain ⟨_, _, hProcess⟩ := hProcesses.exec_process hCatches
      rw [hGet]
      exact congrArg Execution.result hProcess

/-- Every invocation has a course, unless a cleanup, a hook or a callback panics. -/
theorem exists_course (hSteps : ∀ step ∈ engine.steps, step.Sound) (hCalm : engine.Calm)
    (now : Timestamp) (key : Key) (state : σ) (store : Store) :
    ∃ ending, engine.Course now key state store ending := by
  cases hGet : (store.get key).1 with
  | ok resource =>
      obtain ⟨ending, hProcesses⟩ :=
        exists_processes hSteps hCalm ⟨resource, state⟩ (store.get key).2
      exact ⟨ending, .fetched hGet hProcesses⟩
  | error error =>
      cases hGone : error.isNotFound with
      | true => exact ⟨_, .gone hGet hGone⟩
      | false => exact ⟨_, .unread hGet hGone⟩

/-- With its resource at hand, an invocation always ends with a result. -/
theorem Processes.exists_result {ending : Conclusion σ} (h : Processes engine now scene store ending) :
    ∃ requeue, ending.result engine = .ok requeue := by
  cases h with
  | @stepped _ _ _ _ stop => cases stop <;> exact ⟨_, rfl⟩
  | passedOver | unfinalized | finalized | leftAlone => exact ⟨_, rfl⟩

/-- The only course of an invocation that ends with an error. -/
theorem Course.result_eq_error_iff {ending : Conclusion σ} {key : Key} {state : σ}
    (h : Course engine now key state store ending) :
    (∃ reason, ending.result engine = .error reason) ↔
      ∃ error, (store.get key).1 = .error error ∧ error.isNotFound = false := by
  cases h with
  | unread hGet hFound => exact ⟨fun _ => ⟨_, hGet, hFound⟩, fun _ => ⟨_, rfl⟩⟩
  | gone hGet hGone =>
      refine ⟨nofun, fun ⟨error, hError, hFound⟩ => ?_⟩
      rw [hGet] at hError
      cases hError
      rw [hGone] at hFound
      cases hFound
  | fetched hGet hProcesses =>
      obtain ⟨requeue, hResult⟩ := hProcesses.exists_result
      rw [hResult]
      refine ⟨nofun, fun ⟨error, hError, _⟩ => ?_⟩
      rw [hGet] at hError
      cases hError

end Engine

namespace Config

/-- Settings that are read from variables always ask for something after a failure. -/
theorem onFailure_ne_none {catches seconds : Option String} {config : Config}
    (h : ofVariables catches seconds = .ok config) : config.onFailure ≠ .none := by
  unfold ofVariables at h
  cases seconds with
  | none =>
      cases catches with
      | none =>
          cases h
          exact Requeue.after_ne_none _
      | some value =>
          obtain ⟨_, _, hReturn⟩ := Except.bind_eq_ok_iff.1 h
          cases hReturn
          exact Requeue.after_ne_none _
  | some value =>
      have hRead : ∀ first : Config, (do
            let seconds ← readVariable secondsVariable readSeconds value
            return { first with onFailure := .after (.ofSeconds seconds) } :
              Except ConfigError Config) = .ok config → config.onFailure ≠ .none := by
        intro first hFirst
        obtain ⟨_, _, hReturn⟩ := Except.bind_eq_ok_iff.1 hFirst
        cases hReturn
        exact Requeue.after_ne_none _
      cases catches with
      | none =>
          dsimp only at h
          rw [pure_bind] at h
          exact hRead {} h
      | some value =>
          obtain ⟨catchesPanics, _, hRest⟩ := Except.bind_eq_ok_iff.1 h
          rw [pure_bind] at hRest
          exact hRead { catchesPanics } hRest

end Config

namespace Engine

variable {σ : Type} {engine : Engine σ}

/-- The result of an invocation, whatever the store refuses and whatever the work of the steps does:
there is an error if and only if the resource cannot be fetched, and else what the course of the
invocation calls for, which is nothing if and only if there is nothing left to do. -/
theorem run_result_of_build {registrations : List (Registration σ)}
    (hBuild : build registrations = .ok engine) (hCatches : engine.config.catchesPanics = true)
    (hDefault : engine.config.onFailure ≠ .none) (hCalm : engine.Calm) (now : Timestamp) (key : Key)
    (state : σ) (store : Store) :
    let result := ((engine.run now key state).run now store).1.1
    ((∃ reason, result = .error reason) ↔
      ∃ error, (store.get key).1 = .error error ∧ error.isNotFound = false) ∧
    (∃ ending, engine.Course now key state store ending) ∧
    (∀ ending, engine.Course now key state store ending →
      result = ending.result engine ∧ (result = .ok .none ↔ ending.IsSettled)) ∧
    ∀ catches seconds config, Config.ofVariables catches seconds = .ok config →
      config.onFailure ≠ .none := by
  intro result
  obtain ⟨ending, hCourse⟩ := exists_course (build_sound hBuild) hCalm now key state store
  refine ⟨?_, ⟨ending, hCourse⟩, fun ending hCourse => ?_, fun _ _ _ => Config.onFailure_ne_none⟩
  · rw [show result = _ from hCourse.run_eq hCatches]
    exact hCourse.result_eq_error_iff
  · have hResult : result = ending.result engine := hCourse.run_eq hCatches
    rw [hResult]
    exact ⟨rfl, Conclusion.result_eq_none_iff hDefault ending⟩

def panicking : List (Registration Nat) :=
  [.onFailure (.after (.ofSeconds 5)), .finalizer { name := "f" },
    .step "Ready" (Task.panic (.text "no")) { marks := true, hook := some Edit.countingHook.widen }]

theorem run_result_of_panicking :
    ∃ engine : Engine Nat, build panicking = .ok engine ∧ engine.config.catchesPanics = true ∧
      engine.config.onFailure ≠ .none ∧ engine.Calm ∧
      let result := ((engine.run default Edit.plainResource.key 0).run default Edit.plainStore).1.1
      result.toOption = some (.after (.ofSeconds 5)) ∧
      ((∃ reason, result = .error reason) ↔
        ∃ error, (Edit.plainStore.get Edit.plainResource.key).1 = .error error ∧
          error.isNotFound = false) ∧
      (∃ ending, engine.Course default Edit.plainResource.key 0 Edit.plainStore ending) ∧
      (∀ ending, engine.Course default Edit.plainResource.key 0 Edit.plainStore ending →
        result = ending.result engine ∧ (result = .ok .none ↔ ending.IsSettled)) ∧
      ∀ catches seconds config, Config.ofVariables catches seconds = .ok config →
        config.onFailure ≠ .none := by
  obtain ⟨engine, hBuild, hCatches, hDefault, hCalm, hResult⟩ : ∃ engine : Engine Nat,
      build panicking = .ok engine ∧ engine.config.catchesPanics = true ∧
      engine.config.onFailure ≠ .none ∧ engine.Calm ∧
      ((engine.run default Edit.plainResource.key 0).run default Edit.plainStore).1.1.toOption =
        some (.after (.ofSeconds 5)) := by
    refine ⟨_, rfl, rfl, Requeue.after_ne_none _, ⟨?_, ?_⟩, by decide +kernel⟩
    · intro step hStep
      rw [List.mem_singleton.1 hStep]
      refine ⟨?_, by rintro _ ⟨⟩⟩
      rintro _ ⟨⟩ now scene store payload h
      cases h
    · rintro _ ⟨⟩ _ ⟨⟩
  exact ⟨engine, hBuild, hCatches, hDefault, hCalm, hResult,
    run_result_of_build hBuild hCatches hDefault hCalm default _ 0 _⟩

end Engine

end Reconciliation
