import Reconciliation.Engine.Registration
import Reconciliation.Proofs.Edit.Writes
import Reconciliation.Proofs.Engine.Recording
import Reconciliation.Proofs.Task.Panics

/-!
How an engine passes a step. `Passes` tells the course of one step from what its parts come to, and
`Stops` that of several steps up to the first one that the engine does not get past. Each course is
what the engine does, and if nothing but the work of steps may panic, there is one from wherever the
engine begins. What a step says it has written stands in the store: `Passes.exists_writes`.
-/
namespace Reconciliation

namespace Requeue

theorem after_ne_none (delay : Span) : after delay ≠ none :=
  fun h => Bool.noConfusion (congrArg wanted h)

theorem firstOf_ne_none {requeue : Requeue} (h : requeue ≠ none) (a b : Option Requeue) :
    firstOf [a, b, some requeue] ≠ none := by
  have hSome : requeue.isNone = false := by
    rw [← Bool.not_eq_true, isNone_iff]
    exact h
  have hMember : requeue ∈ [a, b, some requeue].reduceOption :=
    List.mem_filterMap.2 ⟨some requeue, by simp, rfl⟩
  intro hNone
  rw [firstOf] at hNone
  cases hFound : [a, b, some requeue].reduceOption.find? fun requeue => !requeue.isNone with
  | none =>
      have hAll := List.find?_eq_none.1 hFound requeue hMember
      simp [hSome] at hAll
  | some found =>
      rw [hFound] at hNone
      have hWanted := List.find?_some hFound
      rw [Option.getD_some] at hNone
      rw [hNone] at hWanted
      cases hWanted

end Requeue

namespace Edit

variable {σ μ : Type} {edit : Edit σ μ} {now : Timestamp} {scene scene' : Scene σ}
  {store store' : Store}

/-- Where the resource cannot be fetched, no work is done. -/
theorem exec_run_of_fetch_error {error : WorkError}
    (hFetch : fetch.exec now scene store = ⟨.error (.error error), scene', store'⟩) :
    edit.run.exec now scene store =
      ⟨.ok { mutation := none, written := .error error }, scene', store'⟩ := by
  rw [Edit.run, Task.exec_bind, Task.exec_attempt, hFetch]
  rfl

theorem exec_run_of_fetch_ok {scene₁ scene₂ : Scene σ} {store₁ store₂ : Store} {base : Base}
    {value : μ} {written : Except WorkError Written}
    (hFetch : fetch.exec now scene store = ⟨.ok base, scene₁, store₁⟩)
    (hMutate : edit.mutate.exec now scene₁ store₁ = ⟨.ok value, scene₂, store₂⟩)
    (hPersist : ((persist base (edit.aborts value) edit.onChange).attempt :
      Task σ Empty _).exec now scene₂ store₂ = ⟨.ok written, scene', store'⟩) :
    edit.run.exec now scene store =
      ⟨.ok { mutation := some value, written }, scene', store'⟩ := by
  rw [Edit.run, Task.exec_bind, Task.exec_attempt, hFetch]
  simp only [Execution.andThen_ok]
  rw [Task.exec_bind, hMutate, Execution.andThen_ok, Task.exec_bind, hPersist]
  rfl

end Edit

namespace Step

variable {σ : Type} {step : Step σ} {now : Timestamp} {scene scene' : Scene σ}
  {store store' : Store}

/-- The work, the record of its outcome and the hook make up a performance. -/
theorem exec_perform {left settled hooked : Scene σ} {store₁ store₂ : Store}
    {ended : Except (Stop Objection) Unit} {hook : Except Report Unit}
    {sink : Option (EventSink σ)} (hWork : step.work.exec now scene store = ⟨ended, left, store₁⟩)
    (hSettling : (step.settling now sink (outcomeOf ended)).exec now left store₁ =
      ⟨.ok (recordedFor (outcomeOf ended)), settled, store₂⟩)
    (hHook : (step.runHook.attempt : Task σ Empty _).exec now settled store₂ =
      ⟨.ok hook, hooked, store'⟩) :
    (step.perform now true sink).exec now scene store =
      ⟨.ok (recordedAfter (outcomeOf ended) hook), hooked, store'⟩ := by
  rw [perform, Task.exec_bind, exec_attemptWork, hWork, Execution.andThen_ok, record_eq,
    Task.exec_bind, hSettling, Execution.andThen_ok, Task.exec_bind, hHook, Execution.andThen_ok]
  cases hook <;> rfl

end Step

/-- What comes of a step in an invocation. -/
inductive Passage where
  /-- The step skipper leaves the step out. -/
  | skipped
  /-- It could not be said that the step is under way. -/
  | unmarked (error : WorkError)
  /-- The resource could not be fetched for the work. -/
  | unfetched (error : WorkError)
  /-- The work came to `outcome`, the hook to `hook`, and the writing of it all to `written`. -/
  | worked (outcome : Except Objection Unit) (hook : Except Report Unit)
    (written : Except WorkError Written)

namespace Passage

variable {σ : Type}

/-- Whether the step was left out, or was written with no failed condition, no failed hook and no
wish to stop. -/
def isClean (step : Step σ) : Passage → Bool
  | skipped => true
  | unmarked _ | unfetched _ => false
  | worked outcome hook written =>
    written.isOk && !(step.conditionFor outcome).isFalse && hook.isOk &&
      !(Step.recordedFor outcome).exit

/-- What is asked for if the invocation stops at the step: first comes what a verdict asks for, then
what the step does, then what the engine does. -/
def requeue (engine : Engine σ) (step : Step σ) : Passage → Requeue
  | skipped | unmarked _ | unfetched _ => .firstOf [none, step.onFailure, some engine.config.onFailure]
  | worked outcome _ _ => .firstOf
    [(Step.recordedFor outcome).requeue, step.onFailure, some engine.config.onFailure]

/-- An invocation that stops at a step always asks for something, if the engine is set to. -/
theorem requeue_ne_none {engine : Engine σ} (h : engine.config.onFailure ≠ .none) (step : Step σ)
    (passage : Passage) : passage.requeue engine step ≠ .none := by
  cases passage with
  | skipped => exact Requeue.firstOf_ne_none h _ _
  | unmarked error => exact Requeue.firstOf_ne_none h _ _
  | unfetched error => exact Requeue.firstOf_ne_none h _ _
  | worked outcome hook written => exact Requeue.firstOf_ne_none h _ _

def control (engine : Engine σ) (step : Step σ) (passage : Passage) : Control :=
  if passage.isClean step then .proceed else .halt (passage.requeue engine step)

end Passage

namespace Engine

variable {σ : Type} {engine : Engine σ} {now : Timestamp} {step : Step σ}
  {scene scene' : Scene σ} {store store' : Store}

/-- What comes of a step, told from what comes of its parts. -/
inductive Passes (engine : Engine σ) (now : Timestamp) (step : Step σ) (scene : Scene σ)
    (store : Store) : Passage → Scene σ → Store → Prop where
  | skipped {scene' : Scene σ} {store' : Store}
    (hSkip : (engine.skips step).exec now scene store = ⟨.ok true, scene', store'⟩) :
    Passes engine now step scene store .skipped scene' store'
  | unmarked {scene₁ scene' : Scene σ} {store₁ store' : Store} {error : WorkError}
    (hSkip : (engine.skips step).exec now scene store = ⟨.ok false, scene₁, store₁⟩)
    (hMark : (markStep step now).exec now scene₁ store₁ = ⟨.ok (.error error), scene', store'⟩) :
    Passes engine now step scene store (.unmarked error) scene' store'
  | unfetched {scene₁ scene₂ scene' : Scene σ} {store₁ store₂ store' : Store} {error : WorkError}
    (hSkip : (engine.skips step).exec now scene store = ⟨.ok false, scene₁, store₁⟩)
    (hMark : (markStep step now).exec now scene₁ store₁ = ⟨.ok (.ok ()), scene₂, store₂⟩)
    (hFetch : Edit.fetch.exec now scene₂ store₂ = ⟨.error (.error error), scene', store'⟩) :
    Passes engine now step scene store (.unfetched error) scene' store'
  | worked {scene₁ scene₂ scene₃ left settled hooked scene' : Scene σ}
    {store₁ store₂ store₃ store₄ store₅ store₆ store' : Store} {base : Edit.Base}
    {ended : Except (Stop Objection) Unit} {hook : Except Report Unit}
    {written : Except WorkError Written}
    (hSkip : (engine.skips step).exec now scene store = ⟨.ok false, scene₁, store₁⟩)
    (hMark : (markStep step now).exec now scene₁ store₁ = ⟨.ok (.ok ()), scene₂, store₂⟩)
    (hFetch : Edit.fetch.exec now scene₂ store₂ = ⟨.ok base, scene₃, store₃⟩)
    (hWork : step.work.exec now scene₃ store₃ = ⟨ended, left, store₄⟩)
    (hSettling : (step.settling now engine.sink (Step.outcomeOf ended)).exec now left store₄ =
      ⟨.ok (Step.recordedFor (Step.outcomeOf ended)), settled, store₅⟩)
    (hHook : (step.runHook.attempt : Task σ Empty _).exec now settled store₅ =
      ⟨.ok hook, hooked, store₆⟩)
    (hPersist : ((Edit.persist base false none).attempt : Task σ Empty _).exec now hooked store₆ =
      ⟨.ok written, scene', store'⟩) :
    Passes engine now step scene store (.worked (Step.outcomeOf ended) hook written) scene' store'

/-- A step that was written has made the requests that its changes call for since it was fetched,
and the store has granted them all. -/
theorem Passes.exists_writes {outcome : Except Objection Unit} {hook : Except Report Unit}
    {written : Written}
    (h : Passes engine now step scene store (.worked outcome hook (.ok written)) scene' store') :
    ∃ (marked fetched settled hooked : Scene σ) (asked begun shown left : Store) (base : Edit.Base)
        (after : Snapshot) (made : List Request),
      Edit.fetch.exec now marked asked = ⟨.ok base, fetched, begun⟩ ∧
      (step.runHook.attempt : Task σ Empty _).exec now settled shown = ⟨.ok hook, hooked, left⟩ ∧
      hooked.resource.key = base.key ∧ hooked.resource.snapshot = .ok after ∧
      Edit.Writes base hooked.resource after left written made scene'.resource store' := by
  cases h with
  | worked _ _ hFetch _ _ hHook hPersist =>
      obtain ⟨hKey, after, hAfter, hWrites, -⟩ :=
        Edit.ends_persist_ok_iff.1 (Task.ends_attempt_ok_iff.1 ⟨hPersist, rfl⟩)
      exact ⟨_, _, _, _, _, _, _, _, _, after, _, hFetch, hHook, hKey, hAfter, hWrites⟩

/-- There is a failure if the condition fails or the hook does. -/
theorem isSome_failure_recordedAfter (step : Step σ) (outcome : Except Objection Unit)
    (hook : Except Report Unit) :
    (Step.recordedAfter outcome hook).failure.isSome =
      ((step.conditionFor outcome).isFalse || !hook.isOk) := by
  cases hook with
  | error report => simp [Step.recordedAfter, Except.isOk, Except.toBool]
  | ok _ =>
      rcases outcome with (verdict | report) | ⟨⟩
      · simp only [Step.recordedAfter, Step.recordedFor, Step.conditionFor, Condition.isFalse]
        cases verdict.status <;> rfl
      · rfl
      · rfl

theorem requeue_recordedAfter (outcome : Except Objection Unit) (hook : Except Report Unit) :
    (Step.recordedAfter outcome hook).requeue = (Step.recordedFor outcome).requeue := by
  cases hook <;> rfl

theorem exit_recordedAfter (outcome : Except Objection Unit) (hook : Except Report Unit) :
    (Step.recordedAfter outcome hook).exit = (Step.recordedFor outcome).exit := by
  cases hook <;> rfl

/-- The engine goes on as the course of the step calls for. -/
theorem Passes.exec_runStep {passage : Passage} (hCatches : engine.config.catchesPanics = true)
    (h : Passes engine now step scene store passage scene' store') :
    (engine.runStep now step).exec now scene store =
      ⟨.ok (passage.control engine step), scene', store'⟩ := by
  cases h with
  | skipped hSkip =>
      rw [runStep, Task.exec_bind, hSkip]
      rfl
  | unmarked hSkip hMark =>
      rw [runStep, Task.exec_bind, hSkip, Execution.andThen_ok, if_neg Bool.false_ne_true,
        Task.exec_bind, hMark]
      rfl
  | unfetched hSkip hMark hFetch =>
      rw [runStep, Task.exec_bind, hSkip, Execution.andThen_ok, if_neg Bool.false_ne_true,
        Task.exec_bind, hMark, Execution.andThen_ok]
      rw [workStep, Task.exec_bind, Edit.exec_run_of_fetch_error hFetch]
      rfl
  | @worked _ _ _ _ _ _ _ _ _ _ _ _ _ _ _ ended hook written hSkip hMark hFetch hWork hSettling
      hHook hPersist =>
      have hPerform := Step.exec_perform hWork hSettling hHook
      rw [← hCatches] at hPerform
      have hEdit : (step.edit now engine.config.catchesPanics engine.sink).run.exec now _ _ = _ :=
        Edit.exec_run_of_fetch_ok hFetch hPerform hPersist
      rw [runStep, Task.exec_bind, hSkip, Execution.andThen_ok, if_neg Bool.false_ne_true,
        Task.exec_bind, hMark, Execution.andThen_ok]
      rw [workStep, Task.exec_bind, hEdit, Execution.andThen_ok]
      simp only [Option.getD_some, requeue_recordedAfter, exit_recordedAfter,
        isSome_failure_recordedAfter step, Passage.control, Passage.isClean, Passage.requeue,
        haltRequeue]
      cases written with
      | error error => rfl
      | ok written =>
          simp only [Task.exec_pure, Except.isOk, Except.toBool, Bool.true_and]
          cases (step.conditionFor (Step.outcomeOf ended)).isFalse <;>
            cases hook <;> cases (Step.recordedFor (Step.outcomeOf ended)).exit <;> rfl

end Engine

structure Step.Calm {σ : Type} (step : Step σ) : Prop where
  hook : ∀ hook, step.hook = some hook → hook.Calm
  onFail : ∀ callback, step.onFail = some callback → callback.Calm

/-- A step whose hook and callback panic, if they do so, with one of the payloads in question. -/
structure Step.PanicsWithin {σ : Type} (may : Payload → Prop) (step : Step σ) : Prop where
  hook : ∀ hook, step.hook = some hook → hook.PanicsWithin may
  onFail : ∀ callback, step.onFail = some callback → callback.PanicsWithin may

namespace Step

variable {σ : Type} {step : Step σ} {may : Payload → Prop}

theorem calm_iff : step.Calm ↔ step.PanicsWithin fun _ => False :=
  ⟨fun h => ⟨h.hook, h.onFail⟩, fun h => ⟨h.hook, h.onFail⟩⟩

theorem PanicsWithin.runHook (h : step.PanicsWithin may) : step.runHook.PanicsWithin may :=
  Task.composes_panicsWithin.runHook h.hook

theorem PanicsWithin.mark (h : step.PanicsWithin may) (hStep : step.Sound) (now : Timestamp) :
    (step.mark now).PanicsWithin may :=
  Task.composes_panicsWithin.mark hStep h.hook now

theorem PanicsWithin.showFailure (h : step.PanicsWithin may) (condition : Condition) :
    (step.showFailure condition).PanicsWithin may :=
  Task.composes_panicsWithin.showFailure h.onFail condition

/-- Recording an outcome always ends, if the callback does not panic. -/
theorem Calm.exec_settling (h : step.Calm) (hStep : step.Sound) (now : Timestamp)
    (sink : Option (EventSink σ)) (outcome : Except Objection Unit) (scene : Scene σ)
    (store : Store) :
    ∃ scene' store', (step.settling now sink outcome).exec now scene store =
      ⟨.ok (recordedFor outcome), scene', store'⟩ := by
  rw [Step.exec_settling hStep]
  have hShow : (step.showFailure (step.conditionFor outcome)).Calm := (calm_iff.1 h).showFailure _
  obtain ⟨_, scene', store', hShown⟩ :=
    hShow.exec_ok now
      ⟨step.settle now outcome scene.resource, (step.judged sink outcome scene).state⟩ store
  rw [hShown]
  exact ⟨scene', store', rfl⟩

end Step

namespace Engine

variable {σ : Type} {engine : Engine σ} {now : Timestamp}

theorem exec_skips (engine : Engine σ) (step : Step σ) (now : Timestamp) (scene : Scene σ)
    (store : Store) : ∃ skipped scene',
      (engine.skips step).exec now scene store = ⟨.ok skipped, scene', store⟩ := by
  unfold skips
  split
  · exact ⟨_, _, rfl⟩
  · exact ⟨_, _, rfl⟩

theorem exec_markStep {step : Step σ} (hStep : step.Sound) (hCalm : step.Calm) (now : Timestamp)
    (scene : Scene σ) (store : Store) : ∃ result scene' store',
      (markStep step now).exec now scene store = ⟨.ok result, scene', store'⟩ := by
  unfold markStep
  split
  · exact Task.Calm.exec_ok ((Step.calm_iff.1 hCalm).mark hStep now).attempt now scene store
  · exact ⟨_, _, _, rfl⟩

/-- Each step has a course. -/
theorem exists_passes {step : Step σ} (hStep : step.Sound) (hCalm : step.Calm) (scene : Scene σ)
    (store : Store) :
    ∃ passage scene' store', Passes engine now step scene store passage scene' store' := by
  obtain ⟨skipped, scene₁, hSkip⟩ := exec_skips engine step now scene store
  cases skipped with
  | true => exact ⟨_, _, _, .skipped hSkip⟩
  | false =>
      obtain ⟨marked, scene₂, store₂, hMark⟩ := exec_markStep hStep hCalm now scene₁ store
      cases marked with
      | error error => exact ⟨_, _, _, .unmarked hSkip hMark⟩
      | ok _ =>
          have hRunHook : (step.runHook.attempt : Task σ Empty _).Calm :=
            (Step.calm_iff.1 hCalm).runHook.attempt
          rcases Task.Calm.exec_cases Task.composes_panicsWithin.fetch now scene₂ store₂ with
            ⟨base, scene₃, store₃, hFetch⟩ | ⟨error, scene', store', hFetch⟩
          · rcases hWork : step.work.exec now scene₃ store₃ with ⟨ended, left, store₄⟩
            obtain ⟨settled, store₅, hSettling⟩ := hCalm.exec_settling hStep now engine.sink
              (Step.outcomeOf ended) left store₄
            obtain ⟨hook, hooked, store₆, hHook⟩ := hRunHook.exec_ok now settled store₅
            obtain ⟨written, scene', store', hPersist⟩ := Task.Calm.exec_ok
              (Task.composes_panicsWithin.persist base false).attempt now hooked store₆
            exact ⟨_, _, _, .worked hSkip hMark hFetch hWork hSettling hHook hPersist⟩
          · exact ⟨_, _, _, .unfetched hSkip hMark hFetch⟩

/-- The first of several steps that an engine does not get past, if there is one, with what comes of
it. -/
inductive Stops (engine : Engine σ) (now : Timestamp) :
    List (Step σ) → Scene σ → Store → Option (Step σ × Passage) → Prop where
  | finished {scene : Scene σ} {store : Store} : Stops engine now [] scene store none
  | past {step : Step σ} {rest : List (Step σ)} {scene scene' : Scene σ} {store store' : Store}
    {passage : Passage} {stop : Option (Step σ × Passage)}
    (hPasses : Passes engine now step scene store passage scene' store')
    (hClean : passage.isClean step = true) (hRest : Stops engine now rest scene' store' stop) :
    Stops engine now (step :: rest) scene store stop
  | here {step : Step σ} {rest : List (Step σ)} {scene scene' : Scene σ} {store store' : Store}
    {passage : Passage} (hPasses : Passes engine now step scene store passage scene' store')
    (hClean : passage.isClean step = false) :
    Stops engine now (step :: rest) scene store (some (step, passage))

/-- Steps come to what the first one asks for that the engine does not get past. -/
theorem Stops.exec_runSteps {steps : List (Step σ)} {scene : Scene σ} {store : Store}
    {stop : Option (Step σ × Passage)} (hCatches : engine.config.catchesPanics = true)
    (h : Stops engine now steps scene store stop) :
    ∃ scene' store', (engine.runSteps now steps).exec now scene store =
      ⟨.ok (stop.elim .none fun (step, passage) => passage.requeue engine step),
        scene', store'⟩ := by
  induction h with
  | finished => exact ⟨_, _, rfl⟩
  | past hPasses hClean _ ih =>
      obtain ⟨scene', store', hRest⟩ := ih
      refine ⟨scene', store', ?_⟩
      rw [runSteps, Task.exec_bind, hPasses.exec_runStep hCatches, Passage.control, if_pos hClean]
      exact hRest
  | @here _ _ _ scene' _ store' _ hPasses hClean =>
      refine ⟨scene', store', ?_⟩
      rw [runSteps, Task.exec_bind, hPasses.exec_runStep hCatches, Passage.control,
        if_neg (by rw [hClean]; exact Bool.false_ne_true)]
      rfl

/-- There is such a step, or the engine gets past all of them. -/
theorem exists_stops {steps : List (Step σ)} (hSteps : ∀ step ∈ steps, step.Sound)
    (hCalm : ∀ step ∈ steps, step.Calm) (scene : Scene σ) (store : Store) :
    ∃ stop, Stops engine now steps scene store stop := by
  induction steps generalizing scene store with
  | nil => exact ⟨none, .finished⟩
  | cons step rest ih =>
      obtain ⟨passage, scene', store', hPasses⟩ := exists_passes (hSteps step List.mem_cons_self)
        (hCalm step List.mem_cons_self) scene store
      cases hClean : passage.isClean step with
      | true =>
          obtain ⟨stop, hRest⟩ := ih (fun step h => hSteps step (List.mem_cons_of_mem _ h))
            (fun step h => hCalm step (List.mem_cons_of_mem _ h)) scene' store'
          exact ⟨stop, .past hPasses hClean hRest⟩
      | false => exact ⟨_, .here hPasses hClean⟩

end Engine

end Reconciliation
