import Mathlib.Data.List.Basic
import Reconciliation.Engine.Basic
import Reconciliation.Task.Execution

/-!
The visits of an invocation to its steps. An invocation is taken apart at the places where work that
users supply begins: `process_eq` splits it where the steps begin, and `runStep_eq` splits a step
where its work begins. `Engine.itinerary` lists the steps that an invocation comes to, each with what
the ones before have left, and `run_eq_of_getLast?` says that the invocation ends as the last of its
visits does.
-/
namespace Reconciliation

/-- How far an engine gets with a step before its work. -/
inductive Approach where
  /-- The step skipper leaves the step out. -/
  | skipped
  /-- It could not be said that the step is under way. -/
  | unmarked (error : WorkError)
  | unfetched (error : WorkError)
  /-- The work begins on the resource that was fetched. -/
  | begun (base : Edit.Base)

/-- What comes of a step if nothing panics. -/
inductive Fate where
  | skipped
  | unmarked (error : WorkError)
  | unfetched (error : WorkError)
  /-- The work was done and recorded, and the writing of it came to `written`. -/
  | worked (recorded : Recorded) (written : Except WorkError Written)
deriving DecidableEq

namespace Fate

/-- Whether no further step is visited: the step could not be marked or fetched or written, or it
has failed, or asks to stop. -/
def halts : Fate → Bool
  | skipped => false
  | unmarked _ | unfetched _ => true
  | worked recorded written => !written.isOk || recorded.failure.isSome || recorded.exit

/-- What the step itself asks for. -/
def requeue? : Fate → Option Requeue
  | worked recorded _ => recorded.requeue
  | skipped | unmarked _ | unfetched _ => none

end Fate

namespace Engine

variable {σ : Type}

/-- What an engine does with a step before its work. -/
def approach (engine : Engine σ) (now : Timestamp) (step : Step σ) : Task σ Empty Approach := do
  if ← engine.skips step then return .skipped
  match ← markStep step now with
  | .error error => return .unmarked error
  | .ok () =>
    match ← Edit.fetch.attempt with
    | .error error => return .unfetched error
    | .ok base => return .begun base

/-- What an engine does with a step from its work on, if it gets there. -/
def carryOut (engine : Engine σ) (now : Timestamp) (step : Step σ) :
    Approach → Task σ Empty Fate
  | .skipped => return .skipped
  | .unmarked error => return .unmarked error
  | .unfetched error => return .unfetched error
  | .begun base => do
    let recorded ← step.perform now engine.config.catchesPanics engine.sink
    return .worked recorded (← (Edit.persist base false none).attempt)

def visitStep (engine : Engine σ) (now : Timestamp) (step : Step σ) : Task σ Empty Fate := do
  engine.carryOut now step (← engine.approach now step)

def controlAfter (engine : Engine σ) (step : Step σ) (fate : Fate) : Control :=
  if fate.halts then .halt (engine.haltRequeue step fate.requeue?) else .proceed

/-- An engine does a step by going up to its work and on from there. -/
theorem runStep_eq (engine : Engine σ) (now : Timestamp) (step : Step σ) :
    engine.runStep now step = engine.controlAfter step <$> engine.visitStep now step := by
  have hWork : engine.workStep now step =
      engine.controlAfter step <$> (do
        match ← Edit.fetch.attempt with
        | .error error => return .unfetched error
        | .ok base => engine.carryOut now step (.begun base)) := by
    rw [workStep, Edit.run, map_eq_pure_bind, bind_assoc, bind_assoc]
    refine congrArg (Edit.fetch.attempt >>= ·) (funext fun fetched => ?_)
    cases fetched with
    | error error => rfl
    | ok base =>
        simp only [bind_assoc, carryOut, pure_bind]
        refine congrArg (step.perform now engine.config.catchesPanics engine.sink >>= ·)
          (funext fun recorded => congrArg ((Edit.persist base false none).attempt >>= ·)
            (funext fun written => ?_))
        cases written with
        | error error => rfl
        | ok written =>
            simp only [controlAfter, Fate.halts, Fate.requeue?, Except.isOk, Except.toBool,
              Bool.not_true, Bool.false_or, Option.getD_some]
  rw [runStep, visitStep, approach, map_eq_pure_bind, bind_assoc, bind_assoc]
  refine congrArg (engine.skips step >>= ·) (funext fun skipped => ?_)
  cases skipped with
  | true => rfl
  | false =>
      simp only [Bool.false_eq_true, if_false, bind_assoc]
      refine congrArg (markStep step now >>= ·) (funext fun marked => ?_)
      cases marked with
      | error error => rfl
      | ok _ =>
          dsimp only
          rw [hWork, map_eq_pure_bind, bind_assoc, bind_assoc]
          refine congrArg (Edit.fetch.attempt >>= ·) (funext fun fetched => ?_)
          cases fetched <;> rfl

/-- To do steps, an engine looks neither at the steps it has nor at what to do if a resource is gone. -/
theorem runSteps_with (engine : Engine σ) (steps' : List (Step σ))
    (afterDeletion : Option (Key → σ → σ)) (steps : List (Step σ)) (now : Timestamp) :
    ({ engine with steps := steps', afterDeletion } : Engine σ).runSteps now steps =
      engine.runSteps now steps := by
  induction steps with
  | nil => rfl
  | cons step rest ih =>
      rw [runSteps, runSteps, ih]
      rfl

/-- How an invocation that has fetched its resource comes to its steps. -/
inductive Lead where
  /-- The skipper before the finalizer leaves the resource alone. -/
  | passedOver
  /-- The finalizer ends the invocation. -/
  | finalized (requeue : Requeue)
  /-- The skipper after the finalizer leaves the resource alone. -/
  | leftAlone
  | ready
deriving DecidableEq

def lead (engine : Engine σ) (now : Timestamp) : Task σ WorkError Lead := do
  if ← asks engine.preFinalizeSkipper then return .passedOver
  match ← (engine.finalize now).widen with
  | some requeue => return .finalized requeue
  | none => if ← asks engine.skipper then return .leftAlone else return .ready

/-- What an engine does with a resource from the steps on, if it gets there. -/
def follow (engine : Engine σ) (now : Timestamp) : Lead → Task σ WorkError Requeue
  | .passedOver | .leftAlone => return .none
  | .finalized requeue => return requeue
  | .ready => (engine.runSteps now engine.steps).widen

/-- An engine deals with a resource by going up to the steps and on from there. -/
theorem process_eq (engine : Engine σ) (now : Timestamp) :
    engine.process now = engine.lead now >>= engine.follow now := by
  rw [process, lead, bind_assoc]
  refine congrArg (asks engine.preFinalizeSkipper >>= ·) (funext fun passedOver => ?_)
  cases passedOver with
  | true => rfl
  | false =>
      simp only [Bool.false_eq_true, if_false, bind_assoc]
      refine congrArg ((engine.finalize now).widen >>= ·) (funext fun finalized => ?_)
      cases finalized with
      | some requeue => rfl
      | none =>
          dsimp only
          rw [bind_assoc]
          refine congrArg (asks engine.skipper >>= ·) (funext fun leftAlone => ?_)
          cases leftAlone <;> rfl

end Engine

/-- An engine's visit to a step. -/
structure Visit (σ : Type) where
  step : Step σ
  /-- What the steps before have left. -/
  found : Scene σ
  /-- The store that they have left. -/
  store : Store

namespace Visit

variable {σ : Type}

def approached (visit : Visit σ) (engine : Engine σ) (now : Timestamp) :
    Execution σ Empty Approach :=
  (engine.approach now visit.step).exec now visit.found visit.store

def ended (visit : Visit σ) (engine : Engine σ) (now : Timestamp) : Execution σ Empty Fate :=
  (engine.visitStep now visit.step).exec now visit.found visit.store

/-- The work of the step begins at a scene on a store. -/
def Begins (visit : Visit σ) (engine : Engine σ) (now : Timestamp) (scene : Scene σ)
    (store : Store) : Prop :=
  ∃ base, visit.approached engine now = ⟨.ok (.begun base), scene, store⟩

/-- The engine goes on to the next step. -/
def Passes (visit : Visit σ) (engine : Engine σ) (now : Timestamp) : Prop :=
  ∃ fate, (visit.ended engine now).result = .ok fate ∧ fate.halts = false

/-- What is asked for if this is the last visit. -/
def requeue (visit : Visit σ) (engine : Engine σ) (now : Timestamp) :
    Except (Stop Empty) Requeue :=
  (visit.ended engine now).result.map fun fate =>
    if fate.halts then engine.haltRequeue visit.step fate.requeue? else .none

/-- What the step skipper says, going by the condition of the step's type on the resource as the
steps before have left it. -/
def skipping (visit : Visit σ) (engine : Engine σ) : Bool × σ :=
  match engine.stepSkipper with
  | some skipper =>
    skipper visit.step (visit.found.resource.standing.find? visit.step.type) visit.found.state
  | none => (false, visit.found.state)

def asked (visit : Visit σ) (engine : Engine σ) : Scene σ :=
  { visit.found with state := (visit.skipping engine).2 }

variable {visit : Visit σ} {engine : Engine σ} {now : Timestamp}

/-- The step skipper is asked about the resource in hand. -/
theorem exec_skips : (engine.skips visit.step).exec now visit.found visit.store =
    ⟨.ok (visit.skipping engine).1, visit.asked engine, visit.store⟩ := by
  unfold Engine.skips asked skipping
  cases engine.stepSkipper <;> rfl

/-- A step that is left out is not marked, and its resource is not fetched. -/
theorem approached_of_skipping (h : (visit.skipping engine).1 = true) :
    visit.approached engine now = ⟨.ok .skipped, visit.asked engine, visit.store⟩ := by
  rw [approached, Engine.approach, Task.exec_bind, exec_skips, Execution.andThen_ok, h]
  rfl

theorem approached_of_not_skipping (h : (visit.skipping engine).1 = false) :
    visit.approached engine now =
      ((Engine.markStep visit.step now).exec now (visit.asked engine) visit.store).andThen
        fun marked scene store =>
          match marked with
          | .error error => ⟨.ok (.unmarked error), scene, store⟩
          | .ok () => ((Edit.fetch.attempt : Task σ Empty _).exec now scene store).andThen
            fun fetched scene store =>
              match fetched with
              | .error error => ⟨.ok (.unfetched error), scene, store⟩
              | .ok base => ⟨.ok (.begun base), scene, store⟩ := by
  rw [approached, Engine.approach, Task.exec_bind, exec_skips, Execution.andThen_ok, h,
    if_neg Bool.false_ne_true, Task.exec_bind]
  refine congrArg (Execution.andThen _) (funext fun marked => funext fun scene => funext fun store => ?_)
  cases marked with
  | error error => rfl
  | ok _ =>
      dsimp only
      rw [Task.exec_bind]
      refine congrArg (Execution.andThen _) (funext fun fetched => ?_)
      cases fetched <;> rfl

theorem skipping_of_approached {scene : Scene σ} {store : Store}
    (h : visit.approached engine now = ⟨.ok .skipped, scene, store⟩) :
    (visit.skipping engine).1 = true := by
  rw [← Bool.not_eq_false]
  intro hSkips
  rw [approached_of_not_skipping hSkips] at h
  rcases hMark : (Engine.markStep visit.step now).exec now (visit.asked engine) visit.store with
    ⟨_ | _ | _, marked, store₁⟩
  · simp [hMark] at h
  · simp [hMark] at h
  · rcases hFetch : Edit.fetch.exec now marked store₁ with ⟨(_ | _) | _, _, _⟩ <;>
      simp [hMark, hFetch] at h

/-- The work of a step begins once the step skipper has let it pass, it has been marked if that is
wanted, and the resource has been fetched anew. -/
theorem approached_begun_iff {base : Edit.Base} {scene : Scene σ} {store : Store} :
    visit.approached engine now = ⟨.ok (.begun base), scene, store⟩ ↔
      (visit.skipping engine).1 = false ∧ ∃ marked store₁,
        (Engine.markStep visit.step now).exec now (visit.asked engine) visit.store =
          ⟨.ok (.ok ()), marked, store₁⟩ ∧
        Edit.fetch.exec now marked store₁ = ⟨.ok base, scene, store⟩ := by
  cases hSkips : (visit.skipping engine).1 with
  | true =>
      refine ⟨?_, nofun⟩
      intro hBegins
      rw [approached_of_skipping hSkips] at hBegins
      cases hBegins
  | false =>
      rw [approached_of_not_skipping hSkips]
      rcases (Engine.markStep visit.step now).exec now (visit.asked engine) visit.store with
        ⟨_ | _ | _, marked, store₁⟩
      · simp
      · simp
      · rcases hFetch : Edit.fetch.exec now marked store₁ with ⟨(_ | _) | _, _, _⟩ <;> simp [hFetch]

/-- Work begins where the resource was fetched, and nowhere else. -/
theorem begins_iff {scene : Scene σ} {store : Store} :
    visit.Begins engine now scene store ↔
      (visit.skipping engine).1 = false ∧ ∃ marked store₁ base,
        (Engine.markStep visit.step now).exec now (visit.asked engine) visit.store =
          ⟨.ok (.ok ()), marked, store₁⟩ ∧
        Edit.fetch.exec now marked store₁ = ⟨.ok base, scene, store⟩ := by
  constructor
  · rintro ⟨base, hApproached⟩
    obtain ⟨hSkips, marked, store₁, hMark, hFetch⟩ := approached_begun_iff.1 hApproached
    exact ⟨hSkips, marked, store₁, base, hMark, hFetch⟩
  · rintro ⟨hSkips, marked, store₁, base, hMark, hFetch⟩
    exact ⟨base, approached_begun_iff.2 ⟨hSkips, marked, store₁, hMark, hFetch⟩⟩

/-- A visit goes up to the work and on from there. -/
theorem ended_eq (visit : Visit σ) (engine : Engine σ) (now : Timestamp) :
    visit.ended engine now =
      (visit.approached engine now).andThen fun approach =>
        (engine.carryOut now visit.step approach).exec now :=
  Task.exec_bind now visit.found visit.store _ _

/-- From its work on, a step is carried out. -/
theorem Begins.exists_ended {scene : Scene σ} {store : Store}
    (h : visit.Begins engine now scene store) : ∃ base, visit.ended engine now =
      (engine.carryOut now visit.step (.begun base)).exec now scene store := by
  obtain ⟨base, hApproached⟩ := h
  exact ⟨base, by rw [ended_eq, hApproached, Execution.andThen_ok]⟩

/-- The work of a step that was worked on has begun. -/
theorem exists_begun_of_worked {recorded : Recorded} {written : Except WorkError Written}
    (h : (visit.ended engine now).result = .ok (.worked recorded written)) :
    ∃ base scene store, visit.approached engine now = ⟨.ok (.begun base), scene, store⟩ := by
  rw [ended_eq] at h
  rcases hApproached : visit.approached engine now with ⟨reason | approach, scene, store⟩
  · rw [hApproached] at h
    cases h
  · rw [hApproached, Execution.andThen_ok] at h
    cases approach with
    | skipped | unmarked | unfetched => cases h
    | begun base => exact ⟨base, scene, store, rfl⟩

/-- A step whose work does not begin leaves what it has got to. -/
theorem ended_of_not_begins (h : ∀ scene store, ¬visit.Begins engine now scene store) :
    (visit.ended engine now).scene = (visit.approached engine now).scene ∧
      (visit.ended engine now).store = (visit.approached engine now).store := by
  rw [ended_eq]
  rcases hApproached : visit.approached engine now with ⟨reason | approach, scene, store⟩
  · exact ⟨rfl, rfl⟩
  · cases approach with
    | skipped | unmarked | unfetched => exact ⟨rfl, rfl⟩
    | begun base => exact absurd ⟨base, hApproached⟩ (h scene store)

/-- The work of a step that is passed has begun unless the step was left out. -/
theorem exists_begins_iff_of_passes (h : visit.Passes engine now) :
    (∃ scene store, visit.Begins engine now scene store) ↔ (visit.skipping engine).1 = false := by
  constructor
  · rintro ⟨scene, store, hBegins⟩
    exact (begins_iff.1 hBegins).1
  · intro hSkips
    obtain ⟨fate, hFate, hGoes⟩ := h
    rw [ended_eq] at hFate
    rcases hApproached : visit.approached engine now with ⟨_ | approach, scene, store⟩
    · rw [hApproached] at hFate
      cases hFate
    · rw [hApproached, Execution.andThen_ok] at hFate
      cases approach with
      | skipped =>
          rw [skipping_of_approached hApproached] at hSkips
          cases hSkips
      | unmarked error =>
          cases hFate
          cases hGoes
      | unfetched error =>
          cases hFate
          cases hGoes
      | begun base => exact ⟨scene, store, base, hApproached⟩

end Visit

namespace Engine

variable {σ : Type} {engine : Engine σ} {now : Timestamp}

/-- The visits to several steps, up to the first one that the engine does not get past. -/
def visits (engine : Engine σ) (now : Timestamp) :
    List (Step σ) → Scene σ → Store → List (Visit σ)
  | [], _, _ => []
  | step :: rest, scene, store =>
    let visit : Visit σ := ⟨step, scene, store⟩
    visit ::
      match visit.ended engine now with
      | ⟨.ok fate, scene, store⟩ => if fate.halts then [] else engine.visits now rest scene store
      | ⟨.error _, _, _⟩ => []

/-- The visits of an invocation to its steps. -/
def itinerary (engine : Engine σ) (now : Timestamp) (key : Key) (state : σ) (store : Store) :
    List (Visit σ) :=
  match store.get key with
  | (.error _, _) => []
  | (.ok resource, store) =>
    match (engine.lead now).exec now ⟨resource, state⟩ store with
    | ⟨.ok .ready, scene, store⟩ => engine.visits now engine.steps scene store
    | _ => []

/-- Past a step, the engine visits the rest with what that one has left. -/
theorem visits_cons {step : Step σ} {rest : List (Step σ)} {scene scene' : Scene σ}
    {store store' : Store} {fate : Fate}
    (hEnded : (Visit.mk step scene store).ended engine now = ⟨.ok fate, scene', store'⟩)
    (hGoes : fate.halts = false) :
    engine.visits now (step :: rest) scene store =
      ⟨step, scene, store⟩ :: engine.visits now rest scene' store' := by
  simp only [visits, hEnded, hGoes, Bool.false_eq_true, if_false]

/-- One step, and the rest of them if the engine gets past it. -/
theorem visits_cases (engine : Engine σ) (now : Timestamp) (step : Step σ) (rest : List (Step σ))
    (scene : Scene σ) (store : Store) :
    (¬(Visit.mk step scene store).Passes engine now ∧
        engine.visits now (step :: rest) scene store = [⟨step, scene, store⟩]) ∨
      ∃ fate scene' store', fate.halts = false ∧
        (Visit.mk step scene store).ended engine now = ⟨.ok fate, scene', store'⟩ ∧
        engine.visits now (step :: rest) scene store =
          ⟨step, scene, store⟩ :: engine.visits now rest scene' store' := by
  rcases hEnded : (Visit.mk step scene store).ended engine now with ⟨reason | fate, scene', store'⟩
  · left
    refine ⟨?_, by simp only [visits, hEnded]⟩
    rintro ⟨fate, hResult, -⟩
    rw [hEnded] at hResult
    cases hResult
  · cases hHalts : fate.halts with
    | true =>
        left
        refine ⟨?_, by simp only [visits, hEnded, hHalts, if_true]⟩
        rintro ⟨found, hResult, hGoes⟩
        rw [hEnded] at hResult
        cases hResult
        rw [hHalts] at hGoes
        cases hGoes
    | false =>
        exact .inr ⟨fate, scene', store', hHalts, rfl, visits_cons hEnded hHalts⟩

section

variable {steps : List (Step σ)} {scene : Scene σ} {store : Store}

/-- Steps are visited in their order. -/
theorem map_step_visits : (engine.visits now steps scene store).map Visit.step <+: steps := by
  induction steps generalizing scene store with
  | nil => exact List.prefix_refl []
  | cons step rest ih =>
      rcases visits_cases engine now step rest scene store with
        ⟨-, hVisits⟩ | ⟨fate, scene', store', -, -, hVisits⟩
      · rw [hVisits]
        exact ⟨rest, rfl⟩
      · rw [hVisits]
        exact List.cons_prefix_cons.2 ⟨rfl, ih⟩

theorem step_mem_of_mem_visits {visit : Visit σ} (h : visit ∈ engine.visits now steps scene store) :
    visit.step ∈ steps :=
  map_step_visits.subset (List.mem_map_of_mem h)

/-- A visit that is not passed is the last one. -/
theorem getLast?_visits_of_not_passes {visit : Visit σ}
    (h : visit ∈ engine.visits now steps scene store) (hStops : ¬visit.Passes engine now) :
    (engine.visits now steps scene store).getLast? = some visit := by
  induction steps generalizing scene store with
  | nil => cases h
  | cons step rest ih =>
      rcases visits_cases engine now step rest scene store with
        ⟨-, hVisits⟩ | ⟨fate, scene', store', hGoes, hEnded, hVisits⟩
      · rw [hVisits] at h ⊢
        rw [List.mem_singleton.1 h, List.getLast?_singleton]
      · rw [hVisits] at h ⊢
        rcases List.mem_cons.1 h with rfl | hLater
        · exact absurd ⟨fate, by rw [hEnded], hGoes⟩ hStops
        · rw [List.getLast?_cons, ih hLater, Option.getD_some]

/-- What holds of the scene and the store at the first visit, and is kept by the steps that are
passed, holds at all visits. -/
theorem visits_induction (keeps : Scene σ → Store → Prop) (hStart : keeps scene store)
    (hStep : ∀ visit : Visit σ, visit.step ∈ steps → visit.Passes engine now →
      keeps visit.found visit.store →
      keeps (visit.ended engine now).scene (visit.ended engine now).store) :
    ∀ visit ∈ engine.visits now steps scene store, keeps visit.found visit.store := by
  induction steps generalizing scene store with
  | nil => exact fun _ hVisit => absurd hVisit List.not_mem_nil
  | cons step rest ih =>
      intro visit hVisit
      rcases visits_cases engine now step rest scene store with
        ⟨-, hVisits⟩ | ⟨fate, scene', store', hGoes, hEnded, hVisits⟩
      · rw [hVisits] at hVisit
        rw [List.mem_singleton.1 hVisit]
        exact hStart
      · rw [hVisits] at hVisit
        have hNext := hStep ⟨step, scene, store⟩ List.mem_cons_self
          ⟨fate, by rw [hEnded], hGoes⟩ hStart
        rw [hEnded] at hNext
        rcases List.mem_cons.1 hVisit with rfl | hLater
        · exact hStart
        · exact ih hNext (fun visit hMem => hStep visit (List.mem_cons_of_mem _ hMem)) visit hLater

/-- Doing a step is visiting it, and going on or stopping by what comes of that. -/
theorem exec_runStep (step : Step σ) :
    (engine.runStep now step).exec now scene store =
      let ended := (Visit.mk step scene store).ended engine now
      ⟨ended.result.map (engine.controlAfter step), ended.scene, ended.store⟩ := by
  rw [runStep_eq, map_eq_pure_bind, Task.exec_bind, Visit.ended]
  rcases (engine.visitStep now step).exec now scene store with ⟨_ | fate, _, _⟩ <;> rfl

/-- Past a step, the engine does the rest with what that one has left. -/
theorem exec_runSteps_cons {step : Step σ} {rest : List (Step σ)} {scene' : Scene σ} {store' : Store}
    {fate : Fate} (hEnded : (Visit.mk step scene store).ended engine now = ⟨.ok fate, scene', store'⟩)
    (hGoes : fate.halts = false) :
    (engine.runSteps now (step :: rest)).exec now scene store =
      (engine.runSteps now rest).exec now scene' store' := by
  rw [runSteps, Task.exec_bind, exec_runStep]
  simp only [hEnded, Except.map, controlAfter, hGoes, Bool.false_eq_true, if_false,
    Execution.andThen_ok]

/-- A step that the engine does not get past is the last one. -/
theorem exec_runSteps_of_not_passes {step : Step σ} (rest : List (Step σ))
    (hStops : ¬(Visit.mk step scene store).Passes engine now) :
    let visit := Visit.mk step scene store
    (engine.runSteps now (step :: rest)).exec now scene store =
      ⟨visit.requeue engine now, (visit.ended engine now).scene, (visit.ended engine now).store⟩ := by
  intro visit
  rw [runSteps, Task.exec_bind, exec_runStep]
  simp only [visit, Visit.requeue]
  rcases hEnded : (Visit.mk step scene store).ended engine now with ⟨reason | fate, scene', store'⟩
  · rfl
  · have hHalts : fate.halts = true := by
      rw [← Bool.not_eq_false]
      exact fun hGoes => hStops ⟨fate, by rw [hEnded], hGoes⟩
    simp only [Except.map, controlAfter, hHalts, if_true]
    rfl

/-- Steps end as the last visit to them does. -/
theorem exec_runSteps :
    (engine.runSteps now steps).exec now scene store =
      match (engine.visits now steps scene store).getLast? with
      | none => ⟨.ok .none, scene, store⟩
      | some last => ⟨last.requeue engine now, (last.ended engine now).scene,
          (last.ended engine now).store⟩ := by
  induction steps generalizing scene store with
  | nil => rfl
  | cons step rest ih =>
      rcases visits_cases engine now step rest scene store with
        ⟨hStops, hVisits⟩ | ⟨fate, scene', store', hGoes, hEnded, hVisits⟩
      · rw [hVisits, exec_runSteps_of_not_passes rest hStops]
        rfl
      · rw [hVisits, List.getLast?_cons, exec_runSteps_cons hEnded hGoes, ih]
        cases hLast : (engine.visits now rest scene' store').getLast? with
        | none =>
            simp only [Option.getD_none, Visit.requeue, hEnded, Except.map, hGoes,
              Bool.false_eq_true, if_false]
        | some last => rfl

end

variable {key : Key} {state : σ} {store : Store}

/-- An invocation visits no steps, or those that begin where the finalizer and the skippers have led
to. -/
theorem itinerary_cases (engine : Engine σ) (now : Timestamp) (key : Key) (state : σ)
    (store : Store) : engine.itinerary now key state store = [] ∨
      ∃ resource scene store', (store.get key).1 = .ok resource ∧
        (engine.lead now).exec now ⟨resource, state⟩ (store.count .get) =
          ⟨.ok .ready, scene, store'⟩ ∧
        engine.itinerary now key state store = engine.visits now engine.steps scene store' := by
  rcases hGet : store.get key with ⟨error | resource, fetched⟩
  · exact .inl (by simp only [itinerary, hGet])
  · have hFetched : fetched = store.count .get := (congrArg Prod.snd hGet).symm
    subst hFetched
    rcases hLead : (engine.lead now).exec now ⟨resource, state⟩ (store.count .get) with
      ⟨_ | _ | _ | _ | _, scene, store'⟩
    case ok.ready =>
      exact .inr ⟨resource, scene, store', rfl, hLead, by simp only [itinerary, hGet, hLead]⟩
    all_goals exact .inl (by simp only [itinerary, hGet, hLead])

/-- An engine that visits anything has come to its steps. -/
theorem of_mem_itinerary {visit : Visit σ} (h : visit ∈ engine.itinerary now key state store) :
    ∃ resource scene store', (store.get key).1 = .ok resource ∧
      (engine.lead now).exec now ⟨resource, state⟩ (store.count .get) =
        ⟨.ok .ready, scene, store'⟩ ∧
      engine.itinerary now key state store = engine.visits now engine.steps scene store' := by
  rcases itinerary_cases engine now key state store with hNone | hSome
  · rw [hNone] at h
    cases h
  · exact hSome

theorem step_mem_of_mem_itinerary {visit : Visit σ}
    (h : visit ∈ engine.itinerary now key state store) : visit.step ∈ engine.steps := by
  obtain ⟨_, _, _, -, -, hVisits⟩ := of_mem_itinerary h
  exact step_mem_of_mem_visits (hVisits ▸ h)

/-- A step that is not passed is the last one. -/
theorem getLast?_itinerary_of_not_passes {visit : Visit σ}
    (h : visit ∈ engine.itinerary now key state store) (hStops : ¬visit.Passes engine now) :
    (engine.itinerary now key state store).getLast? = some visit := by
  obtain ⟨_, scene, store', -, -, hVisits⟩ := of_mem_itinerary h
  rw [hVisits] at h ⊢
  exact getLast?_visits_of_not_passes h hStops

/-- How an invocation ends that has fetched its resource. -/
theorem run_eq_of_get_ok {resource : Resource} {fetched : Store}
    (hGet : store.get key = (.ok resource, fetched)) :
    let execution := (engine.process now).exec now ⟨resource, state⟩ fetched
    (engine.run now key state).run now store =
      ((execution.result, execution.scene.state), execution.store) := by
  intro execution
  rw [run, Program.run]
  simp only [Request.serve, hGet, Program.run_bind, Program.run_done]
  rfl

/-- How an invocation ends that has come to its steps. -/
theorem run_eq_of_ready {resource : Resource} {fetched store' : Store} {scene : Scene σ}
    (hGet : store.get key = (.ok resource, fetched))
    (hLead : (engine.lead now).exec now ⟨resource, state⟩ fetched = ⟨.ok .ready, scene, store'⟩) :
    let execution := (engine.runSteps now engine.steps).exec now scene store'
    (engine.run now key state).run now store =
      ((execution.result.mapError (Stop.map Empty.elim), execution.scene.state),
        execution.store) := by
  rw [run_eq_of_get_ok hGet, process_eq, Task.exec_bind, hLead, Execution.andThen_ok, follow,
    Task.widen, Task.exec_mapError]

/-- An invocation that visits steps ends as the last visit does. -/
theorem run_eq_of_getLast? {last : Visit σ}
    (hLast : (engine.itinerary now key state store).getLast? = some last) :
    (engine.run now key state).run now store =
      (((last.requeue engine now).mapError (Stop.map Empty.elim),
        (last.ended engine now).scene.state), (last.ended engine now).store) := by
  rcases itinerary_cases engine now key state store with
    hNone | ⟨resource, scene, store', hGet, hLead, hVisits⟩
  · rw [hNone] at hLast
    cases hLast
  · rw [hVisits] at hLast
    rw [run_eq_of_ready (Prod.ext hGet rfl) hLead, exec_runSteps, hLast]

/-- So does one on the resource in hand. -/
theorem exec_runIn_of_getLast? {scene : Scene σ} {last : Visit σ}
    (hLast : (engine.itinerary now scene.resource.key scene.state store).getLast? = some last) :
    (engine.runIn now).exec now scene store =
      ⟨(last.requeue engine now).mapError (Stop.map Empty.elim), (last.ended engine now).scene,
        (last.ended engine now).store⟩ := by
  rcases itinerary_cases engine now scene.resource.key scene.state store with
    hNone | ⟨resource, found, store', hGet, hLead, hVisits⟩
  · rw [hNone] at hLast
    cases hLast
  · have hFetched : (store.get scene.resource.key).2 = store.count .get := rfl
    rw [hVisits] at hLast
    rw [runIn, Task.exec_bind, Task.exec_resource, Execution.andThen_ok, Task.exec_bind,
      Task.exec_get, hGet, hFetched, Execution.andThen_ok, Task.exec_bind, Task.exec_setResource,
      Execution.andThen_ok, process_eq, Task.exec_bind, hLead, Execution.andThen_ok, follow,
      Task.widen, Task.exec_mapError, exec_runSteps, hLast]

end Engine

end Reconciliation
