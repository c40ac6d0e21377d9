import Mathlib.Data.List.Forall2
import Reconciliation.Proofs.Engine.Bookkeeping
import Reconciliation.Proofs.Engine.Fates

/-!
Panics of the work of a step. An engine that catches them cannot be told from one whose work does
the same and fails, with the words of the panic, where this one panics: what was done until then is
recorded as failed and written, and no further step is done. An engine that does not catch them
passes the panic on, and asks the store for nothing after it.
-/
namespace Reconciliation

variable {σ ε α : Type}

namespace Task

/-- Work that reports a failure where the given one panics, and does the same otherwise. -/
def confess (work : Task σ Objection Unit) : Task σ Objection Unit :=
  fun scene => (work scene).bind fun
    | (.error (.panic payload), scene) => .done (.error (.error (.failure payload.report)), scene)
    | ended => .done ended

/-- Who takes panics for values and makes failures of them does not see the difference. -/
theorem confess_contain_bind (work : Task σ Objection Unit)
    (f : Except (Stop Objection) Unit → Task σ ε α)
    (h : ∀ payload, f (.error (.panic payload)) = f (.error (.error (.failure payload.report)))) :
    (work.confess.contain >>= f) = work.contain >>= f := by
  funext scene
  show (((work scene).bind _).bind _).bind _ = ((work scene).bind _).bind _
  rw [Program.bind_bind, Program.bind_bind, Program.bind_bind]
  refine congrArg (work scene).bind (funext fun ⟨result, left⟩ => ?_)
  rcases result with (payload | objection) | ⟨⟩
  · exact (congrFun (h payload) left).symm
  · rfl
  · rfl

end Task

namespace Step

variable {step : Step σ} {now : Timestamp}

/-- The step with work that reports a failure in place of a panic. -/
def confess (step : Step σ) : Step σ :=
  { step with work := step.work.confess }

theorem attemptWork_confess (step : Step σ) :
    step.confess.attemptWork true = step.attemptWork true :=
  Task.confess_contain_bind step.work _ fun _ => rfl

/-- An engine that catches panics performs a step and its confession in the same way. -/
theorem perform_confess (step : Step σ) (now : Timestamp) (sink : Option (EventSink σ)) :
    step.confess.perform now true sink = step.perform now true sink := by
  rw [perform, perform, attemptWork_confess]
  rfl

end Step

namespace Engine

variable {engine : Engine σ} {step step' : Step σ} {steps : List (Step σ)} {now : Timestamp}

/-- A step skipper that does not look at the work of the steps. -/
def SkipsBlindly (engine : Engine σ) : Prop :=
  ∀ skipper, engine.stepSkipper = some skipper →
    ∀ (step : Step σ) (work : Task σ Objection Unit), skipper { step with work } = skipper step

/-- The step itself, or the step with work that reports a failure in place of a panic. -/
def Confesses (step step' : Step σ) : Prop :=
  step' = step ∨ step' = step.confess

theorem skips_confess (h : engine.SkipsBlindly) (step : Step σ) :
    engine.skips step.confess = engine.skips step := by
  unfold skips
  cases hSkipper : engine.stepSkipper with
  | none => rfl
  | some skipper =>
      simp only [Step.confess, h skipper hSkipper step]

/-- An engine that catches panics does a step in the same way, whether it panics or fails. -/
theorem runStep_of_confesses (hCatches : engine.config.catchesPanics = true)
    (hBlind : engine.SkipsBlindly) (h : Confesses step step') (now : Timestamp) :
    engine.runStep now step' = engine.runStep now step := by
  rcases h with rfl | rfl
  · rfl
  · have hEdit : step.confess.edit now true engine.sink = step.edit now true engine.sink := by
      rw [Step.edit, Step.edit, Step.perform_confess]
    rw [runStep, runStep, skips_confess hBlind, workStep, workStep, hCatches, hEdit]
    rfl

/-- Steps, some of which confess, come to the same as the steps themselves. -/
theorem runSteps_of_confesses (hCatches : engine.config.catchesPanics = true)
    (hBlind : engine.SkipsBlindly) {steps' : List (Step σ)}
    (h : List.Forall₂ Confesses steps steps') (now : Timestamp) :
    engine.runSteps now steps' = engine.runSteps now steps := by
  induction h with
  | nil => rfl
  | cons hStep _ ih => rw [runSteps, runSteps, runStep_of_confesses hCatches hBlind hStep, ih]

/-- So an invocation cannot tell whether its steps panic or confess. -/
theorem process_of_confesses (hCatches : engine.config.catchesPanics = true)
    (hBlind : engine.SkipsBlindly) (h : List.Forall₂ Confesses engine.steps steps)
    (now : Timestamp) : { engine with steps }.process now = engine.process now := by
  have hSteps : { engine with steps }.runSteps now steps = engine.runSteps now engine.steps :=
    (runSteps_with engine steps engine.afterDeletion steps now).trans
      (runSteps_of_confesses hCatches hBlind h now)
  rw [process, process, hSteps]
  rfl

end Engine

namespace Visit

variable {visit : Visit σ} {engine : Engine σ} {now : Timestamp} {scene left : Scene σ}
  {store last : Store} {payload : Payload}

/-- A panic that is caught is recorded and written together with what the work has done until then.
-/
theorem ended_of_caught (hCatches : engine.config.catchesPanics = true) (hStep : visit.step.Sound)
    (hBegins : visit.Begins engine now scene store)
    (hWork : visit.step.work.exec now scene store = ⟨.error (.panic payload), left, last⟩) :
    let outcome : Except Objection Unit := .error (.failure payload.report)
    ∃ base state, visit.Fetched engine now base ∧
      visit.ended engine now = (visit.step.conclude base outcome).exec now
        ⟨visit.step.settle now outcome left.resource, state⟩ last := by
  have hAttempt := Step.exec_attemptWork_of_exec hWork fun _ _ => hCatches
  obtain ⟨base, hFetched, hEnded⟩ := visit.exists_ended_of_outcome hStep hBegins hAttempt
  exact ⟨base, _, hFetched, hEnded⟩

end Visit

namespace Engine

variable {engine : Engine σ}

/-- An invocation comes to a step whose work begins at a scene on a store, and the work panics there
and leaves `left` and `last`. -/
structure Stumbles (engine : Engine σ) (now : Timestamp) (key : Key) (state : σ) (store : Store)
    (visit : Visit σ) (payload : Payload) (left : Scene σ) (last : Store) : Prop where
  mem : visit ∈ engine.itinerary now key state store
  panics : ∃ scene begun, visit.Begins engine now scene begun ∧
    visit.step.work.exec now scene begun = ⟨.error (.panic payload), left, last⟩

variable {now : Timestamp} {key : Key} {state : σ} {store last : Store} {visit : Visit σ}
  {payload : Payload} {left : Scene σ}

/-- A step that panics is the last one to be visited. -/
theorem Stumbles.getLast?_eq (h : engine.Stumbles now key state store visit payload left last)
    (hSteps : ∀ step ∈ engine.steps, step.Sound) :
    (engine.itinerary now key state store).getLast? = some visit := by
  obtain ⟨scene, begun, hBegins, hWork⟩ := h.panics
  exact getLast?_itinerary_of_not_passes h.mem
    (visit.not_passes_of_panic (hSteps _ (step_mem_of_mem_itinerary h.mem)) hBegins hWork)

/-- What it means that an engine catches the panics of work. -/
structure Contains (engine : Engine σ) (now : Timestamp) : Prop where
  /-- Steps that fail in place of a panic make for the same program: the same requests to the store,
  the same resource in hand, events and callbacks, and the same result. -/
  run_eq : engine.SkipsBlindly → ∀ steps, List.Forall₂ Confesses engine.steps steps →
    ∀ key state, { engine with steps }.run now key state = engine.run now key state
  runIn_eq : engine.SkipsBlindly → ∀ steps, List.Forall₂ Confesses engine.steps steps →
    { engine with steps }.runIn now = engine.runIn now
  /-- No invocation panics but as hooks, callbacks and the cleanup do. -/
  run_panics : ∀ may, engine.PanicsWithin may → ∀ key state store payload,
    ((engine.run now key state).run now store).1.1 = .error (.panic payload) → may payload
  runIn_panics : ∀ may, engine.PanicsWithin may → (engine.runIn now).PanicsWithin may
  /-- After a step whose work panics no other step is visited. -/
  halts : ∀ {key state store visit payload left last},
    engine.Stumbles now key state store visit payload left last →
      (engine.itinerary now key state store).getLast? = some visit
  /-- What is shown, given to the hook and written is the resource that the work has left, with the
  failed condition on it. -/
  keeps : ∀ {key state store visit payload left last},
    engine.Stumbles now key state store visit payload left last →
      let outcome : Except Objection Unit := .error (.failure payload.report)
      ∃ base state, visit.Fetched engine now base ∧
        visit.ended engine now = (visit.step.conclude base outcome).exec now
          ⟨visit.step.settle now outcome left.resource, state⟩ last

/-- What it means that an engine does not catch them: an invocation ends with the panic, and with
what the work has left in hand and in the store. -/
structure LetsThrough (engine : Engine σ) (now : Timestamp) : Prop where
  run_eq : ∀ {key state store visit payload left last},
    engine.Stumbles now key state store visit payload left last →
      (engine.run now key state).run now store = ((.error (.panic payload), left.state), last)
  runIn_eq : ∀ {scene : Scene σ} {store visit payload left last},
    engine.Stumbles now scene.resource.key scene.state store visit payload left last →
      (engine.runIn now).exec now scene store = ⟨.error (.panic payload), left, last⟩

/-- An engine that was built contains the panics of its steps if it catches them, and else passes
them on as they are. -/
theorem contains_of_build {registrations : List (Registration σ)}
    (hBuild : build registrations = .ok engine) (now : Timestamp) :
    (engine.config.catchesPanics = true → engine.Contains now) ∧
      (engine.config.catchesPanics = false → engine.LetsThrough now) := by
  have hSteps := build_sound hBuild
  constructor
  · intro hCatches
    refine ⟨?run_eq, ?runIn_eq, ?run_panics, ?runIn_panics, ?halts, ?keeps⟩
    case run_eq =>
      intro hBlind steps hConfess key state
      rw [run, run, process_of_confesses hCatches hBlind hConfess]
      rfl
    case runIn_eq =>
      intro hBlind steps hConfess
      rw [runIn, runIn, process_of_confesses hCatches hBlind hConfess]
      rfl
    case run_panics => exact fun may h key state store payload hPanic => h.run hSteps hPanic
    case runIn_panics => exact fun may h => h.runIn hSteps now
    case halts => exact fun h => h.getLast?_eq hSteps
    case keeps =>
      intro key state store visit payload left last h
      obtain ⟨scene, begun, hBegins, hWork⟩ := h.panics
      exact visit.ended_of_caught hCatches (hSteps _ (step_mem_of_mem_itinerary h.mem)) hBegins
        hWork
  · intro hCatches
    have hEnded {key state store visit payload left last}
        (h : engine.Stumbles now key state store visit payload left last) :
        visit.ended engine now = ⟨.error (.panic payload), left, last⟩ := by
      obtain ⟨scene, begun, hBegins, hWork⟩ := h.panics
      exact visit.ended_of_uncaught hCatches hBegins hWork
    constructor
    case run_eq =>
      intro key state store visit payload left last h
      rw [run_eq_of_getLast? (h.getLast?_eq hSteps), Visit.requeue, hEnded h]
      rfl
    case runIn_eq =>
      intro scene store visit payload left last h
      rw [exec_runIn_of_getLast? (h.getLast?_eq hSteps), Visit.requeue, hEnded h]
      rfl

def scribble : Task Nat Objection Unit := do
  Task.modifyResource fun resource => { resource with spec := .bool true }
  Task.panic (.text "no")

/-- Changes the specification and fails in the words of the panic. -/
def ownUp : Task Nat Objection Unit := do
  Task.modifyResource fun resource => { resource with spec := .bool true }
  Task.fail (.failure (Payload.text "no").report)

def arrive : Task Nat Objection Unit :=
  Task.modifyState fun _ asked => asked + 10

/-- Two steps, and a step skipper that counts how often it is asked. -/
def scribblings (catches : Bool) (work : Task Nat Objection Unit) : List (Registration Nat) :=
  [.config { catchesPanics := catches },
    .stepSkipper fun _ condition asked => (condition.any Condition.isTrue, asked + 1),
    .step "Ready" work {}, .step "Late" arrive {}]

def scribbling (catches : Bool) (work : Task Nat Objection Unit) : Engine Nat where
  steps := [Step.ofOptions "Ready" work {}, Step.ofOptions "Late" arrive {}]
  stepSkipper := some fun _ condition asked => (condition.any Condition.isTrue, asked + 1)
  config := { catchesPanics := catches }

theorem build_scribblings (catches : Bool) (work : Task Nat Objection Unit) :
    build (scribblings catches work) = .ok (scribbling catches work) := by
  have hMake (type : String) (work : Task Nat Objection Unit) (h : type ≠ "" ∧
      Text.isToken s!"{type}Succeeded" = true ∧ Text.isToken s!"{type}Failed" = true ∧
      Text.isToken s!"{type}Processing" = true) :
      Step.make type work {} = .ok (Step.ofOptions type work {}) :=
    Step.Sound.make_eq ⟨h.1, h.2.1, h.2.2.1, h.2.2.2⟩
  have hReady := hMake "Ready" work (by decide)
  have hLate := hMake "Late" arrive (by decide)
  simp only [build, scribblings, List.foldlM_cons, List.foldlM_nil, register, fill, hReady, hLate]
  rfl

theorem skipsBlindly_scribbling (catches : Bool) (work : Task Nat Objection Unit) :
    (scribbling catches work).SkipsBlindly := by
  rintro _ ⟨⟩ step other
  rfl

/-- The first step is written with what it has done, or the panic ends the invocation. -/
theorem contains_scribbling :
    (let ended := ((scribbling true scribble).runIn default).exec default ⟨Edit.plainResource, 0⟩
      Edit.plainStore
    ended.scene.resource.standing.conditions.map Condition.type = ["Ready"] ∧
      ended.scene.state = 1 ∧ ended.store.version = 3) ∧
    (let ended := ((scribbling false scribble).runIn default).exec default ⟨Edit.plainResource, 0⟩
      Edit.plainStore
    ended.scene.resource.standing.conditions = [] ∧ ended.scene.state = 1 ∧
      ended.store.version = 1) ∧
    build (scribblings true scribble) = .ok (scribbling true scribble) ∧
    build (scribblings false scribble) = .ok (scribbling false scribble) ∧
    (scribbling true scribble).SkipsBlindly ∧
    (scribbling true ownUp).runIn default = (scribbling true scribble).runIn default ∧
    (scribbling true scribble).Contains default ∧
    (scribbling false scribble).LetsThrough default := by
  have hBlind := skipsBlindly_scribbling true scribble
  have hContains := (contains_of_build (build_scribblings true scribble) default).1 rfl
  have hLetsThrough := (contains_of_build (build_scribblings false scribble) default).2 rfl
  have hSteps : List.Forall₂ Confesses (scribbling true scribble).steps
      (scribbling true ownUp).steps := .cons (.inr rfl) (.cons (.inl rfl) .nil)
  exact ⟨by decide +kernel, by decide +kernel, build_scribblings true scribble,
    build_scribblings false scribble, hBlind, hContains.runIn_eq hBlind _ hSteps, hContains,
    hLetsThrough⟩

end Engine

end Reconciliation
