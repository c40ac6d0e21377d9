import Reconciliation.Engine.Recording
import Reconciliation.Proofs.Condition.Setting
import Reconciliation.Proofs.Task.Composing
import Reconciliation.Proofs.Task.Requests

/-!
What a step records. `Step.settle` says what the resource looks like once the outcome of the work is
recorded on it, and `Step.recordedFor` what follows from the outcome; both are told from the outcome
alone. The conditions of a step that could be made are all in order, so that nothing here panics but
what users have supplied.
-/
namespace Reconciliation

/-- The type to record under is not empty, whatever a verdict gives. -/
theorem Verdict.typeOr_ne (verdict : Verdict) {default : String} (h : default ≠ "") :
    verdict.typeOr default ≠ "" := by
  unfold Verdict.typeOr
  cases hType : verdict.type.filter (· ≠ "") with
  | none => exact h
  | some type => simpa using (Option.filter_eq_some_iff.1 hType).2

/-- A condition that was set is found on the resource. -/
theorem Resource.exists_find?_setCondition (now : Timestamp) (condition : Condition)
    (resource : Resource) : ∃ since,
      (resource.setCondition now condition).standing.find? condition.type =
        some { condition with since } :=
  Condition.stands_setIn now condition _

namespace Step

variable {σ : Type} {step : Step σ} {now : Timestamp} {sink : Option (EventSink σ)}
  {outcome : Except Objection Unit}

/-- A step whose conditions can all be made. -/
structure Sound (step : Step σ) : Prop where
  type_ne : step.type ≠ ""
  successReason : Text.isToken step.successReason = true
  failReason : Text.isToken step.failReason = true
  markReason : Text.isToken step.markReason = true

/-- A step that could be made can make all of its conditions. -/
theorem of_make_eq_ok {type : String} {work : Task σ Objection Unit} {options : StepOptions σ}
    (h : make type work options = .ok step) : step = ofOptions type work options ∧ step.Sound := by
  unfold make at h
  split at h
  · cases h
  · rename_i hType
    dsimp only at h
    split at h
    · cases h
    · rename_i hNone
      cases h
      simp only [List.find?_eq_none, List.mem_cons, List.not_mem_nil, or_false, Bool.not_eq_true,
        Bool.not_eq_false', forall_eq_or_imp, forall_eq] at hNone
      obtain ⟨hSuccess, hFail, hMark⟩ := hNone
      exact ⟨rfl, hType, hSuccess, hFail, hMark⟩

/-- The condition that an outcome calls for, the generation apart. -/
def conditionFor (step : Step σ) : Except Objection Unit → Condition
  | .ok () =>
    { type := step.type, status := .holds, reason := step.successReason
      message := step.successMessage }
  | .error (.verdict verdict) =>
    { type := verdict.typeOr step.type, status := verdict.status, reason := verdict.reason
      message := verdict.recordedMessage }
  | .error (.failure report) =>
    { type := step.type, status := .fails, reason := step.failReason
      message := Text.cap maxError s!"{step.failContext}: {report.full}" }

def givenPhase : Except Objection Unit → Option Phase
  | .error (.verdict verdict) => verdict.phase
  | _ => none

/-- The phase that an outcome calls for: the one that a verdict gives, else the reason of a failed
condition. -/
def phaseFor (step : Step σ) (outcome : Except Objection Unit) : Option Phase :=
  (givenPhase outcome).or
    (if (step.conditionFor outcome).isFalse then some ⟨(step.conditionFor outcome).reason⟩ else none)

/-- A resource with the phase and the condition that an outcome calls for. -/
def settle (step : Step σ) (now : Timestamp) (outcome : Except Objection Unit)
    (resource : Resource) : Resource :=
  ((step.phaseFor outcome).elim resource fun phase => resource.setPhase phase).setCondition now
    { step.conditionFor outcome with generation := resource.metadata.generation }

/-- The condition that an outcome calls for is found on the resource. -/
theorem exists_find?_settle (step : Step σ) (now : Timestamp) (outcome : Except Objection Unit)
    (resource : Resource) : ∃ generation since,
      (step.settle now outcome resource).standing.find? (step.conditionFor outcome).type =
        some { step.conditionFor outcome with generation, since } := by
  obtain ⟨since, hFound⟩ := Resource.exists_find?_setCondition now
    { step.conditionFor outcome with generation := resource.metadata.generation }
    ((step.phaseFor outcome).elim resource fun phase => resource.setPhase phase)
  exact ⟨_, since, hFound⟩

def recordedFor : Except Objection Unit → Recorded
  | .ok () => {}
  | .error (.verdict verdict) =>
    { exit := verdict.exit, requeue := verdict.requeue
      failure := if verdict.status = .fails then some (.ofMessage verdict.text) else none }
  | .error (.failure report) => { failure := some report }

/-- A verdict always makes the condition that is called for. -/
theorem condition_verdict (hStep : step.Sound) (verdict : Verdict) :
    verdict.condition step.type = .ok (step.conditionFor (.error (.verdict verdict))) :=
  Condition.make_eq_ok (verdict.typeOr_ne hStep.type_ne) verdict.reason_valid _ _

def isTold : Except Objection Unit → Bool
  | .ok () => false
  | .error (.verdict verdict) => !verdict.silent
  | .error (.failure _) => true

/-- What is left of the state once the sink, if there is one, is told about a condition. -/
def tell (sink : Option (EventSink σ)) (condition : Condition) (scene : Scene σ) : σ :=
  sink.elim scene.state fun sink => sink scene.resource condition.event scene.state

/-- What an outcome is judged to make of a scene: the phase that a verdict gives is set, and the
sink is told. -/
def judged (step : Step σ) (sink : Option (EventSink σ)) (outcome : Except Objection Unit)
    (scene : Scene σ) : Scene σ :=
  let given : Scene σ :=
    { scene with
      resource := (givenPhase outcome).elim scene.resource fun phase =>
        scene.resource.setPhase phase }
  if isTold outcome then { given with state := tell sink (step.conditionFor outcome) given }
  else given

theorem exec_emit {ε : Type} (now : Timestamp) (sink : Option (EventSink σ))
    (condition : Condition) (scene : Scene σ) (store : Store) :
    (emit sink condition : Task σ ε Unit).exec now scene store =
      ⟨.ok (), { scene with state := tell sink condition scene }, store⟩ := by
  cases sink <;> rfl

/-- Judging an outcome sets the phase that a verdict gives and nothing else of the resource. -/
theorem exec_judge (hStep : step.Sound) (now : Timestamp) (sink : Option (EventSink σ))
    (outcome : Except Objection Unit) (scene : Scene σ) (store : Store) :
    (step.judge sink outcome).exec now scene store =
      ⟨.ok (step.conditionFor outcome, recordedFor outcome), step.judged sink outcome scene,
        store⟩ := by
  rcases outcome with (verdict | report) | ⟨⟩
  · -- What comes after the phase is set, on whichever resource that leaves.
    have hRest : ∀ given : Scene σ, (if !verdict.silent then do
          emit sink (step.conditionFor (.error (.verdict verdict)))
          Pure.pure (step.conditionFor (.error (.verdict verdict)),
            recordedFor (.error (.verdict verdict)))
        else Pure.pure (step.conditionFor (.error (.verdict verdict)),
          recordedFor (.error (.verdict verdict))) : Task σ Empty _).exec now given store =
        ⟨.ok (step.conditionFor (.error (.verdict verdict)),
          recordedFor (.error (.verdict verdict))),
          if isTold (.error (.verdict verdict)) then
            { given with state := tell sink (step.conditionFor (.error (.verdict verdict))) given }
          else given, store⟩ := by
      intro given
      rw [isTold]
      cases verdict.silent with
      | true => rfl
      | false =>
          simp only [Bool.not_false, if_true, Task.exec_bind, exec_emit, Execution.andThen_ok,
            Task.exec_pure]
    have hFails : (if (step.conditionFor (.error (.verdict verdict))).isFalse = true then
        some (Report.ofMessage verdict.text) else none) =
        (recordedFor (.error (.verdict verdict))).failure := by
      simp [conditionFor, Condition.isFalse, recordedFor]
    rw [judge, condition_verdict hStep, judged, givenPhase]
    cases verdict.phase with
    | none =>
        simp only [Task.exec_bind, Task.exec_orPanic_ok, Execution.andThen_ok, hFails]
        exact hRest _
    | some phase =>
        simp only [Task.exec_bind, Task.exec_modifyResource, Task.exec_orPanic_ok,
          Execution.andThen_ok, hFails]
        exact hRest _
  · have hMade : step.failCondition report = .ok (step.conditionFor (.error (.failure report))) :=
      Condition.make_eq_ok hStep.type_ne hStep.failReason _ _
    simp only [judge, hMade, Task.exec_bind, Task.exec_orPanic_ok, Execution.andThen_ok, exec_emit,
      Task.exec_pure]
    rfl
  · have hMade : step.successCondition = .ok (step.conditionFor (.ok ())) :=
      Condition.make_eq_ok hStep.type_ne hStep.successReason _ _
    simp only [judge, hMade, Task.exec_bind, Task.exec_orPanic_ok, Execution.andThen_ok,
      Task.exec_pure]
    rfl

theorem isSome_givenPhase (outcome : Except Objection Unit) :
    (givenPhase outcome).isSome = setsPhase outcome := by
  rcases outcome with (_ | _) | _ <;> rfl

/-- All of the recording but the hook. -/
def settling (step : Step σ) (now : Timestamp) (sink : Option (EventSink σ))
    (outcome : Except Objection Unit) : Task σ Empty Recorded := do
  let (condition, recorded) ← step.judge sink outcome
  step.enter now (setsPhase outcome) condition
  return recorded

/-- Recording ends with the hook, whose failure is kept. -/
theorem record_eq (step : Step σ) (now : Timestamp) (sink : Option (EventSink σ))
    (outcome : Except Objection Unit) :
    step.record now sink outcome = do
      let recorded ← step.settling now sink outcome
      match ← step.runHook.attempt with
      | .ok () => return recorded
      | .error report => return { recorded with failure := some report } := by
  rw [settling, bind_assoc]
  refine congrArg (step.judge sink outcome >>= ·) (funext fun ⟨condition, recorded⟩ => ?_)
  rw [bind_assoc]
  rfl

/-- Shows a failed condition to the callback for failures. -/
def showFailure (step : Step σ) (condition : Condition) : Task σ Empty Unit :=
  if condition.isFalse then
    match step.onFail with
    | some callback => do
      let _ ← Task.onCopy (← Task.resource) callback
    | none => pure ()
  else pure ()

theorem exec_showFailure (step : Step σ) (now : Timestamp) (condition : Condition)
    (scene : Scene σ) (store : Store) :
    ((step.showFailure condition).exec now scene store).scene.resource = scene.resource := by
  unfold showFailure
  split
  · split
    · simp only [Task.exec_bind, Task.exec_resource, Execution.andThen_ok, Task.exec_onCopy]
      rename_i callback _
      rcases callback.exec now scene store with ⟨_ | _, _, _⟩ <;> rfl
    · rfl
  · rfl

/-- The resource has its phase and its condition when a failure is shown. -/
theorem exec_enter (step : Step σ) (now : Timestamp) (phaseSet : Bool) (condition : Condition)
    (scene : Scene σ) (store : Store) :
    (step.enter now phaseSet condition).exec now scene store =
      (step.showFailure condition).exec now { scene with
        resource := (if condition.isFalse && !phaseSet then
            scene.resource.setPhase ⟨condition.reason⟩
          else scene.resource).setCondition now
          { condition with
            generation := scene.resource.metadata.generation.or condition.generation } } store := by
  rw [enter, showFailure]
  simp only [Task.exec_bind, Task.exec_resource, Execution.andThen_ok, Condition.isFalse]
  by_cases hPhase : (condition.status == .fails && !phaseSet) = true
  · simp only [hPhase, if_true, Task.exec_bind, Task.exec_modifyResource, Execution.andThen_ok]
    rfl
  · simp only [hPhase]
    rfl

theorem generation_conditionFor (step : Step σ) (outcome : Except Objection Unit) :
    (step.conditionFor outcome).generation = none := by
  rcases outcome with (_ | _) | _ <;> rfl

/-- First comes a given phase, then the one after a failed condition, then the condition. -/
theorem settle_eq (step : Step σ) (now : Timestamp) (outcome : Except Objection Unit)
    (resource : Resource) :
    let given := (givenPhase outcome).elim resource fun phase => resource.setPhase phase
    step.settle now outcome resource =
      (if (step.conditionFor outcome).isFalse && !setsPhase outcome then
          given.setPhase ⟨(step.conditionFor outcome).reason⟩
        else given).setCondition now
        { step.conditionFor outcome with
          generation := given.metadata.generation.or (step.conditionFor outcome).generation } := by
  intro given
  rw [settle, phaseFor, generation_conditionFor, Option.or_none, ← isSome_givenPhase]
  cases hGiven : givenPhase outcome with
  | none =>
      simp only [given, hGiven]
      cases (step.conditionFor outcome).isFalse <;> rfl
  | some phase =>
      simp only [given, hGiven]
      cases (step.conditionFor outcome).isFalse <;> rfl

/-- Judging leaves a resource that differs by the phase at most. -/
theorem resource_judged (step : Step σ) (sink : Option (EventSink σ))
    (outcome : Except Objection Unit) (scene : Scene σ) :
    (step.judged sink outcome scene).resource =
      (givenPhase outcome).elim scene.resource fun phase => scene.resource.setPhase phase := by
  unfold judged
  cases isTold outcome <;> rfl

/-- The callback for failures is shown the resource as the outcome calls for it. -/
theorem exec_settling (hStep : step.Sound) (now : Timestamp) (sink : Option (EventSink σ))
    (outcome : Except Objection Unit) (scene : Scene σ) (store : Store) :
    (step.settling now sink outcome).exec now scene store =
      ((step.showFailure (step.conditionFor outcome)).exec now
        ⟨step.settle now outcome scene.resource, (step.judged sink outcome scene).state⟩
        store).andThen fun _ scene store => ⟨.ok (recordedFor outcome), scene, store⟩ := by
  simp only [settling, Task.exec_bind, exec_judge hStep, Execution.andThen_ok, exec_enter,
    resource_judged]
  rw [settle_eq]
  rfl

/-- What is left of the resource and what is recorded follow from the outcome alone. -/
theorem of_settling_eq_ok (hStep : step.Sound) {scene scene' : Scene σ} {store store' : Store}
    {recorded : Recorded}
    (h : (step.settling now sink outcome).exec now scene store = ⟨.ok recorded, scene', store'⟩) :
    scene'.resource = step.settle now outcome scene.resource ∧ recorded = recordedFor outcome := by
  rw [exec_settling hStep] at h
  have hShown := exec_showFailure step now (step.conditionFor outcome)
    ⟨step.settle now outcome scene.resource, (step.judged sink outcome scene).state⟩ store
  rcases hExec : (step.showFailure (step.conditionFor outcome)).exec now
    ⟨step.settle now outcome scene.resource, (step.judged sink outcome scene).state⟩ store with
    ⟨result, shown, last⟩
  rw [hExec] at h hShown
  cases result with
  | error reason => cases h
  | ok _ =>
      cases h
      exact ⟨hShown, rfl⟩

def outcomeOf : Except (Stop Objection) Unit → Except Objection Unit
  | .ok () => .ok ()
  | .error (.error objection) => .error objection
  | .error (.panic payload) => .error (.failure payload.report)

/-- Where panics are caught, an attempt always ends with an outcome. -/
theorem exec_attemptWork (step : Step σ) (now : Timestamp) (scene : Scene σ) (store : Store) :
    (step.attemptWork true).exec now scene store =
      ⟨.ok (outcomeOf (step.work.exec now scene store).result),
        (step.work.exec now scene store).scene, (step.work.exec now scene store).store⟩ := by
  simp only [attemptWork, if_true, Task.exec_bind, Task.exec_contain, Execution.andThen_ok]
  rcases step.work.exec now scene store with ⟨(_ | _) | _, _, _⟩ <;> rfl

/-- An attempt leaves what the work leaves. -/
theorem of_attemptWork_eq_ok {catches : Bool} {scene scene' : Scene σ} {store store' : Store}
    (h : (step.attemptWork catches).exec now scene store = ⟨.ok outcome, scene', store'⟩) :
    ∃ ended, step.work.exec now scene store = ⟨ended, scene', store'⟩ ∧
      outcome = outcomeOf ended := by
  cases catches with
  | true =>
      rw [exec_attemptWork] at h
      cases h
      exact ⟨_, rfl, rfl⟩
  | false =>
      simp only [attemptWork, Bool.false_eq_true, if_false, Task.exec_attempt] at h
      rcases hWork : step.work.exec now scene store with ⟨(_ | _) | _, _, _⟩ <;>
        (rw [hWork] at h; cases h)
      · exact ⟨_, rfl, rfl⟩
      · exact ⟨_, rfl, rfl⟩

/-- Work that does not panic, or whose panic is caught, has an outcome. -/
theorem exec_attemptWork_of_exec {catches : Bool} {result : Except (Stop Objection) Unit}
    {scene left : Scene σ} {store last : Store}
    (hWork : step.work.exec now scene store = ⟨result, left, last⟩)
    (hCatches : ∀ payload, result = .error (.panic payload) → catches = true) :
    (step.attemptWork catches).exec now scene store = ⟨.ok (outcomeOf result), left, last⟩ := by
  cases catches with
  | true => rw [exec_attemptWork, hWork]
  | false =>
      rw [attemptWork, if_neg Bool.false_ne_true, Task.exec_attempt, hWork]
      rcases result with (payload | objection) | ⟨⟩
      · exact absurd (hCatches payload rfl) Bool.false_ne_true
      · rfl
      · rfl

/-- What follows from an outcome and from how the hook ended. -/
def recordedAfter (outcome : Except Objection Unit) : Except Report Unit → Recorded
  | .ok () => recordedFor outcome
  | .error report => { recordedFor outcome with failure := some report }

/-- The parts of a performance of a step: the work, what is recorded, and the hook. -/
theorem of_perform_eq_ok (hStep : step.Sound) {catches : Bool} {scene scene' : Scene σ}
    {store store' : Store} {recorded : Recorded}
    (h : (step.perform now catches sink).exec now scene store = ⟨.ok recorded, scene', store'⟩) :
    ∃ ended left store₁ settled store₂ hook,
      step.work.exec now scene store = ⟨ended, left, store₁⟩ ∧
      (step.settling now sink (outcomeOf ended)).exec now left store₁ =
        ⟨.ok (recordedFor (outcomeOf ended)), settled, store₂⟩ ∧
      settled.resource = step.settle now (outcomeOf ended) left.resource ∧
      (step.runHook.attempt : Task σ Empty _).exec now settled store₂ =
        ⟨.ok hook, scene', store'⟩ ∧
      recorded = recordedAfter (outcomeOf ended) hook := by
  simp only [perform, record_eq] at h
  obtain ⟨outcome, left, store₁, hWork, hRecord⟩ := Task.exec_bind_eq_ok_iff.1 h
  obtain ⟨found, settled, store₂, hSettling, hHook⟩ := Task.exec_bind_eq_ok_iff.1 hRecord
  obtain ⟨hook, ended, last, hRun, hReturn⟩ := Task.exec_bind_eq_ok_iff.1 hHook
  obtain ⟨result, hResult, rfl⟩ := of_attemptWork_eq_ok hWork
  obtain ⟨hSettled, rfl⟩ := of_settling_eq_ok hStep hSettling
  refine ⟨result, left, store₁, settled, store₂, hook, hResult, hSettling, hSettled, ?_⟩
  rcases hook with report | ⟨⟩
  · cases hReturn
    exact ⟨hRun, rfl⟩
  · cases hReturn
    exact ⟨hRun, rfl⟩

end Step

namespace Task.Composes

variable {σ : Type} {holds : ∀ {ε α : Type}, Task σ ε α → Prop} {step : Step σ}

theorem runHook (h : Composes @holds) (hHook : ∀ hook, step.hook = some hook → holds hook) :
    holds step.runHook := by
  unfold Step.runHook
  cases hSome : step.hook with
  | none => exact h.pure ()
  | some hook => exact hHook hook hSome

theorem showFailure (h : Composes @holds)
    (hOnFail : ∀ callback, step.onFail = some callback → holds callback) (condition : Condition) :
    holds (step.showFailure condition) := by
  unfold Step.showFailure
  split
  · cases hSome : step.onFail with
    | none => exact h.pure ()
    | some callback =>
        exact h.bind (h.plain plain_resource) fun copy =>
          h.bind (h.onCopy copy (hOnFail callback hSome)) fun _ => h.pure ()
  · exact h.pure ()

/-- That a step is under way can always be said. -/
theorem mark (h : Composes @holds) (hStep : step.Sound)
    (hHook : ∀ hook, step.hook = some hook → holds hook) (now : Timestamp) :
    holds (step.mark now) := by
  have hMade : step.markCondition = .ok _ :=
    Condition.make_eq_ok hStep.type_ne hStep.markReason _ _
  rw [Step.mark, hMade]
  exact h.bind (h.plain plain_resource) fun _ => h.bind (h.pure _) fun _ =>
    h.bind (h.onCopy _ (h.mapError _ (h.runHook hHook))) fun _ => h.renew (h.ask _)

end Task.Composes

end Reconciliation
