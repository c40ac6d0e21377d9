import Reconciliation.Proofs.Engine.Containment
import Reconciliation.Text.Cap

/-!
The words of failures. A failure has one text, which is cut where it is made: at the cap for messages
if a step only gives a message, at the cap for errors if there is an error, a panic or a finalizer
behind it. What is left is the message of the condition, of the event, of the verdict as an error and
of the failure that is recorded.
-/
namespace Reconciliation

theorem Report.full_ofMessage (message : String) : (ofMessage message).full = message := rfl

theorem Report.full_within (context : String) (report : Report) :
    (report.within context).full = s!"{context}: {report.full}" :=
  String.intercalate_cons_cons

namespace Verdict

variable {made verdict : Verdict} {words : String}

/-- What the modifiers make of a verdict. -/
inductive Refines (made : Verdict) : Verdict → Prop where
  | refl : Refines made made
  | withExit {verdict : Verdict} (h : Refines made verdict) : Refines made verdict.withExit
  | withExitRequeue {verdict : Verdict} (h : Refines made verdict) (requeue : Requeue) :
    Refines made (verdict.withExitRequeue requeue)
  | withType {verdict : Verdict} (h : Refines made verdict) (type : String) :
    Refines made (verdict.withType type)
  | withPhase {verdict : Verdict} (h : Refines made verdict) (phase : Phase) :
    Refines made (verdict.withPhase phase)
  | withoutEvent {verdict : Verdict} (h : Refines made verdict) : Refines made verdict.withoutEvent

/-- A failure that is recorded in the words in which it is shown as an error. -/
structure FailsIn (verdict : Verdict) (words : String) : Prop where
  status_eq : verdict.status = .fails
  recorded_eq : verdict.recordedMessage = words
  text_eq : verdict.text = words

/-- The modifiers do not touch the words. -/
theorem FailsIn.refines (h : made.FailsIn words) (hRefines : made.Refines verdict) :
    verdict.FailsIn words := by
  induction hRefines with
  | refl => exact h
  | withExit _ ih => exact ⟨ih.status_eq, ih.recorded_eq, ih.text_eq⟩
  | withExitRequeue _ _ ih => exact ⟨ih.status_eq, ih.recorded_eq, ih.text_eq⟩
  | withType _ _ ih => exact ⟨ih.status_eq, ih.recorded_eq, ih.text_eq⟩
  | withPhase _ _ ih => exact ⟨ih.status_eq, ih.recorded_eq, ih.text_eq⟩
  | withoutEvent _ ih => exact ⟨ih.status_eq, ih.recorded_eq, ih.text_eq⟩

theorem of_make_eq_ok {status : Verity} {reason message : String} {source : Option Report}
    (h : make status reason message source = .ok made) :
    made.status = status ∧ made.message = message ∧ made.source = source := by
  unfold make at h
  split at h
  · cases h
    exact ⟨rfl, rfl, rfl⟩
  · cases h

/-- A message that was cut once is not cut again. -/
theorem failsIn_of_fail {reason message : String} (h : fail reason message = .ok made) :
    made.FailsIn (Text.cap maxMessage message) := by
  obtain ⟨hStatus, hMessage, hSource⟩ := of_make_eq_ok h
  have hShort : (Text.cap maxMessage message).length ≤ maxError :=
    calc (Text.cap maxMessage message).length
        ≤ maxMessage := by
          rw [Text.length_cap]
          exact Nat.min_le_left _ _
      _ ≤ maxError := by decide
  refine ⟨hStatus, ?_, ?_⟩
  · rw [recordedMessage, hSource, hMessage]
  · rw [text, hSource, Option.elim, hMessage, Text.cap_of_length_le hShort]

/-- If nothing is left of the text of the error, what is recorded in its place is the same again. -/
theorem failsIn_of_failWith {reason : String} {report : Report}
    (h : failWith reason report = .ok made) : made.FailsIn (Text.cap maxError report.full) := by
  obtain ⟨hStatus, hMessage, hSource⟩ := of_make_eq_ok h
  refine ⟨hStatus, ?_, ?_⟩
  · simp only [recordedMessage, hSource, hMessage, ite_self]
  · rw [text, hSource, Option.elim]

end Verdict

variable {σ : Type}

namespace Step

variable {step : Step σ} {now : Timestamp} {catches : Bool}

/-- The ways in which the work of a step fails, with the cap and the text of the failure, which has
not been cut yet. -/
inductive Fails (step : Step σ) (catches : Bool) :
    Except (Stop Objection) Unit → Nat → String → Prop where
  | message {reason message : String} {made verdict : Verdict}
    (hMade : Verdict.fail reason message = .ok made) (hRefines : made.Refines verdict) :
    Fails step catches (.error (.error (.verdict verdict))) maxMessage message
  | error {reason : String} {report : Report} {made verdict : Verdict}
    (hMade : Verdict.failWith reason report = .ok made) (hRefines : made.Refines verdict) :
    Fails step catches (.error (.error (.verdict verdict))) maxError report.full
  /-- The context is cut before the error is put behind it. -/
  | errorWithin {reason context cut : String} {report : Report} {made verdict : Verdict}
    (hMade : Verdict.failWithin reason report context = .ok made)
    (hRefines : made.Refines verdict) (hCut : Text.IsCapped maxMessage context cut) :
    Fails step catches (.error (.error (.verdict verdict))) maxError s!"{cut}: {report.full}"
  | failure (report : Report) :
    Fails step catches (.error (.error (.failure report))) maxError
      s!"{step.failContext}: {report.full}"
  | panic {payload : Payload} (hCatches : catches = true) :
    Fails step catches (.error (.panic payload)) maxError
      s!"{step.failContext}: {payload.report.full}"

section

variable {result : Except (Stop Objection) Unit} {limit : Nat} {whole : String}

theorem Fails.caught (h : step.Fails catches result limit whole) (payload : Payload)
    (hPanic : result = .error (.panic payload)) : catches = true := by
  cases h with
  | panic hCatches => exact hCatches
  | message | error | errorWithin | failure => cases hPanic

/-- A verdict that has failed is recorded and shown in one text, which was cut once. -/
theorem Fails.exists_failsIn {verdict : Verdict}
    (h : step.Fails catches (.error (.error (.verdict verdict))) limit whole) :
    ∃ words, Text.IsCapped limit whole words ∧ verdict.FailsIn words := by
  cases h with
  | message hMade hRefines =>
      exact ⟨_, Text.isCapped_cap _ _, (Verdict.failsIn_of_fail hMade).refines hRefines⟩
  | error hMade hRefines =>
      exact ⟨_, Text.isCapped_cap _ _, (Verdict.failsIn_of_failWith hMade).refines hRefines⟩
  | errorWithin hMade hRefines hCut =>
      have hFails := (Verdict.failsIn_of_failWith hMade).refines hRefines
      rw [← hCut.eq_cap, Report.full_within] at hFails
      exact ⟨_, Text.isCapped_cap _ _, hFails⟩

/-- The condition for a failure has failed, in the text of the failure, which was cut once. -/
theorem Fails.conditionFor (h : step.Fails catches result limit whole) :
    (step.conditionFor (outcomeOf result)).status = .fails ∧
      Text.IsCapped limit whole (step.conditionFor (outcomeOf result)).message := by
  rcases result with (payload | verdict | report) | ⟨⟩
  · cases h with
    | panic => exact ⟨rfl, Text.isCapped_cap _ _⟩
  · obtain ⟨words, hCapped, hFails⟩ := h.exists_failsIn
    have hMessage : (step.conditionFor (.error (.verdict verdict))).message = words :=
      hFails.recorded_eq
    refine ⟨hFails.status_eq, ?_⟩
    rw [outcomeOf, hMessage]
    exact hCapped
  · cases h with
    | failure => exact ⟨rfl, Text.isCapped_cap _ _⟩
  · cases h

/-- A verdict is shown as an error in the words of its condition. -/
theorem Fails.text_eq {verdict : Verdict}
    (h : step.Fails catches (.error (.error (.verdict verdict))) limit whole) :
    verdict.text = (step.conditionFor (.error (.verdict verdict))).message := by
  obtain ⟨words, -, hFails⟩ := h.exists_failsIn
  exact hFails.text_eq.trans hFails.recorded_eq.symm

end

/-- The sink is told nothing of an outcome, or of the condition for it. -/
theorem state_settled (step : Step σ) (now : Timestamp) (sink : Option (EventSink σ))
    (outcome : Except Objection Unit) (left : Scene σ) :
    (step.settled now sink outcome left).state = left.state ∨
      ∃ given resource, sink = some given ∧ (step.settled now sink outcome left).state =
        given resource (step.conditionFor outcome).event left.state := by
  simp only [settled, judged]
  cases isTold outcome with
  | false => exact .inl rfl
  | true =>
      cases sink with
      | none => exact .inl rfl
      | some given => exact .inr ⟨given, _, rfl, rfl⟩

/-- The hook fails, once a condition has been shown to the callback for failures. -/
def HookFails (step : Step σ) (now : Timestamp) (condition : Condition) (scene : Scene σ)
    (store : Store) : Prop :=
  ∃ shown store' report,
    (step.showFailure condition).exec now scene store = ⟨.ok (), shown, store'⟩ ∧
      (step.runHook.exec now shown store').result = .error (.error report)

/-- What is recorded follows from the outcome if the hook does not fail. -/
theorem of_wrapUp_eq_ok {outcome : Except Objection Unit} {scene scene' : Scene σ}
    {store store' : Store} {recorded : Recorded}
    (hHook : ¬step.HookFails now (step.conditionFor outcome) scene store)
    (h : (step.wrapUp outcome).exec now scene store = ⟨.ok recorded, scene', store'⟩) :
    recorded = recordedFor outcome := by
  obtain ⟨_, shown, store₁, hShown, hRest⟩ := Task.exec_bind_eq_ok_iff.1 h
  obtain ⟨ended, _, _, hRun, hReturn⟩ := Task.exec_bind_eq_ok_iff.1 hRest
  cases ended with
  | ok _ =>
      cases hReturn
      rfl
  | error report =>
      refine absurd ⟨shown, store₁, report, hShown, ?_⟩ hHook
      rw [Task.exec_attempt] at hRun
      rcases hExec : step.runHook.exec now shown store₁ with ⟨(_ | _) | _, _, _⟩
      · rw [hExec] at hRun
        cases hRun
      · rw [hExec] at hRun
        cases hRun
        rfl
      · rw [hExec] at hRun
        cases hRun

end Step

namespace Visit

variable {visit : Visit σ} {engine : Engine σ} {now : Timestamp} {scene left : Scene σ}
  {store last : Store} {result : Except (Stop Objection) Unit}

/-- Work that has ended with `result` is told in the words of one failed condition, which is on the
resource with which the rest of the visit begins. -/
structure Worded (visit : Visit σ) (engine : Engine σ) (now : Timestamp)
    (result : Except (Stop Objection) Unit) (left : Scene σ) (last : Store) (base : Edit.Base)
    (state : σ) (condition : Condition) : Prop where
  fetched : visit.Fetched engine now base
  ended : visit.ended engine now = (visit.step.conclude base (Step.outcomeOf result)).exec now
    ⟨visit.step.settle now (Step.outcomeOf result) left.resource, state⟩ last
  found : (visit.step.settle now (Step.outcomeOf result) left.resource).standing.find?
    (visit.step.conditionFor (Step.outcomeOf result)).type = some condition
  status_eq : condition.status = .fails
  /-- The sink, if there is one, is told nothing, or of one event. -/
  told : state = left.state ∨ ∃ sink resource event, engine.sink = some sink ∧
    event.message = condition.message ∧ state = sink resource event left.state
  text_eq : ∀ verdict, result = .error (.error (.verdict verdict)) →
    verdict.text = condition.message
  /-- What is recorded of a verdict, unless the hook fails. -/
  failure_eq : ∀ verdict, result = .error (.error (.verdict verdict)) →
    ¬visit.step.HookFails now (visit.step.conditionFor (Step.outcomeOf result))
      ⟨visit.step.settle now (Step.outcomeOf result) left.resource, state⟩ last →
    ∀ recorded written, (visit.ended engine now).result = .ok (.worked recorded written) →
      recorded.failure.map Report.full = some condition.message

/-- However the work of a step fails, it is told in the words of one condition. -/
theorem exists_worded (hStep : visit.step.Sound) (hBegins : visit.Begins engine now scene store)
    (hWork : visit.step.work.exec now scene store = ⟨result, left, last⟩) {limit : Nat}
    {whole : String} (hFails : visit.step.Fails engine.config.catchesPanics result limit whole) :
    ∃ base state condition, Text.IsCapped limit whole condition.message ∧
      visit.Worded engine now result left last base state condition := by
  obtain ⟨hStatus, hCapped⟩ := hFails.conditionFor
  obtain ⟨base, hFetched, hEnded⟩ := visit.exists_ended_of_outcome hStep hBegins
    (Step.exec_attemptWork_of_exec hWork hFails.caught)
  obtain ⟨generation, since, hFound⟩ :=
    visit.step.exists_find?_settle now (Step.outcomeOf result) left.resource
  refine ⟨base, _, { visit.step.conditionFor (Step.outcomeOf result) with generation, since },
    hCapped, hFetched, hEnded, hFound, hStatus, ?told, ?text_eq, ?failure_eq⟩
  case told =>
    rcases visit.step.state_settled now engine.sink (Step.outcomeOf result) left with
      hSame | ⟨sink, resource, hSink, hTold⟩
    · exact .inl hSame
    · exact .inr ⟨sink, resource, _, hSink, rfl, hTold⟩
  case text_eq =>
    rintro verdict rfl
    exact hFails.text_eq
  case failure_eq =>
    rintro verdict rfl hHook recorded written hWorked
    have hConclude : (visit.step.conclude base (.error (.verdict verdict))).exec now
        (visit.step.settled now engine.sink (.error (.verdict verdict)) left) last =
        ⟨.ok (.worked recorded written), (visit.ended engine now).scene,
          (visit.ended engine now).store⟩ := by
      rw [← hWorked]
      exact hEnded.symm
    obtain ⟨found, _, _, hWrapUp, hRest⟩ := Task.exec_bind_eq_ok_iff.1 hConclude
    obtain ⟨_, _, _, -, hReturn⟩ := Task.exec_bind_eq_ok_iff.1 hRest
    cases hReturn
    have hFailed : verdict.status = .fails := hStatus
    have hRecorded : recorded.failure = some (.ofMessage verdict.text) := by
      rw [Step.of_wrapUp_eq_ok hHook hWrapUp]
      exact if_pos hFailed
    rw [hRecorded, Option.map_some, Report.full_ofMessage]
    exact congrArg some hFails.text_eq

end Visit

namespace Engine

variable {engine : Engine σ}

/-- What is handed back by a step that is done alone is the failure that is recorded. -/
theorem DoesOnly.exists_worked {type : String} {work : Task σ Objection Unit}
    {options : StepOptions σ} {now : Timestamp} {scene : Scene σ} {store : Store}
    {outcome : Outcome} (h : engine.DoesOnly (Step.ofOptions type work options))
    (hSound : (Step.ofOptions type work options).Sound)
    (hOutcome : ((Step.performAlone type work options now).exec now scene store).result =
      .ok outcome) :
    ∃ recorded, ((Visit.mk (Step.ofOptions type work options) scene store).ended engine now).result =
      .ok (.worked recorded (.ok outcome.written)) ∧ outcome.failure = recorded.failure := by
  rw [h.exec_performAlone hSound] at hOutcome
  cases hEnded :
      ((Visit.mk (Step.ofOptions type work options) scene store).ended engine now).result with
  | error reason =>
      simp only [hEnded] at hOutcome
      cases hOutcome
  | ok fate =>
      simp only [hEnded] at hOutcome
      cases fate with
      | skipped => exact absurd hEnded h.ended_ne_skipped
      | unmarked error => cases hOutcome
      | unfetched error => cases hOutcome
      | worked recorded written =>
          cases written with
          | error error => cases hOutcome
          | ok written =>
              cases hOutcome
              exact ⟨recorded, rfl, rfl⟩

/-- The failures of an engine are told in one text each, which was cut once. -/
structure WordsFailures (engine : Engine σ) (now : Timestamp) : Prop where
  step : ∀ {visit : Visit σ} {scene left : Scene σ} {store last : Store}
    {result : Except (Stop Objection) Unit} {limit : Nat} {whole : String},
    visit.step ∈ engine.steps → visit.Begins engine now scene store →
    visit.step.work.exec now scene store = ⟨result, left, last⟩ →
    visit.step.Fails engine.config.catchesPanics result limit whole →
      ∃ base state condition, Text.IsCapped limit whole condition.message ∧
        visit.Worded engine now result left last base state condition
  /-- A step that is done alone, as an engine that does nothing else does it, hands back the failure
  that is recorded. -/
  alone : ∀ {type : String} {work : Task σ Objection Unit} {options : StepOptions σ}
    {scene : Scene σ} {store : Store} {outcome : Outcome},
    engine.DoesOnly (Step.ofOptions type work options) →
    ((Step.performAlone type work options now).exec now scene store).result = .ok outcome →
      ∃ recorded,
        ((Visit.mk (Step.ofOptions type work options) scene store).ended engine now).result =
          .ok (.worked recorded (.ok outcome.written)) ∧ outcome.failure = recorded.failure
  /-- What is written for a finalizer that cannot be seen to; there is no event. -/
  finalizer : ∀ {finalizer : Finalizer σ} {scene scene' : Scene σ} {store store' : Store}
    {error : WorkError}, engine.finalizer = some finalizer →
    finalizer.enforce.exec now scene store = ⟨.error (.error error), scene', store'⟩ →
      ∃ failed resource condition,
        (engine.finalize now).exec now scene store = ⟨.ok (some engine.config.onFailure),
          { scene' with resource }, (store'.updateStatus failed).2⟩ ∧
        failed.standing.find? finalizingType = some condition ∧ condition.status = .fails ∧
        Text.IsCapped maxError error.message condition.message

/-- An engine that was built tells each failure in one text. -/
theorem wordsFailures_of_build {registrations : List (Registration σ)}
    (hBuild : build registrations = .ok engine) (now : Timestamp) : engine.WordsFailures now where
  step hMem hBegins hWork hFails :=
    Visit.exists_worded (build_sound hBuild _ hMem) hBegins hWork hFails
  alone hOnly hOutcome :=
    hOnly.exists_worked (build_sound hBuild _ (hOnly.steps ▸ List.mem_singleton_self _)) hOutcome
  finalizer {_ _ scene' _ _ error} hFinalizer hEnforce := by
    obtain ⟨resource, hFinalize⟩ := exec_finalize_of_error hFinalizer hEnforce
    obtain ⟨since, hFound⟩ := Resource.exists_find?_setCondition now
      { type := finalizingType, status := .fails, reason := finalizationFailed
        message := Text.cap maxError error.message } scene'.resource
    exact ⟨_, resource, _, hFinalize, hFound, rfl, Text.isCapped_cap _ _⟩

def unsaved : Except Violation Verdict :=
  Verdict.failWithin "WriteFailed" (.ofMessage "disk full") "writing manifest"

def save : Task (List String) Objection Unit := do
  let verdict ← Task.orPanic Violation.message unsaved
  Task.fail (.verdict verdict.withExit)

/-- A finalizer, a step that fails, and a sink that keeps the words of events. -/
def saving : List (Registration (List String)) :=
  [.finalizer { name := "f" }, .step "Saved" save {},
    .sink fun _ event words => words ++ [event.message]]

def saver : Engine (List String) where
  steps := [Step.ofOptions "Saved" save {}]
  finalizer := some { name := "f" }
  sink := some fun _ event words => words ++ [event.message]

theorem save_fails : ∃ verdict, (∀ now scene store,
    save.exec now scene store = ⟨.error (.error (.verdict verdict)), scene, store⟩) ∧
      (Step.ofOptions "Saved" save {}).Fails true (.error (.error (.verdict verdict))) maxError
        "writing manifest: disk full" := by
  have hCut : Text.IsCapped maxMessage "writing manifest" "writing manifest" :=
    Text.isCapped_cap maxMessage "writing manifest"
  have hWhole : "writing manifest" ++ ": " ++ (Report.ofMessage "disk full").full =
      "writing manifest: disk full" := by decide
  obtain ⟨made, hMade⟩ : ∃ made, unsaved = .ok made := ⟨_, rfl⟩
  refine ⟨made.withExit, fun now scene store => ?_, ?_⟩
  · rw [save, hMade]
    rfl
  · rw [← hWhole]
    exact .errorWithin hMade (.withExit .refl) hCut

/-- The condition and the event have the words of the failure. -/
theorem wordsFailures_saver :
    build saving = .ok saver ∧
      (∃ verdict, (∀ now scene store,
        save.exec now scene store = ⟨.error (.error (.verdict verdict)), scene, store⟩) ∧
        (Step.ofOptions "Saved" save {}).Fails true (.error (.error (.verdict verdict))) maxError
          "writing manifest: disk full") ∧
      (let ended := (saver.runIn default).exec default ⟨Edit.plainResource, []⟩ Edit.plainStore
      ended.scene.resource.standing.conditions.map Condition.message =
          ["writing manifest: disk full"] ∧
        ended.scene.state = ["writing manifest: disk full"]) ∧
      saver.WordsFailures default := by
  have hBuild : build saving = .ok saver := rfl
  exact ⟨hBuild, save_fails, by decide +kernel, wordsFailures_of_build hBuild default⟩

end Engine

end Reconciliation
