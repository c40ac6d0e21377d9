import Reconciliation.Proofs.Engine.Invocation
import Reconciliation.Proofs.Engine.Visits

namespace Reconciliation

namespace Requeue

/-- Who asks for nothing is passed over. -/
theorem firstOf_none_cons (candidates : List (Option Requeue)) :
    firstOf (Option.none :: candidates) = firstOf candidates := rfl

/-- A candidate that asks for nothing is passed over. -/
theorem firstOf_some_cons (requeue : Requeue) (candidates : List (Option Requeue)) :
    firstOf (some requeue :: candidates) =
      if requeue = none then firstOf candidates else requeue := by
  have hFirst : (some requeue :: candidates).reduceOption = requeue :: candidates.reduceOption := rfl
  rw [firstOf, hFirst, List.find?_cons]
  by_cases h : requeue = none
  · rw [if_pos h, isNone_iff.2 h, Bool.not_true, firstOf]
  · have hAsks : requeue.isNone = false := by
      rw [← Bool.not_eq_true, isNone_iff]
      exact h
    rw [if_neg h, hAsks, Bool.not_false, Option.getD_some]

end Requeue

namespace Verdict

variable {verdict : Verdict} {requeue : Requeue}

/-- The verdict ends the invocation and says what it asks for. -/
structure ExitsWith (verdict : Verdict) (requeue : Requeue) : Prop where
  exit_eq : verdict.exit = true
  requeue_eq : verdict.requeue = some requeue

/-- A verdict that is told what to ask for exits with that. -/
theorem exitsWith_withExitRequeue (requeue : Requeue) (verdict : Verdict) :
    (verdict.withExitRequeue requeue).ExitsWith requeue := ⟨rfl, rfl⟩

/-! No other modifier changes what the invocation asks for. -/

/-- It still does if it is told to exit once more. -/
theorem ExitsWith.withExit (h : verdict.ExitsWith requeue) : verdict.withExit.ExitsWith requeue :=
  ⟨rfl, h.requeue_eq⟩

theorem ExitsWith.withType (h : verdict.ExitsWith requeue) (type : String) :
    (verdict.withType type).ExitsWith requeue := ⟨h.exit_eq, h.requeue_eq⟩

theorem ExitsWith.withPhase (h : verdict.ExitsWith requeue) (phase : Phase) :
    (verdict.withPhase phase).ExitsWith requeue := ⟨h.exit_eq, h.requeue_eq⟩

theorem ExitsWith.withoutEvent (h : verdict.ExitsWith requeue) :
    verdict.withoutEvent.ExitsWith requeue := ⟨h.exit_eq, h.requeue_eq⟩

/-- What such a verdict asks for is recorded, even if the hook fails after it. -/
theorem ExitsWith.recordedAfter (h : verdict.ExitsWith requeue) (hook : Except Report Unit) :
    (Step.recordedAfter (.error (.verdict verdict)) hook).exit = true ∧
      (Step.recordedAfter (.error (.verdict verdict)) hook).requeue = some requeue := by
  cases hook with
  | error report => exact ⟨h.exit_eq, h.requeue_eq⟩
  | ok _ => exact ⟨h.exit_eq, h.requeue_eq⟩

end Verdict

variable {σ : Type} {engine : Engine σ} {now : Timestamp}

/-- What is recorded of a step follows from how its work and its hook have ended. -/
theorem Visit.Begins.exists_recorded {visit : Visit σ} {scene : Scene σ} {store : Store}
    (hBegins : visit.Begins engine now scene store) (hStep : visit.step.Sound) {recorded : Recorded}
    {written : Except WorkError Written}
    (hWorked : (visit.ended engine now).result = .ok (.worked recorded written)) :
    ∃ hook, recorded = Step.recordedAfter
      (Step.outcomeOf (visit.step.work.exec now scene store).result) hook := by
  obtain ⟨base, hCarried⟩ := hBegins.exists_ended
  have hEnded : (engine.carryOut now visit.step (.begun base)).exec now scene store =
      ⟨.ok (.worked recorded written), (visit.ended engine now).scene,
        (visit.ended engine now).store⟩ := by
    rw [← hWorked, ← hCarried]
  obtain ⟨found, left, _, hPerform, hRest⟩ := Task.exec_bind_eq_ok_iff.1 hEnded
  obtain ⟨_, _, _, -, hReturn⟩ := Task.exec_bind_eq_ok_iff.1 hRest
  cases hReturn
  obtain ⟨ended, _, _, _, _, hook, hWork, -, -, -, hRecorded⟩ := Step.of_perform_eq_ok hStep hPerform
  exact ⟨hook, by rw [hWork]; exact hRecorded⟩

namespace Engine

/-- What an engine asks for after a step that has asked for something itself. -/
theorem haltRequeue_some (engine : Engine σ) (step : Step σ) (requeue : Requeue) :
    engine.haltRequeue step (some requeue) =
      if requeue = .none then engine.haltRequeue step none else requeue := by
  rw [haltRequeue, Requeue.firstOf_some_cons, haltRequeue, Requeue.firstOf_none_cons]

/-- A step whose verdict ends the invocation is the last one, and the invocation asks for what the
verdict gives; if that is nothing, it asks for what it would have if the verdict gave nothing at
all. It makes no difference whether the record of the step could be written. -/
theorem run_of_exitsWith {registrations : List (Registration σ)}
    (hBuild : build registrations = .ok engine) {key : Key} {state : σ} {store : Store}
    {visit : Visit σ} (hVisit : visit ∈ engine.itinerary now key state store) {scene : Scene σ}
    {store₁ : Store} (hBegins : visit.Begins engine now scene store₁) {verdict : Verdict}
    {requeue : Requeue} (hExits : verdict.ExitsWith requeue)
    (hWork : (visit.step.work.exec now scene store₁).result = .error (.error (.verdict verdict)))
    {recorded : Recorded} {written : Except WorkError Written}
    (hWorked : (visit.ended engine now).result = .ok (.worked recorded written)) :
    (engine.itinerary now key state store).getLast? = some visit ∧
      ((engine.run now key state).run now store).1.1 =
        .ok (if requeue = .none then engine.haltRequeue visit.step none else requeue) := by
  have hStep := build_sound hBuild visit.step (step_mem_of_mem_itinerary hVisit)
  obtain ⟨hook, hRecorded⟩ := hBegins.exists_recorded hStep hWorked
  rw [hWork] at hRecorded
  obtain ⟨hExit, hRequeue⟩ : recorded.exit = true ∧ recorded.requeue = some requeue :=
    hRecorded ▸ hExits.recordedAfter hook
  have hHalts : (Fate.worked recorded written).halts = true := by
    rw [Fate.halts, hExit, Bool.or_true]
  have hStops : ¬visit.Passes engine now := by
    rintro ⟨fate, hFate, hGoes⟩
    cases hWorked.symm.trans hFate
    rw [hHalts] at hGoes
    cases hGoes
  have hLast := getLast?_itinerary_of_not_passes hVisit hStops
  have hAsked : visit.requeue engine now = .ok (engine.haltRequeue visit.step (some requeue)) := by
    rw [Visit.requeue, hWorked, Except.map, if_pos hHalts, Fate.requeue?, hRequeue]
  refine ⟨hLast, ?_⟩
  rw [run_eq_of_getLast? hLast, hAsked, haltRequeue_some]
  rfl

def throttled : Verdict :=
  (Verdict.mk none .fails "Throttled" "rate limited" none false none none false
    (by decide)).withExitRequeue (.after (.ofSeconds 1)) |>.withPhase .pending |>.withoutEvent

/-- A step with a setting of its own that is throttled, and another one. -/
def throttling : List (Registration Unit) :=
  [.step "Ready" (Task.fail (.verdict throttled)) { onFailure := some (.after (.ofSeconds 10)) },
    .step "Served" (pure ()) {}]

/-- The second step is not visited, and what is asked for is neither the step's setting nor the
engine's. -/
theorem run_of_exitsWith_of_throttling :
    ∃ (engine : Engine Unit) (visit : Visit Unit) (scene : Scene Unit) (store₁ : Store)
      (recorded : Recorded) (written : Except WorkError Written),
      build throttling = .ok engine ∧
      visit ∈ engine.itinerary default Edit.plainResource.key () Edit.plainStore ∧
      visit.Begins engine default scene store₁ ∧
      throttled.ExitsWith (.after (.ofSeconds 1)) ∧
      (visit.step.work.exec default scene store₁).result = .error (.error (.verdict throttled)) ∧
      (visit.ended engine default).result = .ok (.worked recorded written) ∧
      engine.steps.length = 2 ∧
      (engine.itinerary default Edit.plainResource.key () Edit.plainStore).getLast? = some visit ∧
      ((engine.run default Edit.plainResource.key ()).run default Edit.plainStore).1.1 =
        .ok (if Requeue.after (.ofSeconds 1) = .none then engine.haltRequeue visit.step none
          else .after (.ofSeconds 1)) := by
  obtain ⟨engine, hBuild, hSteps, visit, hVisits, scene, store₁, hBegins, hWork, recorded, written,
    hWorked⟩ : ∃ engine : Engine Unit, build throttling = .ok engine ∧ engine.steps.length = 2 ∧
      ∃ visit, engine.itinerary default Edit.plainResource.key () Edit.plainStore = [visit] ∧
      ∃ scene store₁, visit.Begins engine default scene store₁ ∧
        (visit.step.work.exec default scene store₁).result = .error (.error (.verdict throttled)) ∧
      ∃ recorded written, (visit.ended engine default).result = .ok (.worked recorded written) :=
    ⟨_, rfl, rfl, _, rfl, _, _, ⟨_, rfl⟩, rfl, _, _, rfl⟩
  have hVisit : visit ∈ engine.itinerary default Edit.plainResource.key () Edit.plainStore := by
    rw [hVisits]
    exact List.mem_singleton_self visit
  have hExits : throttled.ExitsWith (.after (.ofSeconds 1)) :=
    ((Verdict.exitsWith_withExitRequeue _ _).withPhase _).withoutEvent
  exact ⟨engine, visit, scene, store₁, recorded, written, hBuild, hVisit, hBegins, hExits, hWork,
    hWorked, hSteps, run_of_exitsWith hBuild hVisit hBegins hExits hWork hWorked⟩

def finished : Verdict :=
  (Verdict.mk none .holds "Done" "" none false none none false (by decide)).withExitRequeue .none

/-- A step that finishes the work, and another one. -/
def finishing : List (Registration Unit) :=
  [.step "Ready" (Task.fail (.verdict finished)) {}, .step "Served" (pure ()) {}]

/-- A step that succeeds, is written, and says that nothing is left to do makes the invocation ask
for what is asked for after a failure. -/
theorem not_asGiven_of_finishing :
    ∃ (engine : Engine Unit) (visit : Visit Unit) (scene : Scene Unit) (store₁ : Store),
      build finishing = .ok engine ∧
      engine.itinerary default Edit.plainResource.key () Edit.plainStore = [visit] ∧
      visit.Begins engine default scene store₁ ∧ finished.ExitsWith .none ∧
      (visit.step.work.exec default scene store₁).result = .error (.error (.verdict finished)) ∧
      (visit.ended engine default).result =
        .ok (.worked { exit := true, requeue := some .none } (.ok .statusOnly)) ∧
      ((engine.run default Edit.plainResource.key ()).run default Edit.plainStore).1.1 =
        .ok (.after (.ofSeconds 30)) ∧
      ((engine.run default Edit.plainResource.key ()).run default Edit.plainStore).1.1 ≠
        .ok .none := by
  obtain ⟨engine, hBuild, visit, hVisits, scene, store₁, hBegins, hWork, hWorked, hResult⟩ :
      ∃ engine : Engine Unit, build finishing = .ok engine ∧
      ∃ visit, engine.itinerary default Edit.plainResource.key () Edit.plainStore = [visit] ∧
      ∃ scene store₁, visit.Begins engine default scene store₁ ∧
        (visit.step.work.exec default scene store₁).result = .error (.error (.verdict finished)) ∧
        (visit.ended engine default).result =
          .ok (.worked { exit := true, requeue := some .none } (.ok .statusOnly)) ∧
        ((engine.run default Edit.plainResource.key ()).run default Edit.plainStore).1.1 =
          .ok (.after (.ofSeconds 30)) :=
    ⟨_, rfl, _, rfl, _, _, ⟨_, rfl⟩, rfl, rfl, rfl⟩
  refine ⟨engine, visit, scene, store₁, hBuild, hVisits, hBegins,
    Verdict.exitsWith_withExitRequeue _ _, hWork, hWorked, hResult, ?_⟩
  rw [hResult]
  intro hSame
  exact Requeue.after_ne_none _ (Except.ok.inj hSame)

end Engine

end Reconciliation
