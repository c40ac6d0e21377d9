import Reconciliation.Proofs.Edit.Effect
import Reconciliation.Proofs.Engine.Conduct

namespace Reconciliation.Step

variable {σ : Type} {step : Step σ} {now : Timestamp} {catches : Bool}
  {sink : Option (EventSink σ)} {scene scene' : Scene σ} {store store' : Store}

structure Quiet (step : Step σ) : Prop where
  work : step.work.Quiet
  hook : ∀ hook, step.hook = some hook → hook.Quiet
  onFail : ∀ callback, step.onFail = some callback → callback.Quiet

theorem Quiet.conducts (hStep : step.Quiet) :
    step.Conducts (fun _ => False) (fun _ _ => True) fun _ => () where
  work := Task.quiet_iff_conducts.1 hStep.work
  hook hook hHook := Task.quiet_iff_conducts.1 (hStep.hook hook hHook)
  onFail callback hCallback := Task.quiet_iff_conducts.1 (hStep.onFail callback hCallback)

theorem Quiet.runHook (hStep : step.Quiet) : step.runHook.Quiet :=
  Task.quiet_iff_conducts.2 hStep.conducts.runHook

theorem Quiet.settling (hStep : step.Quiet) (outcome : Except Objection Unit) :
    (step.settling now sink outcome).Quiet :=
  Task.quiet_iff_conducts.2 (hStep.conducts.settling (fun _ _ => rfl) now outcome)

/-- A performance makes no requests if its parts make none. -/
theorem Quiet.perform (hStep : step.Quiet) : (step.perform now catches sink).Quiet :=
  Task.quiet_iff_conducts.2 (hStep.conducts.perform (fun _ _ => rfl) now catches)

/-- What the hook finds after work that has left `left`: what the outcome calls for, in the state
that the sink and the callback for failures leave. -/
def told (step : Step σ) (now : Timestamp) (sink : Option (EventSink σ))
    (outcome : Except Objection Unit) (left : Scene σ) (store : Store) : Scene σ where
  resource := step.settle now outcome left.resource
  state := ((step.settling now sink outcome).exec now left store).scene.state

/-- What comes of a step whose work has ended with `ended` and left `left`, and whose hook has ended
with `hook` and left `settled`. -/
structure Observed (step : Step σ) (now : Timestamp) (sink : Option (EventSink σ))
    (scene : Scene σ) (store : Store) (recorded : Option Recorded) (store' : Store)
    (fetched : Resource) (ended : Except (Stop Objection) Unit) (left : Scene σ)
    (hook : Except Report Unit) (settled : Scene σ) : Prop where
  get_eq : (store.get scene.resource.key).1 = .ok fetched
  work_eq : step.work.exec now { scene with resource := fetched } store = ⟨ended, left, store⟩
  hook_eq : (step.runHook.attempt : Task σ Empty _).exec now
    (step.told now sink (outcomeOf ended) left store) store = ⟨.ok hook, settled, store⟩
  recorded_eq : recorded = some (recordedAfter (outcomeOf ended) hook)
  /-- What stands in the store is what the settled resource is read as, which is that resource
  itself unless its further status members are in the way of its standing. -/
  readBack : (Json.object settled.resource.toObject).hasNull = false →
    store'.contains scene.resource.key = true →
    ∃ read found, Resource.ofJson (.object settled.resource.toObject) = .ok read ∧
      store'.peek scene.resource.key = some found ∧ found.AgreeBesideVersion read ∧
      (¬settled.resource.Shadows → read = settled.resource)

/-- A step whose result was written on a store that nobody else uses. -/
theorem exists_observed_of_edit {type : String} {work : Task σ Objection Unit}
    {options : StepOptions σ} {edited : Edited Recorded} {written : Written}
    (hStep : make type work options = .ok step) (hStore : store.Reachable) (hQuiet : step.Quiet)
    (hRun : (step.edit now catches sink).run.exec now scene store = ⟨.ok edited, scene', store'⟩)
    (hWritten : edited.written = .ok written) :
    ∃ fetched ended left hook settled, step.Observed now sink scene store edited.mutation store'
      fetched ended left hook settled := by
  obtain ⟨-, hSound⟩ := of_make_eq_ok hStep
  obtain ⟨course, made, hValue, -, hWrites, -⟩ := Edit.exists_course_of_exec hQuiet.perform
    (by rintro _ ⟨⟩) hRun hWritten fun _ _ => rfl
  obtain ⟨ended, left, store₁, settling, store₂, hook, hWork, hSettling, hSettled, hHook,
    hRecorded⟩ := of_perform_eq_ok hSound course.mutate_eq
  obtain ⟨rfl, hWorked⟩ := hQuiet.work.exec_store hWork store
  obtain ⟨-, hToldState⟩ := (hQuiet.settling _).exec_store hSettling store
  obtain ⟨-, hHooked⟩ := hQuiet.runHook.attempt.exec_store hHook store
  have hTold : settling = step.told now sink (outcomeOf ended) left store := by
    rw [told, hToldState, ← hSettled]
  refine ⟨course.base.resource, ended, left, hook, course.mutated, ?_⟩
  exact {
    get_eq := congrArg Prod.fst course.get_eq
    work_eq := hWorked
    hook_eq := hTold ▸ hHooked
    recorded_eq := hRecorded ▸ hValue
    readBack := course.readBack hStore rfl hWrites }

def refusal : Verdict where
  type := some "Admitted"
  status := .fails
  reason := "Refused"
  message := ""
  phase := some .invalid
  source := some (.ofMessage "full")
  reason_valid := by decide

def refusing : Task Nat Objection Unit := do
  Task.modifyResource fun resource => { resource with
    metadata := { resource.metadata with generation := some 7 }
    spec := .bool true }
  Task.fail (.verdict refusal)

theorem exists_observed_of_refusing :
    ∃ step edited scene' store', make "Ready" refusing { hook := some Edit.countingHook.widen } =
        .ok step ∧
      (step.edit default true none).run.exec default ⟨Edit.plainResource, 0⟩ Edit.plainStore =
        ⟨.ok edited, scene', store'⟩ ∧ edited.written = .ok .mainAndStatus ∧
      ∃ fetched ended left hook settled, step.Observed default none ⟨Edit.plainResource, 0⟩
        Edit.plainStore edited.mutation store' fetched ended left hook settled := by
  obtain ⟨step, hStep, hQuiet, edited, scene', store', hRun, hWritten⟩ : ∃ step,
      make "Ready" refusing { hook := some Edit.countingHook.widen } = .ok step ∧ step.Quiet ∧
      ∃ edited scene' store', (step.edit default true none).run.exec default
        ⟨Edit.plainResource, 0⟩ Edit.plainStore = ⟨.ok edited, scene', store'⟩ ∧
        edited.written = .ok .mainAndStatus :=
    ⟨_, rfl, ⟨fun _ => ⟨_, rfl⟩, by rintro _ ⟨⟩ scene; exact ⟨_, rfl⟩, by rintro _ ⟨⟩⟩,
      _, _, _, rfl, rfl⟩
  exact ⟨step, edited, scene', store', hStep, hRun, hWritten,
    exists_observed_of_edit hStep Edit.plainStore_reachable hQuiet hRun hWritten⟩

/-- Puts conditions among the further members of the status. -/
def shadowing : Task Unit Objection Unit :=
  Task.modifyResource fun resource => { resource with
    status := some { extra := Json.Object.ofList [("conditions", .array [.object
      (Json.Object.ofList [("type", .string "A"), ("status", .string "True"),
        ("reason", .string "R"), ("message", .string "m")])])] } }

/-- A condition is not read back where further status members stand in its place. -/
theorem not_agree_of_shadowingStep :
    ∃ step found, make "Ready" shadowing {} = .ok step ∧ Edit.plainStore.Reachable ∧ step.Quiet ∧
      let execution := (step.edit default true none).run.exec default ⟨Edit.plainResource, ()⟩
        Edit.plainStore
      let left := (shadowing.exec default ⟨Edit.plainResource, ()⟩ Edit.plainStore).scene.resource
      let settled := step.settle default (.ok ()) left
      execution.result = .ok { mutation := some {}, written := .ok .statusOnly } ∧
        (Json.object settled.toObject).hasNull = false ∧
        execution.store.contains Edit.plainResource.key = true ∧
        execution.store.peek Edit.plainResource.key = some found ∧
        found.standing.find? "Ready" = none ∧ ¬found.AgreeBesideVersion settled := by
  have hQuiet : (ofOptions "Ready" shadowing {}).Quiet :=
    ⟨fun _ => ⟨_, rfl⟩, by rintro _ ⟨⟩, by rintro _ ⟨⟩⟩
  refine ⟨_, _, rfl, Edit.plainStore_reachable, hQuiet, rfl, rfl, rfl, rfl, rfl, ?_⟩
  intro hAgree
  cases hAgree.status with
  | some hStatus => exact absurd hStatus.standing (by decide)

end Reconciliation.Step
