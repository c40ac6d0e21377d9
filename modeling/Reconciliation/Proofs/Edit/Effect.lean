import Reconciliation.Proofs.Edit.ReadBack

namespace Reconciliation

/-- The kind of a request, if it is one of those that are counted. -/
def Request.verb? : Request → Option Verb
  | .get _ => some .get
  | .update _ => some .update
  | .updateStatus _ => some .updateStatus
  | .patch .. => some .patch
  | .patchStatus .. => some .patchStatus
  | .insert _ | .peek _ | .delete _ | .failOn _ | .clearFailures => none

namespace Edit

variable {σ : Type} {now : Timestamp} {scene scene' : Scene σ} {store store' : Store}

/-- What an edit says it has written if everything but the status differs or not, and the status
differs or not. -/
def writtenFor (main status : Bool) : Written :=
  match main, status with
  | false, false => .nothing
  | true, false => .main
  | true, true => .mainAndStatus
  | false, true => .statusOnly

/-- A part is written by one request of its own if and only if it differs, the main part before the
status. -/
theorem Writes.requests {base : Base} {resource result : Resource} {after : Snapshot}
    {written : Written} {made : List Request}
    (h : Writes base resource after store written made result store') :
    made.map Request.verb? =
        (if base.snapshot.MainAgree after then [] else [some .patch]) ++
          (if base.snapshot.StatusAgree after then [] else [some .patchStatus]) ∧
      written = writtenFor (!decide (base.snapshot.MainAgree after))
        (!decide (base.snapshot.StatusAgree after)) := by
  cases h with
  | nothing hMain hStatus => simp [hMain, hStatus, writtenFor]
  | main hMain hStatus => simp [hMain, hStatus, writtenFor, Request.verb?]
  | mainAndStatus hMain hStatus => simp [hMain, hStatus, writtenFor, Request.verb?]
  | statusOnly hMain hStatus => simp [hMain, hStatus, writtenFor, Request.verb?]

/-- What a quiet hook leaves does not depend on the store. -/
theorem settle_eq {onChange : Option (Task σ Empty Unit)} {before changed : Snapshot}
    (hHook : ∀ hook, onChange = some hook → hook.Quiet) (store store' : Store) :
    settle now onChange before changed scene store' =
      settle now onChange before changed scene store := by
  cases onChange with
  | none => rfl
  | some hook =>
      obtain ⟨result, left, hExec⟩ := (hHook hook rfl).exec_eq now scene
      simp only [settle, hExec]

/-- The resource keeps its key if the hook leaves it that. -/
theorem settle_key {onChange : Option (Task σ Empty Unit)} {before changed : Snapshot}
    (hKey : ∀ hook, onChange = some hook → ∀ scene store,
      (hook.exec now scene store).scene.resource.key = scene.resource.key) :
    (settle now onChange before changed scene store).resource.key = scene.resource.key := by
  cases onChange with
  | none => rfl
  | some hook =>
      rw [settle]
      split
      · rfl
      · exact hKey hook rfl scene store

/-- How an edit ends whose mutation may fail. -/
theorem of_runTask_eq_ok {mutate : Task σ Report Unit} {persistent : Bool}
    {onChange : Option (Task σ Empty Unit)} {outcome : Outcome}
    (hRun : (runTask mutate persistent onChange).exec now scene store =
      ⟨.ok outcome, scene', store'⟩) :
    ∃ edited, (ofTask mutate persistent onChange).run.exec now scene store =
        ⟨.ok edited, scene', store'⟩ ∧
      edited.written = .ok outcome.written ∧
      (∀ report, edited.mutation = some (.error report) → outcome.failure = some report) ∧
      ((runTask mutate persistent onChange) scene).requests now store =
        ((ofTask mutate persistent onChange).run scene).requests now store := by
  have hEnds : (runTask mutate persistent onChange).Ends now scene store _
      ⟨.ok outcome, scene', store'⟩ := ⟨hRun, rfl⟩
  obtain ⟨_, _, edited, _, _, hMade, hEdited, hRest⟩ := Task.ends_bind_ok_iff.1 hEnds
  obtain ⟨_, _, written, _, _, rfl, hWritten, hReturn⟩ := Task.ends_bind_ok_iff.1 hRest
  obtain ⟨rfl, hGiven, rfl, rfl⟩ := Task.ends_ofExcept_ok_iff.1 hWritten
  obtain ⟨rfl, hOutcome⟩ := Task.ends_pure_iff.1 hReturn
  cases hOutcome
  have hRunEnds := Task.ends_widen_ok_iff.1 hEdited
  refine ⟨edited, hRunEnds.exec, hGiven, ?_, ?_⟩
  · intro report hMutation
    simp [hMutation]
  · rw [hMade, ← hRunEnds.requests]
    simp

/-- An edit without a hook whose mutation succeeds. -/
theorem ends_runTask {mutate : Task σ Report Unit} {persistent : Bool} {base : Base}
    {after : Snapshot} {scene₁ : Scene σ} {store₁ : Store}
    {written : Written} {first second third : List Request} {mutated : Scene σ}
    {result : Resource} {store₂ : Store}
    (hFetch : fetch.Ends now scene store first ⟨.ok base, scene₁, store₁⟩)
    (hMutate : mutate.Ends now scene₁ store₁ second ⟨.ok (), mutated, store₂⟩)
    (hKey : mutated.resource.key = base.key) (hAfter : mutated.resource.snapshot = .ok after)
    (hWrites : Writes base mutated.resource after store₂ written third result store') :
    (runTask mutate persistent).Ends now scene store (first ++ (second ++ third))
      ⟨.ok { written, failure := none }, { mutated with resource := result }, store'⟩ := by
  have hPersist : (persist base ((ofTask mutate persistent none).aborts (.ok ())) none).Ends now
      mutated store₂ third ⟨.ok written, { mutated with resource := result }, store'⟩ := by
    have hWrite : (write base after).Ends now mutated store₂ third _ := hWrites.ends
    have hAborts : (ofTask mutate persistent none).aborts (.ok ()) = false := by
      simp [ofTask, Except.isOk, Except.toBool]
    rw [hAborts]
    constructor
    · rw [← hWrite.exec, Task.exec, persist_of_snapshot hKey hAfter, Task.exec]
    · rw [← hWrite.requests, persist_of_snapshot hKey hAfter]
  have hRun : (ofTask mutate persistent none).run.Ends now scene store (first ++ (second ++ third))
      ⟨.ok { mutation := some (.ok ()), written := .ok written },
        { mutated with resource := result }, store'⟩ :=
    ends_run hFetch (Task.ends_attempt_ok_iff.2 hMutate) hPersist
  refine Task.ends_bind_ok_iff.2
    ⟨_, [], _, _, _, (List.append_nil _).symm, Task.ends_widen_ok_iff.2 hRun, ?_⟩
  exact Task.ends_bind_ok_iff.2 ⟨[], [], _, _, _, rfl,
    Task.ends_ofExcept_ok_iff.2 ⟨rfl, rfl, rfl, rfl⟩, Task.ends_pure_iff.2 ⟨rfl, rfl⟩⟩

/-- The effect of an edit that has come to `outcome`: from the snapshot `before` of what was fetched
over the snapshot `changed` of what the mutation has made of it to the snapshot `after` of what the
hook has made of that. -/
structure Effect (now : Timestamp) (mutate : Task σ Report Unit) (persistent : Bool)
    (onChange : Option (Task σ Empty Unit)) (scene : Scene σ) (store : Store) (outcome : Outcome)
    (scene' : Scene σ) (store' : Store) (fetched : Resource) (before changed after : Snapshot)
    (settled : Scene σ) : Prop where
  get_eq : (store.get scene.resource.key).1 = .ok fetched
  before_eq : fetched.snapshot = .ok before
  changed_eq : (mutate.exec now { scene with resource := fetched } store).scene.resource.snapshot =
    .ok changed
  /-- The hook runs once if the mutation alone has changed the resource, and else not at all. -/
  settled_eq : settled = settle now onChange before changed
    (mutate.exec now { scene with resource := fetched } store).scene store
  after_eq : settled.resource.snapshot = .ok after
  /-- After the resource is fetched, there is one patch of what is not the status if that differs,
  and then one patch of the status if that differs. -/
  requests : ((runTask mutate persistent onChange scene).requests now store).map Request.verb? =
    some .get :: ((if before.MainAgree after then [] else [some .patch]) ++
      (if before.StatusAgree after then [] else [some .patchStatus]))
  written : outcome.written =
    writtenFor (!decide (before.MainAgree after)) (!decide (before.StatusAgree after))
  state : scene'.state = settled.state
  /-- What stands in the store is what the written resource is read as, which is that resource
  itself unless its further status members are in the way of its standing. -/
  readBack : (Json.object settled.resource.toObject).hasNull = false →
    store'.contains scene.resource.key = true →
    ∃ read found, Resource.ofJson (.object settled.resource.toObject) = .ok read ∧
      store'.peek scene.resource.key = some found ∧ found.AgreeBesideVersion read ∧
      (¬settled.resource.Shadows → read = settled.resource)

/-- An edit on a store that nobody else uses has the effect that its snapshots call for. -/
theorem exists_effect_of_runTask {mutate : Task σ Report Unit} {persistent : Bool}
    {onChange : Option (Task σ Empty Unit)} {outcome : Outcome} (hStore : store.Reachable)
    (hMutate : mutate.Quiet) (hHook : ∀ hook, onChange = some hook → hook.Quiet)
    (hHookKey : ∀ hook, onChange = some hook → ∀ scene store,
      (hook.exec now scene store).scene.resource.key = scene.resource.key)
    (hRun : (runTask mutate persistent onChange).exec now scene store =
      ⟨.ok outcome, scene', store'⟩)
    (hDone : outcome.failure = none ∨ persistent = true) :
    ∃ fetched before changed after settled, Effect now mutate persistent onChange scene store
      outcome scene' store' fetched before changed after settled := by
  obtain ⟨edited, hEdited, hWritten, hFailure, hSame⟩ := of_runTask_eq_ok hRun
  have hKeeps : ∀ value, edited.mutation = some value →
      (ofTask mutate persistent onChange).aborts value = false := by
    intro value hValue
    cases value with
    | ok _ => simp [ofTask, Except.isOk, Except.toBool]
    | error report =>
        rcases hDone with hNone | hPersistent
        · rw [hFailure report hValue] at hNone
          cases hNone
        · simp [ofTask, hPersistent]
  obtain ⟨course, made, -, hState, hWrites, hMade⟩ :=
    exists_course_of_exec hMutate.attempt hHook hEdited hWritten hKeeps
  obtain ⟨hRequests, hNamed⟩ := hWrites.requests
  have hMutated : course.mutated =
      (mutate.exec now { scene with resource := course.base.resource } store).scene := by
    obtain ⟨result, left, hExec⟩ :=
      hMutate.exec_eq now { scene with resource := course.base.resource }
    have hCourse := course.mutate_eq
    simp only [ofTask, Task.exec_attempt, hExec] at hCourse
    rw [hExec]
    exact (congrArg Execution.scene hCourse).symm
  refine ⟨course.base.resource, course.base.snapshot, course.changed, course.after,
    course.settled, ?_⟩
  exact {
    get_eq := congrArg Prod.fst course.get_eq
    before_eq := course.snapshot_eq
    changed_eq := hMutated ▸ course.changed_eq
    settled_eq := hMutated ▸ settle_eq hHook store course.fetched
    after_eq := course.after_eq
    requests := by
      rw [hSame, hMade, List.map_cons, hRequests]
      rfl
    written := hNamed
    state := hState
    readBack := course.readBack hStore (settle_key hHookKey) hWrites }

/-- A resource as a store with nothing else in it answers with it. -/
def plainResource : Resource :=
  { metadata := { name := "a", version := some "1" }, spec := .object .nil }

def plainStore : Store := (Store.insert plainResource {}).2

theorem plainStore_reachable : plainStore.Reachable :=
  .serve .empty default (.insert plainResource)

/-- Changes the specification and the phase, and fails. -/
def halfDone : Task Nat Report Unit := do
  Task.modifyResource fun resource => { resource with spec := .bool true }
  Task.modifyResource (Resource.setPhase .running)
  Task.fail (.ofMessage "late")

/-- Counts its runs and adds a finalizer. -/
def countingHook : Task Nat Empty Unit := do
  Task.modifyState fun _ count => count + 1
  Task.modifyResource (Resource.addFinalizer "f")

theorem exists_effect_of_halfDone :
    ∃ outcome scene' store', outcome.failure = some (.ofMessage "late") ∧ scene'.state = 1 ∧
      ∃ fetched before changed after settled, Effect default halfDone true (some countingHook)
        ⟨plainResource, 0⟩ plainStore outcome scene' store' fetched before changed after settled :=
  ⟨{ written := .mainAndStatus, failure := some (.ofMessage "late") }, _, _, rfl, rfl,
    exists_effect_of_runTask plainStore_reachable (fun _ => ⟨_, rfl⟩)
      (by rintro _ ⟨⟩ scene; exact ⟨_, rfl⟩)
      (by
        rintro _ ⟨⟩ scene store
        show (Resource.addFinalizer "f" scene.resource).key = scene.resource.key
        unfold Resource.addFinalizer
        split <;> rfl)
      rfl (.inr rfl)⟩

/-- Puts conditions among the further members of the status, one of them without a message. -/
def shadowing : Task Unit Report Unit :=
  Task.modifyResource fun resource => { resource with
    status := some { extra := Json.Object.ofList [("conditions", .array [.object
      (Json.Object.ofList [("type", .string "A"), ("status", .string "True"),
        ("reason", .string "R")])])] } }

/-- Further status members that stand where the standing belongs are read back in another form. -/
theorem not_agree_of_shadowing :
    plainStore.Reachable ∧ shadowing.Quiet ∧
      ∃ found, let execution := (runTask shadowing).exec default ⟨plainResource, ()⟩ plainStore
        let after := (shadowing.exec default ⟨plainResource, ()⟩ plainStore).scene.resource
        (plainStore.get plainResource.key).1 = .ok plainResource ∧
        execution.result = .ok { written := .statusOnly, failure := none } ∧
        (Json.object after.toObject).hasNull = false ∧
        execution.store.contains plainResource.key = true ∧
        execution.store.peek plainResource.key = some found ∧
        ¬found.AgreeBesideVersion after ∧
        ¬(found.status.map Status.toJson).map Json.plain =
          (after.status.map Status.toJson).map Json.plain := by
  refine ⟨plainStore_reachable, fun _ => ⟨_, rfl⟩, _, rfl, rfl, rfl, rfl, rfl, ?_, by decide⟩
  intro hAgree
  cases hAgree.status with
  | some hStatus => exact absurd hStatus.standing (by decide)

end Edit

end Reconciliation
