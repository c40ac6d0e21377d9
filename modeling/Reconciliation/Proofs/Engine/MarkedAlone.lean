import Reconciliation.Proofs.Condition.LastWrite
import Reconciliation.Proofs.Engine.Alone
import Reconciliation.Proofs.Engine.Marking
import Reconciliation.Proofs.Resource.Legible
import Reconciliation.Proofs.Resource.RoundTrip

/-!
Steps that are marked and done alone. Nothing is fetched before the mark is written: the status of the
resource that the caller has in hand takes the place of the stored one. What stands in the status
afterwards, beside the conditions of the step's type and the phase, is what the caller had, and if the
caller did not have what others have put there, that is lost.
-/
namespace Reconciliation

namespace Resource

/-- What is reported in the status beside the standing. -/
def extra (resource : Resource) : Json.Object :=
  resource.status.elim .nil Status.extra

/-- Two resources whose status agree but for the conditions of a type and the phase. -/
structure AgreeBeside (type : String) (a b : Resource) : Prop where
  conditions : (b.standing.conditions.filter fun condition => condition.type ≠ type) =
    a.standing.conditions.filter fun condition => condition.type ≠ type
  extra : b.extra = a.extra

namespace AgreeBeside

variable {type : String} {a b c : Resource}

theorem of_status_eq (type : String) (h : b.status = a.status) : AgreeBeside type a b := by
  constructor
  · rw [standing, standing, h]
  · rw [Resource.extra, Resource.extra, h]

theorem symm (h : AgreeBeside type a b) : AgreeBeside type b a :=
  ⟨h.conditions.symm, h.extra.symm⟩

theorem trans (h : AgreeBeside type a b) (h' : AgreeBeside type b c) : AgreeBeside type a c :=
  ⟨h'.conditions.trans h.conditions, h'.extra.trans h.extra⟩

end AgreeBeside

theorem conditions_setCondition (now : Timestamp) (condition : Condition) (resource : Resource) :
    (resource.setCondition now condition).standing.conditions =
      Condition.setIn now condition resource.standing.conditions := by
  cases hStatus : resource.status <;>
    simp [standing, setCondition, mapStanding, mapStatus, Standing.set, hStatus]

theorem conditions_setPhase (phase : Phase) (resource : Resource) :
    (resource.setPhase phase).standing.conditions = resource.standing.conditions := by
  cases hStatus : resource.status <;>
    simp [standing, setPhase, mapStanding, mapStatus, hStatus]

theorem extra_mapStanding (f : Standing → Standing) (resource : Resource) :
    (resource.mapStanding f).extra = resource.extra := by
  cases hStatus : resource.status <;> simp [extra, mapStanding, mapStatus, hStatus]

theorem agreeBeside_setCondition (now : Timestamp) (condition : Condition) (resource : Resource) :
    AgreeBeside condition.type resource (resource.setCondition now condition) :=
  ⟨by rw [conditions_setCondition, Condition.filter_setIn], extra_mapStanding _ resource⟩

theorem agreeBeside_setPhase (type : String) (phase : Phase) (resource : Resource) :
    AgreeBeside type resource (resource.setPhase phase) :=
  ⟨by rw [conditions_setPhase], extra_mapStanding _ resource⟩

end Resource

/-- A status that is read has no further members where its standing belongs. -/
theorem Status.MayReadFrom.clear {document : Option Json} {status : Option Status}
    (h : MayReadFrom document status) :
    (status.elim .nil Status.extra).get? "conditions" = none ∧
      (status.elim .nil Status.extra).get? "phase" = none := by
  cases h with
  | absent | null => exact ⟨rfl, rfl⟩
  | object h => exact not_shadows_iff.1 h.not_shadows

/-- A change of a status that leaves its further members alone leaves them alone in what is stored.
-/
theorem Status.MayReadFrom.extra_of_patchedStatus {document : Json} {metadata : Json.Object}
    {spec stored : Option Json} {base result : Option Status} {new : Status}
    (hParts : document.Parts metadata spec stored) (h : MayReadFrom stored base)
    (hExtra : new.extra = base.elim .nil Status.extra)
    (hResult : MayReadFrom
      (Store.patchedStatus (base.map toJson) (some new.toJson) document).status? result) :
    ∃ status, result = some status ∧ status.extra = new.extra := by
  have hPlain : ¬new.Shadows := by
    rw [not_shadows_iff, hExtra]
    exact h.clear
  rw [← Option.map_some] at hResult
  rcases h.status?_patchedStatus hParts (some new) with
    hSame | ⟨target, before, after, hTarget, rfl, hNew, hMerged⟩
  · rw [hSame] at hResult
    cases hResult with
    | @object _ status hRead => exact ⟨status, rfl, by rw [hRead.eq_of_toObject hPlain]⟩
  · cases hNew
    rw [hMerged] at hResult
    cases hResult with
    | @object _ status hRead =>
        refine ⟨status, rfl, ?_⟩
        rw [hRead.extra, hExtra, Option.elim_some, hTarget.extra]
        refine Members.ext fun key => ?_
        rw [get?_further, get?_further]
        by_cases hKey : key = "conditions" ∨ key = "phase"
        · rw [if_pos hKey, if_pos hKey]
        · rw [if_neg hKey, if_neg hKey]
          refine Json.get?_mergeMembers_diffObjects_of_eq ?_
          rw [get?_toObject, get?_toObject, Standing.get?_toObject, Standing.get?_toObject, hExtra]
          obtain ⟨hConditions, hPhase⟩ := not_or.1 hKey
          simp [hConditions, hPhase]

namespace Store

variable {store store' : Store} {key : Key} {body : Json} {type : String}
  {given base target : Resource}

/-- What stands under a key has a body, and its status is that of a resource but for the conditions
of a type and the phase. -/
def Bears (store : Store) (key : Key) (body : Json) (type : String) (given : Resource) : Prop :=
  ∃ document found, store.objects.get? key = some document ∧ body.SameBody document ∧
    Resource.ofJson document = .ok found ∧ given.AgreeBeside type found

theorem Bears.of_objects_eq (h : store.Bears key body type given)
    (hObjects : store'.objects = store.objects) : store'.Bears key body type given := by
  rw [Bears, hObjects]
  exact h

/-- It stands there still when a status is changed that agrees with it in the same way. -/
theorem Bears.patchStatus (h : store.Bears key body type given) (hStore : store.Reachable)
    {document : Json} {new : Status} (hStored : store.objects.get? key = some document)
    (hRead : Resource.ofJson document = .ok base) (hKey : target.key = key)
    (hNew : target.status = some new) (hSound : new.standing.Sound)
    (hBeside : base.AgreeBeside type target) :
    (store.patchStatus target base).2.Bears key body type given := by
  obtain ⟨_, found, hSame, hBody, hFound, hGiven⟩ := h
  cases hStored.symm.trans hSame
  cases hRead.symm.trans hFound
  subst hKey
  rcases patchStatus_cases hStore target base with
    ⟨_, -, -, hUnharmed⟩ | ⟨old, document', hRestates, hDocument, -⟩
  · rw [hUnharmed.kept]
    exact ⟨document, base, hStored, hBody, hRead, hGiven⟩
  · cases hStored.symm.trans hRestates.stored
    have hHasParts := (hStore.sound.stored hStored).1
    obtain ⟨metadata, spec, stored, hParts⟩ := id hHasParts
    have hMay := Resource.mayReadFrom_of_ofJson hHasParts hRead
    rw [hParts.status] at hMay
    have hExtra : new.extra = base.status.elim .nil Status.extra := by
      have hSameExtra := hBeside.extra
      rwa [Resource.extra, hNew] at hSameExtra
    have hPlain : ¬new.Shadows := by
      rw [Status.not_shadows_iff, hExtra]
      exact hMay.clear
    have hLegible : document'.Legible := by
      rw [hDocument]
      refine Json.Legible.withVersion ?_ (hasParts_patchedStatus hHasParts _ _) _
      refine Json.Legible.patchedStatus ⟨base, hRead⟩ hHasParts base.status ⟨some new, ?_⟩
      rw [hNew]
      exact .object (Status.readFrom_toObject hSound hPlain)
    obtain ⟨found, hFound⟩ := hLegible
    have hPatched := Resource.mayReadFrom_of_ofJson
      ((hStore.serve default (.patchStatus target base)).sound.stored hRestates.written).1 hFound
    rw [hRestates.status_eq, hNew] at hPatched
    obtain ⟨status, hStatus, hFoundExtra⟩ := hMay.extra_of_patchedStatus hParts hExtra hPatched
    obtain ⟨_, hSameStatus, hConditions⟩ :=
      hMay.conditions_eq_of_patchedStatus hParts (Status.not_shadows_iff.1 hPlain).1 hPatched
    cases hStatus.symm.trans hSameStatus
    have hLast : target.AgreeBeside type found := by
      constructor
      · rw [Resource.standing, Resource.standing, hStatus, hNew, Option.elim_some, hConditions,
          Option.elim_some]
      · rw [Resource.extra, Resource.extra, hStatus, hNew, Option.elim_some, hFoundExtra,
          Option.elim_some]
    exact ⟨document', found, hRestates.written, hBody.trans hRestates.sameBody, hFound,
      hGiven.trans (hBeside.trans hLast)⟩

end Store

variable {σ μ : Type} {now : Timestamp} {scene : Scene σ} {store : Store}

namespace Edit

/-- If nothing but the status has changed, nothing but that is written. -/
theorem store_persist_cases {base : Base} (hKey : scene.resource.key = base.key)
    (hMain : ∀ after, scene.resource.snapshot = .ok after → base.snapshot.MainAgree after) :
    ((persist base false none).exec now scene store).store = store ∨
      ((persist base false none).exec now scene store).store =
        (store.patchStatus scene.resource base.resource).2 := by
  cases hAfter : scene.resource.snapshot with
  | error error =>
      rw [exec_persist_of_snapshot_error hKey hAfter]
      exact .inl rfl
  | ok after =>
      rw [Task.exec, persist_of_snapshot hKey hAfter, ← Task.exec]
      by_cases hStatus : base.snapshot.StatusAgree after
      · rw [write, decide_eq_true (hMain after hAfter), decide_eq_true hStatus]
        exact .inl rfl
      · rw [write, decide_eq_true (hMain after hAfter), decide_eq_false hStatus]
        refine .inr ?_
        have hPatch : (Task.patchStatus scene.resource base.resource : Task σ WorkError _).exec now
            scene store = _ := Task.exec_patchStatus now scene store scene.resource base.resource
        rw [Task.exec_bind_pure, writeStatus, Task.exec_bind, Task.exec_resource,
          Execution.andThen_ok]
        rcases hAnswer : (store.patchStatus scene.resource base.resource).1 with error | result
        · rw [hAnswer] at hPatch
          rw [exec_renew_of_error hPatch]
        · rw [hAnswer] at hPatch
          rw [exec_renew_of_ok hPatch]

end Edit

/-- Work that changes nothing and reports on the condition of its step. -/
def Task.Reports (work : Task σ Objection Unit) (type : String) : Prop :=
  ∀ scene, ∃ ended, work scene = .done ended ∧ ended.2.resource = scene.resource ∧
    ∀ verdict, ended.1 = .error (.error (.verdict verdict)) → verdict.typeOr type = type

theorem Condition.sound_setIn {new : Condition} {conditions : List Condition}
    (hNow : now.InCalendar) (hNew : new.Sound) (h : ∀ condition ∈ conditions, condition.Sound) :
    ∀ condition ∈ setIn now new conditions, condition.Sound := by
  have hSince : ∀ t ∈ some (new.since.getD now), Codec.timestamp.Sound t := by
    rintro t ⟨⟩
    cases hGiven : new.since with
    | none => exact Timestamp.inCalendar_iff_sound.1 hNow
    | some since => exact hNew since hGiven
  induction conditions with
  | nil =>
      intro condition hMem
      rw [List.mem_singleton.1 hMem]
      exact hSince
  | cons head rest ih =>
      intro condition hMem
      have hHead := h head List.mem_cons_self
      have hRest := fun condition hMem => h condition (List.mem_cons_of_mem _ hMem)
      by_cases hType : head.type = new.type
      · rw [setIn, if_pos hType] at hMem
        rcases List.mem_cons.1 hMem with rfl | hLater
        · rw [Condition.Sound, renew]
          split
          · exact hHead
          · exact hSince
        · exact hRest condition hLater
      · rw [setIn, if_neg hType] at hMem
        rcases List.mem_cons.1 hMem with rfl | hLater
        · exact hHead
        · exact ih hRest condition hLater

/-- What is read from a status has conditions that can be read back. -/
theorem Status.MayReadFrom.sound_conditions {document : Option Json} {status : Option Status}
    (h : MayReadFrom document status) :
    ∀ condition ∈ (status.elim {} Status.standing).conditions, condition.Sound := by
  cases h with
  | absent | null => exact fun _ hMem => absurd hMem List.not_mem_nil
  | @object object status h =>
      exact fun condition hMem => h.sound (List.isEmpty_eq_false_iff_exists_mem.2 ⟨_, hMem⟩) _ hMem

namespace Step

variable {step : Step σ} {outcome : Except Objection Unit} {resource : Resource}

/-- An outcome is recorded in the status and nowhere else. -/
theorem settle_eq_withStatus (step : Step σ) (now : Timestamp) (outcome : Except Objection Unit)
    (resource : Resource) : step.settle now outcome resource =
      { resource with status := (step.settle now outcome resource).status } := by
  unfold settle
  cases step.phaseFor outcome <;> rfl

/-- What an outcome on the condition of its own type calls for leaves the others alone. -/
theorem agreeBeside_settle (hType : (step.conditionFor outcome).type = step.type) (now : Timestamp)
    (resource : Resource) :
    resource.AgreeBeside step.type (step.settle now outcome resource) := by
  have hSet (given : Resource) : given.AgreeBeside step.type (given.setCondition now
      { step.conditionFor outcome with generation := resource.metadata.generation }) :=
    hType ▸ Resource.agreeBeside_setCondition now
      { step.conditionFor outcome with generation := resource.metadata.generation } given
  unfold settle
  cases step.phaseFor outcome with
  | none => exact hSet resource
  | some phase => exact (Resource.agreeBeside_setPhase _ phase resource).trans (hSet _)

theorem since_conditionFor (step : Step σ) (outcome : Except Objection Unit) :
    (step.conditionFor outcome).since = none := by
  rcases outcome with (_ | _) | _ <;> rfl

/-- It can be read back. -/
theorem exists_status_settle (step : Step σ) (outcome : Except Objection Unit)
    (hNow : now.InCalendar)
    (hResource : ∀ condition ∈ resource.standing.conditions, condition.Sound) :
    ∃ status, (step.settle now outcome resource).status = some status ∧ status.standing.Sound := by
  have hNew : ({ step.conditionFor outcome with
      generation := resource.metadata.generation } : Condition).Sound := by
    rw [Condition.Sound, since_conditionFor]
    exact nofun
  refine ⟨_, rfl, fun _ => ?_⟩
  show ∀ condition ∈ (step.settle now outcome resource).standing.conditions, condition.Sound
  unfold settle
  rw [Resource.conditions_setCondition]
  refine Condition.sound_setIn hNow hNew ?_
  cases step.phaseFor outcome with
  | none => exact hResource
  | some phase =>
      rw [Option.elim_some, Resource.conditions_setPhase]
      exact hResource

/-- What work that reports on its own step has come to. -/
theorem of_reports (hWork : step.work.Reports step.type) {ended : Except (Stop Objection) Unit}
    {scene' : Scene σ} {store' : Store}
    (hExec : step.work.exec now scene store = ⟨ended, scene', store'⟩) :
    scene'.resource = scene.resource ∧ (step.conditionFor (outcomeOf ended)).type = step.type := by
  obtain ⟨⟨result, left⟩, hDone, hResource, hType⟩ := hWork scene
  rw [Task.exec, hDone] at hExec
  cases hExec
  refine ⟨hResource, ?_⟩
  rcases result with (payload | verdict | report) | ⟨⟩
  · rfl
  · exact hType verdict rfl
  · rfl
  · rfl

/-- The edit of such a step, however it ends, leaves the other conditions alone. -/
theorem bears_edit (hStep : step.Sound) (hQuiet : step.Quiet) (hHook : step.hook = none)
    (hWork : step.work.Reports step.type) (hNow : now.InCalendar) (hStore : store.Reachable)
    {body : Json} {given : Resource}
    (hBears : store.Bears scene.resource.key body step.type given) :
    ((step.edit now false none).run.exec now scene store).store.Bears scene.resource.key body
      step.type given := by
  have hCounted : (store.count .get).Bears scene.resource.key body step.type given :=
    hBears.of_objects_eq rfl
  have hMutate : (step.edit now false none).mutate.Quiet := hQuiet.perform
  rcases Edit.store_run_cases hMutate now scene store with
    hSame | ⟨base, fetched, recorded, left, hFetch, hPerform, hLeft⟩
  · rw [hSame]
    exact hCounted
  · obtain ⟨-, hKey, hGet, hSnapshot, rfl⟩ := Edit.ends_fetch_ok_iff.1 ⟨hFetch, rfl⟩
    obtain ⟨⟨document, hStored, hRead⟩, -⟩ := Store.of_get_eq_ok hGet
    obtain ⟨ended, worked, store₁, settled, store₂, hook, hRun, -, hSettled, hAfter, -⟩ :=
      of_perform_eq_ok hStep hPerform
    obtain ⟨hResource, hType⟩ := of_reports hWork hRun
    have hLeftResource : left.resource = step.settle now (outcomeOf ended) base.resource := by
      rw [runHook, hHook, Option.getD_none, Task.exec_attempt, Task.exec_pure] at hAfter
      cases hAfter
      rw [hSettled, hResource]
    rw [settle_eq_withStatus] at hLeftResource
    have hParts := (hStore.sound.stored hStored).1
    have hBaseKey := (hStore.keyed hStored).key_of_ofJson hParts hRead
    have hLeftKey : left.resource.key = scene.resource.key := by
      rw [hLeftResource]
      exact hBaseKey
    have hMain : ∀ after, left.resource.snapshot = .ok after → base.snapshot.MainAgree after := by
      intro after hAfter
      obtain ⟨-, hBefore⟩ := Resource.snapshot_eq_ok_iff.1 hSnapshot
      obtain ⟨-, rfl⟩ := Resource.snapshot_eq_ok_iff.1 hAfter
      rw [hBefore, hLeftResource]
      exact congrArg Json.plain (base.resource.setStatus_toObject _ none).symm
    have hSame : ((step.edit now false none).run.exec now scene store).store =
        ((Edit.persist base false none).exec now left (store.count .get)).store := hLeft
    rw [hSame]
    rcases Edit.store_persist_cases (hLeftKey.trans hKey.symm) hMain with hKept | hPatched
    · rw [hKept]
      exact hCounted
    · have hSound := (Resource.mayReadFrom_of_ofJson hParts hRead).sound_conditions
      obtain ⟨status, hStatus, hStands⟩ := exists_status_settle step (outcomeOf ended) hNow hSound
      rw [hPatched]
      refine hCounted.patchStatus (hStore.serve now (.get scene.resource.key)) hStored hRead hLeftKey
        (by rw [hLeftResource]; exact hStatus) hStands ?_
      rw [hLeftResource, ← settle_eq_withStatus]
      exact agreeBeside_settle hType now base.resource

/-- What comes of a marked step that is done alone on the resource in hand. -/
inductive Overwrites (step : Step σ) (now : Timestamp) (resource : Resource) (store : Store)
    (ended : Execution σ WorkError Outcome) : Prop where
  /-- The mark is refused, and nothing happens. -/
  | refused {error : WorkError} (hResult : ended.result = .error (.error error))
    (hStore : store.Unharmed ended.store) : Overwrites step now resource store ended
  /-- The status in hand is stored with the mark in it, and what is stored cannot be read then. -/
  | unread {error : WorkError} {old new : Json} (hResult : ended.result = .error (.error error))
    (hRestates : store.Restates resource.key
      ((resource.setCondition now step.underWay).status.map Status.toJson) old new ended.store)
    (hUnread : ¬new.Legible) : Overwrites step now resource store ended
  /-- What is stored has the body that it had. Its status, but for the conditions of the step's type
  and the phase, is what the status in hand is read as with the mark in it. What stood there before
  is kept if and only if that agrees with it. -/
  | written {old new : Json} {read found : Resource}
    (hOld : store.objects.get? resource.key = some old)
    (hNew : ended.store.objects.get? resource.key = some new) (hBody : old.SameBody new)
    (hFound : Resource.ofJson new = .ok found)
    (hRead : Status.MayReadFrom
      ((resource.setCondition now step.underWay).status.map Status.toJson) read.status)
    (hBeside : read.AgreeBeside step.type found)
    (hPlain : ¬(resource.setCondition now step.underWay).Shadows →
      resource.AgreeBeside step.type read)
    (hKept : ∀ held, Resource.ofJson old = .ok held →
      (held.AgreeBeside step.type found ↔ held.AgreeBeside step.type read)) :
    Overwrites step now resource store ended

theorem store_editAlone (step : Step σ) (now : Timestamp) (scene : Scene σ) (store : Store) :
    ((Engine.editAlone step now).exec now scene store).store =
      ((step.edit now false none).run.exec now scene store).store := by
  rw [Engine.editAlone, Task.exec_bind, Task.widen, Task.exec_mapError]
  rcases (step.edit now false none).run.exec now scene store with ⟨reason | edited, left, last⟩
  · rfl
  · simp only [Except.mapError, Execution.andThen_ok, Task.exec_bind, Task.exec_ofExcept]
    cases edited.written <;> rfl

theorem marking_of_no_hook (hHook : step.hook = none) (now : Timestamp) (scene : Scene σ)
    (store : Store) : step.marking now scene store =
      ⟨.ok (), { scene with resource := scene.resource.setCondition now step.underWay }, store⟩ := by
  rw [marking, runHook, hHook]
  rfl

/-- Once the status in hand is stored with the mark in it, the edit leaves it there. -/
theorem overwrites_of_written (hStep : step.Sound) (hQuiet : step.Quiet) (hHook : step.hook = none)
    (hWork : step.work.Reports step.type) (hNow : now.InCalendar)
    {resource : Resource} {given : Scene σ} {store₁ : Store} {old new : Json}
    {ended : Execution σ WorkError Outcome}
    (hRestates : store.Restates resource.key
      ((resource.setCondition now step.underWay).status.map Status.toJson) old new store₁)
    (hReachable : store₁.Reachable) (hRead : Resource.ofJson new = .ok given.resource)
    (hKey : given.resource.key = resource.key)
    (hEnded : ended.store = ((step.edit now false none).run.exec now given store₁).store) :
    step.Overwrites now resource store ended := by
  have hMay : Status.MayReadFrom
      ((resource.setCondition now step.underWay).status.map Status.toJson) given.resource.status :=
    hRestates.status_eq ▸
      Resource.mayReadFrom_of_ofJson (hReachable.sound.stored hRestates.written).1 hRead
  have hBears : store₁.Bears given.resource.key old step.type given.resource :=
    ⟨new, given.resource, hKey ▸ hRestates.written, hRestates.sameBody, hRead, .of_status_eq _ rfl⟩
  obtain ⟨document, found, hStored, hBody, hFound, hBeside⟩ :=
    bears_edit hStep hQuiet hHook hWork hNow hReachable hBears
  refine .written hRestates.stored (hEnded ▸ hKey ▸ hStored) hBody hFound hMay hBeside
    (fun hPlain => ?_) fun held _ => ⟨fun h => h.trans hBeside.symm, fun h => h.trans hBeside⟩
  exact (Resource.agreeBeside_setCondition now step.underWay resource).trans
    (.of_status_eq _ (Resource.status_eq_of_mayReadFrom hMay hPlain))

/-- What comes of a step that is first marked and then done. -/
theorem overwrites_of_mark (hStep : step.Sound) (hQuiet : step.Quiet) (hHook : step.hook = none)
    (hWork : step.work.Reports step.type) (hNow : now.InCalendar) (hStore : store.Reachable)
    (scene : Scene σ) :
    step.Overwrites now scene.resource store
      ((step.mark now >>= fun _ => Engine.editAlone step now).exec now scene store) := by
  have hWrite : (Task.updateStatus (scene.resource.setCondition now step.underWay) :
      Task σ WorkError _).exec now scene store = _ := Task.exec_updateStatus now scene store _
  rw [Task.exec_bind, hStep.exec_mark_of_ok (marking_of_no_hook hHook now scene store)]
  rcases hAnswer : (store.updateStatus (scene.resource.setCondition now step.underWay)).1 with
    error | result
  · rw [hAnswer] at hWrite
    rw [Edit.exec_renew_of_error hWrite]
    rcases Store.updateStatus_cases hStore (scene.resource.setCondition now step.underWay) with
      ⟨_, -, -, hUnharmed⟩ | ⟨old, new, hRestates, hRead⟩
    · exact .refused rfl hUnharmed
    · refine .unread rfl hRestates ?_
      rintro ⟨read, hLegible⟩
      rw [hLegible] at hRead
      cases hAnswer.symm.trans hRead
  · rw [hAnswer] at hWrite
    have hRenewed := Edit.exec_renew_of_ok hWrite
    obtain ⟨old, new, hRestates, hRead, hKey⟩ := Edit.of_renew_updateStatus hStore hRenewed
    rw [hRenewed, Execution.andThen_ok]
    exact overwrites_of_written hStep hQuiet hHook hWork hNow hRestates
      (hStore.exec hRenewed) hRead hKey (store_editAlone step now _ _)

/-- Whatever a marked step without a hook reports that is done alone and changes nothing, the stored
status is overwritten by the one in hand, or nothing happens. -/
theorem overwrites_of_performAlone {type : String} {work : Task σ Objection Unit}
    {options : StepOptions σ} (hMarks : options.marks = true) (hHook : options.hook = none)
    (hOnFail : ∀ callback, options.onFail = some callback → callback.Quiet)
    (hWork : work.Reports type) (hNow : now.InCalendar) (hStore : store.Reachable)
    (scene : Scene σ) :
    (ofOptions type work options).Overwrites now scene.resource store
      ((performAlone type work options now).exec now scene store) := by
  cases hMake : make type work options with
  | error error =>
      rw [performAlone, hMake]
      exact .refused rfl (Store.unharmed_of_kept rfl)
  | ok step =>
      obtain ⟨rfl, hStep⟩ := of_make_eq_ok hMake
      have hQuiet : (ofOptions type work options).Quiet := {
        work := fun scene => (hWork scene).imp fun _ h => h.1
        hook := by
          intro hook hSome
          cases hHook.symm.trans hSome
        onFail := hOnFail }
      rw [Engine.performAlone_eq_editAlone hStep,
        if_pos (show (ofOptions type work options).marks = true from hMarks)]
      exact overwrites_of_mark hStep hQuiet hHook hWork hNow hStore scene

theorem reports_pure (type : String) : (pure () : Task σ Objection Unit).Reports type :=
  fun _ => ⟨_, rfl, rfl, nofun⟩

theorem inCalendar_default : (default : Timestamp).InCalendar :=
  ⟨by decide +kernel, by decide +kernel⟩

/-- What the caller has in hand is what is stored: the condition that is there is kept. -/
theorem overwrites_of_current :
    let ended := (performAlone "Ready" (pure ()) { marks := true } default).exec default
      ⟨Engine.served, ()⟩ Engine.servedStore
    Engine.servedStore.Reachable ∧ (pure () : Task Unit Objection Unit).Reports "Ready" ∧
      (default : Timestamp).InCalendar ∧ ended.store.version = 3 ∧
      (ended.store.peek Engine.served.key).map (fun found =>
        found.standing.conditions.map Condition.type) = some ["Served", "Ready"] ∧
      (ofOptions "Ready" (pure () : Task Unit Objection Unit) { marks := true }).Overwrites default
        Engine.served Engine.servedStore ended :=
  ⟨Engine.servedStore_reachable, reports_pure "Ready", inCalendar_default, by decide +kernel,
    by decide +kernel, overwrites_of_performAlone rfl rfl (by rintro _ ⟨⟩) (reports_pure "Ready")
      inCalendar_default Engine.servedStore_reachable ⟨Engine.served, ()⟩⟩

def unversioned : Resource :=
  { metadata := { name := "a" }, spec := .object .nil }

/-- The caller does not know of the condition that is there: it is gone, and nobody is told. -/
theorem not_kept_of_unversioned :
    let ended := (performAlone "Ready" (pure ()) { marks := true } default).exec default
      ⟨unversioned, ()⟩ Engine.servedStore
    Engine.servedStore.Reachable ∧ (pure () : Task Unit Objection Unit).Reports "Ready" ∧
      Engine.servedStore.peek unversioned.key = some Engine.served ∧
      Engine.served.standing.has "Served" = true ∧
      ended.result = .ok { written := .statusOnly, failure := none } ∧
      (ended.store.peek unversioned.key).map (fun found => found.standing.has "Served") =
        some false :=
  ⟨Engine.servedStore_reachable, reports_pure "Ready", by decide +kernel, by decide +kernel,
    Except.of_toOption_eq_some (by decide +kernel), by decide +kernel⟩

end Step

end Reconciliation
