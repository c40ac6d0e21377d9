import Reconciliation.Proofs.Edit.Renaming
import Reconciliation.Proofs.Finalizer.Releasing

/-!
What can get in the way of an edit when nobody else uses the store and no requests are made to fail.
An `Obstacle` is something that a mutation or a hook makes of the resource and that cannot be written,
with the error that it comes to. `comesTo_of_course` says that nothing else makes an edit fail.
-/
namespace Reconciliation.Edit

variable {σ μ : Type} {now : Timestamp} {scene scene' : Scene σ} {store store' : Store}

/-- What gets in the way of writing a resource in place of the one that was fetched from a document,
and the error that it comes to. -/
inductive Obstacle (base : Base) (resource : Resource) (after : Snapshot) (stored : Json) :
    WorkError → Prop where
  /-- The specification has become null, and the patch takes it out. -/
  | spec (hDrops : resource.DropsSpec base.resource) (cause : ReadError) :
    Obstacle base resource after stored (.store (.codec (.unreadable cause)))
  /-- The metadata is written as something that cannot be read. -/
  | metadata (hUnsound : ¬resource.metadata.Sound) (cause : ReadError) :
    Obstacle base resource after stored (.store (.codec (.unreadable cause)))
  /-- The status alone is patched, and what comes of it cannot be read. -/
  | statusOnly (hMain : base.snapshot.MainAgree after)
    (hStatus : ¬Status.Legible
      (Store.patchedStatus base.snapshot.status after.status stored).status?)
    (cause : ReadError) :
    Obstacle base resource after stored (.store (.codec (.unreadable cause)))
  /-- The status is to be put back on the answer to the first patch, and cannot be read. -/
  | status (hMain : ¬base.snapshot.MainAgree after) (hStatus : ¬Status.Legible after.status)
    (cause : ReadError) :
    Obstacle base resource after stored (.codec (.unreadable cause))
  /-- The status is to be patched as well, and the first patch has let the resource go. -/
  | released (hStatus : ¬base.snapshot.StatusAgree after) (hMarked : resource.isTerminating = true)
    (hFree : resource.metadata.finalizers = []) :
    Obstacle base resource after stored (.store (.notFound base.key))

/-- What the writing of a resource comes to: everything that differs has been written, or there was
an obstacle. -/
inductive ComesTo (base : Base) (resource : Resource) (after : Snapshot) (stored : Json) :
    Except WorkError Written → Prop where
  | done (hClear : ∀ error, ¬Obstacle base resource after stored error) :
    ComesTo base resource after stored (.ok (writtenFor
      (!decide (base.snapshot.MainAgree after)) (!decide (base.snapshot.StatusAgree after))))
  | blocked {error : WorkError} (h : Obstacle base resource after stored error) :
    ComesTo base resource after stored (.error error)

section

variable {base : Base} {resource : Resource} {after : Snapshot} {stored : Json} {error : WorkError}

/-- Nothing is in the way of a resource whose parts can be read again, unless a first patch releases
it. -/
theorem not_obstacle (hSpec : ¬resource.DropsSpec base.resource) (hSound : resource.metadata.Sound)
    (hOnly : base.snapshot.MainAgree after → Status.Legible
      (Store.patchedStatus base.snapshot.status after.status stored).status?)
    (hStatus : ¬base.snapshot.MainAgree after → Status.Legible after.status)
    (hHeld : ¬base.snapshot.StatusAgree after → resource.isTerminating = true →
      resource.metadata.finalizers ≠ []) : ¬Obstacle base resource after stored error := by
  intro h
  cases h with
  | spec hDrops => exact hSpec hDrops
  | metadata hUnsound => exact hUnsound hSound
  | statusOnly hMain hUnreadable => exact hUnreadable (hOnly hMain)
  | status hMain hUnreadable => exact hUnreadable (hStatus hMain)
  | released hChanged hMarked hFree => exact hHeld hChanged hMarked hFree

/-- What was written was written because nothing was in the way. -/
theorem Writes.comesTo {result : Resource} {written : Written} {made : List Request}
    (h : Writes base resource after store written made result store')
    (hClear : ∀ error, ¬Obstacle base resource after stored error) :
    ComesTo base resource after stored (.ok written) := by
  rw [h.requests.2]
  exact .done hClear

/-- What stands in the store after everything but the status was patched: the answer to the patch,
or nothing. -/
theorem Reads.cases_of_patch {key : Key} {fetched first : Resource}
    (h : Reads store key fetched stored) (hStore : store.Reachable) (hKey : resource.key = key)
    (hPatch : store.patch resource fetched = (.ok first, store')) :
    first.metadata = { resource.metadata with version := first.metadata.version } ∧
      first.unwritable = none ∧ store'.failing = store.failing ∧
      ((resource.isTerminating = true ∧ resource.metadata.finalizers = []) ∧
          store'.objects.get? key = none ∨
        ¬(resource.isTerminating = true ∧ resource.metadata.finalizers = []) ∧
          store'.Reachable ∧ ∃ document, Reads store' key first document) := by
  subst hKey
  have hReachable := hStore.serve default (.patch resource fetched)
  rw [show (Request.patch resource fetched).serve default store = _ from hPatch] at hReachable
  obtain ⟨found, hFound, hRead, rfl⟩ := Store.of_patch_eq_ok hPatch
  cases h.stored.symm.trans hFound
  obtain ⟨_, _, _, hParts⟩ := h.hasParts
  obtain ⟨⟨_, _, hCommitted, hFrom⟩, hMetadata, -⟩ :=
    Resource.of_patched_main hParts ((Resource.ofJson_eq_ok_iff hParts).1 h.read) hRead
  refine ⟨by rw [hMetadata], hFrom.writable, rfl, ?_⟩
  have hReleased := Json.isReleased_iff_of_ofJson ⟨_, _, _, hCommitted⟩ hRead
  rw [Resource.isTerminating, hMetadata] at hReleased
  have hStored := Store.get?_commit resource.key resource.key (Json.merge stored (Json.diff
    (Json.object fetched.toObject).snapshot.main (Json.object resource.toObject).snapshot.main))
    (store.count .patch)
  rw [if_pos rfl] at hStored
  by_cases hGone : resource.isTerminating = true ∧ resource.metadata.finalizers = []
  · exact .inl ⟨hGone, hStored.trans (if_pos (hReleased.2 hGone))⟩
  · have hStays := hStored.trans (if_neg (mt hReleased.1 hGone))
    have hGet := Store.get_eq_ok (by exact h.allowed) hStays hRead
    exact .inr ⟨hGone, hReachable, exists_reads hReachable (congrArg Prod.fst hGet)⟩

section

variable {first source target : Resource} {before given : Option Json}

/-- A status that is put back on a stored resource can be patched. -/
theorem Reads.exists_patchStatus_of_withStatus {key : Key} (h : Reads store key first stored)
    (hStore : store.Reachable) (hAllowed : .patchStatus ∉ store.failing)
    (hSource : first.withStatus before = .ok source) (hTarget : first.withStatus given = .ok target) :
    ∃ result, (store.patchStatus target source).1 = .ok result := by
  obtain ⟨hSourceMetadata, -, hSourceWritable⟩ := Resource.of_withStatus_eq_ok hSource
  obtain ⟨hTargetMetadata, hRead, hTargetWritable⟩ := Resource.of_withStatus_eq_ok hTarget
  have hFinds : store.Finds target.key source.metadata.version stored := by
    rw [Resource.key, hTargetMetadata, ← Resource.key, h.key_eq, hSourceMetadata]
    exact h.finds
  have hNew : Status.Legible (target.status.map Status.toJson) := ⟨_, hRead.read_write⟩
  have hLegible : stored.Legible := ⟨_, h.read⟩
  have hChanged := (hLegible.patchedStatus h.hasParts source.status hNew).legible_status
    (Store.hasParts_patchedStatus h.hasParts _ _)
  rcases Store.patchStatus_cases_of_finds hStore.sound hLegible hFinds hAllowed hSourceWritable
      hTargetWritable with ⟨-, hOk⟩ | ⟨hIllegible, -⟩
  · exact hOk
  · exact absurd hChanged hIllegible

/-- It cannot be patched on a resource that is gone. -/
theorem patchStatus_of_gone (hGone : store.objects.get? first.key = none)
    (hAllowed : .patchStatus ∉ store.failing) (hSource : first.withStatus before = .ok source)
    (hTarget : first.withStatus given = .ok target) :
    (store.patchStatus target source).1 = .error (.notFound first.key) := by
  obtain ⟨-, -, hSourceWritable⟩ := Resource.of_withStatus_eq_ok hSource
  obtain ⟨hMetadata, -, hTargetWritable⟩ := Resource.of_withStatus_eq_ok hTarget
  have hKey : target.key = first.key := by rw [Resource.key, Resource.key, hMetadata]
  rw [Store.patchStatus_eq_write hSourceWritable hTargetWritable, hKey,
    Store.write_of_gone _ _ hGone hAllowed]

end

section

variable {made : List Request}

/-- A refused patch of the status ends the writing. -/
theorem ends_write_of_status_refused {storeError : StoreError}
    (hMain : base.snapshot.MainAgree after) (hStatus : ¬base.snapshot.StatusAgree after)
    (hPatch : (store.patchStatus scene.resource base.resource).1 = .error storeError) :
    (write base after).Ends now scene store [.patchStatus scene.resource base.resource]
      ⟨.error (.error (.store storeError)), scene,
        (store.patchStatus scene.resource base.resource).2⟩ := by
  have hRefused : (writeStatus base).Ends now scene store [.patchStatus scene.resource base.resource]
      ⟨.error (.error (.store storeError)), scene,
        (store.patchStatus scene.resource base.resource).2⟩ := by
    refine Task.ends_resource.bind (ends_renew_of_error ⟨?_, rfl⟩)
    rw [Task.exec_patchStatus, hPatch]
  rw [write, decide_eq_true hMain, decide_eq_false hStatus]
  exact hRefused.bind_error _

/-- After everything but the status has been patched, the writing ends as the rest of it does. -/
theorem ends_write_of_patched {first : Resource} (hMain : ¬base.snapshot.MainAgree after)
    (hStatus : ¬base.snapshot.StatusAgree after)
    (hPatch : store.patch scene.resource base.resource = (.ok first, store'))
    {left : Scene σ} {last : Store}
    (hRest : (writeStatusAfterMain base.snapshot.status after.status).Ends now
      { scene with resource := first } store' made ⟨.error (.error error), left, last⟩) :
    (write base after).Ends now scene store (.patch scene.resource base.resource :: made)
      ⟨.error (.error error), left, last⟩ := by
  rw [write, decide_eq_false hMain, decide_eq_false hStatus]
  exact (ends_writeMain_ok_iff.2 ⟨rfl, _, hPatch, rfl⟩).bind (hRest.bind_error _)

/-- A status that cannot be read is not written. -/
theorem ends_writeStatusAfterMain_of_unreadable {before target : Option Json} {source : Resource}
    {codecError : CodecError} (hSource : scene.resource.withStatus before = .ok source)
    (hTarget : scene.resource.withStatus target = .error codecError) :
    (writeStatusAfterMain before target).Ends now scene store []
      ⟨.error (.error (.codec codecError)), scene, store⟩ := by
  constructor
  · rw [Task.exec, writeStatusAfterMain_apply, hSource, hTarget]
    rfl
  · rw [writeStatusAfterMain_apply, hSource, hTarget]
    rfl

theorem ends_writeStatusAfterMain_of_refused {before target : Option Json}
    {source given : Resource} {storeError : StoreError}
    (hSource : scene.resource.withStatus before = .ok source)
    (hTarget : scene.resource.withStatus target = .ok given)
    (hPatch : (store.patchStatus given source).1 = .error storeError) :
    (writeStatusAfterMain before target).Ends now scene store [.patchStatus given source]
      ⟨.error (.error (.store storeError)), scene, (store.patchStatus given source).2⟩ := by
  constructor
  · rw [Task.exec, writeStatusAfterMain_apply, hSource, hTarget]
    simp only [renewal, Program.run, Request.serve, hPatch, id]
  · rw [writeStatusAfterMain_apply, hSource, hTarget]
    simp only [renewal, Program.requests, Request.serve, hPatch, id]

end

section

variable (hReads : Reads store base.key base.resource stored)
  (hBase : base.resource.snapshot = .ok base.snapshot)

include hReads hBase

/-- The status in the snapshot is the one that was read from the stored document. -/
theorem Reads.status_eq : base.snapshot.status = base.resource.status.map Status.toJson ∧
    Status.MayReadFrom stored.status? base.resource.status := by
  obtain ⟨-, hBefore⟩ := Resource.snapshot_eq_ok_iff.1 hBase
  rw [hBefore, Resource.status_snapshot]
  exact ⟨rfl, Resource.mayReadFrom_of_ofJson hReads.hasParts hReads.read⟩

/-- If a status can be read, so can what a patch to it leads to. -/
theorem Reads.legible_patched (hAfter : resource.snapshot = .ok after)
    (hStatus : Status.Legible after.status) :
    Status.Legible (Store.patchedStatus base.snapshot.status after.status stored).status? := by
  obtain ⟨hBefore, hRead⟩ := hReads.status_eq hBase
  obtain ⟨-, rfl⟩ := Resource.snapshot_eq_ok_iff.1 hAfter
  rw [Resource.status_snapshot] at hStatus ⊢
  obtain ⟨_, _, _, hParts⟩ := hReads.hasParts
  rw [hParts.status] at hRead
  rw [hBefore]
  exact Status.Legible.patchedStatus hParts ⟨_, hRead⟩ base.resource.status hStatus

/-- A status can be read if it has not changed. -/
theorem Reads.legible_of_statusAgree (hAfter : resource.snapshot = .ok after)
    (hStatus : base.snapshot.StatusAgree after) : Status.Legible after.status := by
  obtain ⟨hBefore, hRead⟩ := hReads.status_eq hBase
  obtain ⟨-, rfl⟩ := Resource.snapshot_eq_ok_iff.1 hAfter
  rw [Snapshot.StatusAgree, hBefore] at hStatus
  rw [Resource.status_snapshot] at hStatus ⊢
  exact hRead.legible_of_agree hStatus

/-- If nothing but the status differs, then that alone can be an obstacle. -/
theorem Reads.not_obstacle_of_mainAgree (hStore : store.Reachable)
    (hAfter : resource.snapshot = .ok after) (hMain : base.snapshot.MainAgree after)
    (hStatus : Status.Legible
      (Store.patchedStatus base.snapshot.status after.status stored).status?) :
    ¬Obstacle base resource after stored error := by
  obtain ⟨-, hBefore⟩ := Resource.snapshot_eq_ok_iff.1 hBase
  have hSame := hMain
  obtain ⟨-, rfl⟩ := Resource.snapshot_eq_ok_iff.1 hAfter
  rw [hBefore] at hSame
  obtain ⟨hMetadata, hSpec⟩ := Resource.of_main_agree hReads.sound hSame
  refine not_obstacle ?_ (hMetadata ▸ hReads.sound) (fun _ => hStatus) (absurd hMain) ?_
  · rintro ⟨hNull, hBefore⟩
    refine hBefore (Json.plain_eq_null_iff.1 ?_)
    rw [hSpec, hNull]
    rfl
  · -- What would be let go as it was fetched would not have been there to be fetched.
    intro _ hMarked hFree
    rw [Resource.isTerminating, ← hMetadata] at hMarked
    rw [← hMetadata] at hFree
    have hReleased := (Json.isReleased_iff_of_ofJson hReads.hasParts hReads.read).2 ⟨hMarked, hFree⟩
    rw [hStore.isReleased_of_get? hReads.stored] at hReleased
    cases hReleased

/-- How the writing ends if nothing but the status differs. -/
theorem Reads.exists_comesTo_of_mainAgree (hStore : store.Reachable)
    (hPatchStatus : .patchStatus ∉ store.failing) (hKey : scene.resource.key = base.key)
    (hAfter : scene.resource.snapshot = .ok after) (hMain : base.snapshot.MainAgree after) :
    ∃ written made scene' store', (write base after).Ends now scene store made
        ⟨written.mapError .error, scene', store'⟩ ∧
      ComesTo base scene.resource after stored written := by
  by_cases hStatus : base.snapshot.StatusAgree after
  · have hWrites : Writes base scene.resource after store _ _ _ _ := .nothing hMain hStatus
    refine ⟨.ok _, _, _, _, hWrites.ends, hWrites.comesTo fun _ => ?_⟩
    exact hReads.not_obstacle_of_mainAgree hBase hStore hAfter hMain
      (hReads.legible_patched hBase hAfter (hReads.legible_of_statusAgree hBase hAfter hStatus))
  obtain ⟨hBefore, -⟩ := hReads.status_eq hBase
  have hNow : after.status = scene.resource.status.map Status.toJson := by
    obtain ⟨-, rfl⟩ := Resource.snapshot_eq_ok_iff.1 hAfter
    exact Resource.status_snapshot _
  obtain ⟨hWritable, -⟩ := Resource.snapshot_eq_ok_iff.1 hAfter
  have hFinds : store.Finds scene.resource.key base.resource.metadata.version stored :=
    hKey ▸ hReads.finds
  rcases Store.patchStatus_cases_of_finds hStore.sound ⟨_, hReads.read⟩ hFinds hPatchStatus
      hReads.writable hWritable with ⟨hLegible, result, hOk⟩ | ⟨hIllegible, cause, hError⟩
  · rw [← hBefore, ← hNow] at hLegible
    have hWrites : Writes base scene.resource after store _ _ _ _ :=
      .statusOnly hMain hStatus (Prod.ext hOk rfl)
    refine ⟨.ok _, _, _, _, hWrites.ends, hWrites.comesTo fun _ => ?_⟩
    exact hReads.not_obstacle_of_mainAgree hBase hStore hAfter hMain hLegible
  · rw [← hBefore, ← hNow] at hIllegible
    exact ⟨.error _, _, _, _, ends_write_of_status_refused hMain hStatus hError,
      .blocked (.statusOnly hMain hIllegible cause)⟩

/-- How the writing of the status ends after everything else was patched. -/
theorem Reads.exists_comesTo_of_patched {first : Resource} (hStore : store.Reachable)
    (hPatchStatus : .patchStatus ∉ store.failing) (hKey : scene.resource.key = base.key)
    (hMain : ¬base.snapshot.MainAgree after) (hStatus : ¬base.snapshot.StatusAgree after)
    (hKeeps : ¬scene.resource.DropsSpec base.resource) (hSound : scene.resource.metadata.Sound)
    (hPatch : store.patch scene.resource base.resource = (.ok first, store')) :
    ∃ written made scene' store', (write base after).Ends now scene store made
        ⟨written.mapError .error, scene', store'⟩ ∧
      ComesTo base scene.resource after stored written := by
  obtain ⟨hMetadata, hWritable, hFailing, hStored⟩ := hReads.cases_of_patch hStore hKey hPatch
  rw [← hFailing] at hPatchStatus
  have hFirstKey : first.key = base.key := by
    rw [← hKey, Resource.key, Resource.key, hMetadata]
    rfl
  have hFirst : first.metadata.Sound := by
    rw [hMetadata]
    exact hSound
  obtain ⟨source, hSource⟩ : ∃ source, first.withStatus base.snapshot.status = .ok source := by
    obtain ⟨hBefore, hRead⟩ := hReads.status_eq hBase
    rcases Resource.withStatus_cases hFirst hWritable base.snapshot.status with
      ⟨-, hOk⟩ | ⟨hIllegible, -⟩
    · exact hOk
    · exact absurd (hBefore ▸ ⟨_, hRead.read_write⟩) hIllegible
  -- The new status is put on the answer and read with it before the store is asked again, so this
  -- comes before the question whether there is anything left.
  rcases Resource.withStatus_cases hFirst hWritable after.status with
    ⟨hLegible, target, hTarget⟩ | ⟨hIllegible, cause, hTarget⟩
  · rcases hStored with ⟨⟨hMarked, hFree⟩, hGone⟩ | ⟨hHeld, hReachable, document, hPatched⟩
    · have hRefused := patchStatus_of_gone (hFirstKey ▸ hGone) hPatchStatus hSource hTarget
      rw [hFirstKey] at hRefused
      exact ⟨.error _, _, _, _, ends_write_of_patched hMain hStatus hPatch
          (ends_writeStatusAfterMain_of_refused hSource hTarget hRefused),
        .blocked (.released hStatus hMarked hFree)⟩
    · obtain ⟨result, hOk⟩ :=
        hPatched.exists_patchStatus_of_withStatus hReachable hPatchStatus hSource hTarget
      have hWrites : Writes base scene.resource after store _ _ _ _ :=
        .mainAndStatus hMain hStatus hPatch hSource hTarget (Prod.ext hOk rfl)
      refine ⟨.ok _, _, _, _, hWrites.ends, hWrites.comesTo fun _ => ?_⟩
      exact not_obstacle hKeeps hSound (fun h => absurd h hMain) (fun _ => hLegible)
        fun _ hMarked hFree => hHeld ⟨hMarked, hFree⟩
  · exact ⟨.error _, _, _, _, ends_write_of_patched hMain hStatus hPatch
        (ends_writeStatusAfterMain_of_unreadable hSource hTarget),
      .blocked (.status hMain hIllegible cause)⟩

/-- How the writing of a resource ends. -/
theorem Reads.exists_comesTo (hStore : store.Reachable) (hPatch : .patch ∉ store.failing)
    (hPatchStatus : .patchStatus ∉ store.failing) (hKey : scene.resource.key = base.key)
    (hAfter : scene.resource.snapshot = .ok after) :
    ∃ written made scene' store', (write base after).Ends now scene store made
        ⟨written.mapError .error, scene', store'⟩ ∧
      ComesTo base scene.resource after stored written := by
  by_cases hMain : base.snapshot.MainAgree after
  · exact hReads.exists_comesTo_of_mainAgree hBase hStore hPatchStatus hKey hAfter hMain
  obtain ⟨hWritable, -⟩ := Resource.snapshot_eq_ok_iff.1 hAfter
  have hFinds : store.Finds scene.resource.key base.resource.metadata.version stored :=
    hKey ▸ hReads.finds
  rcases Store.patch_cases_of_finds hStore.sound hReads.read hFinds hPatch hReads.writable hWritable
    with ⟨hKeeps, hSound, first, hOk⟩ | ⟨hObstacle, cause, hError⟩
  · have hPatched : store.patch scene.resource base.resource = (.ok first, _) := Prod.ext hOk rfl
    by_cases hStatus : base.snapshot.StatusAgree after
    · have hWrites : Writes base scene.resource after store _ _ _ _ := .main hMain hStatus hPatched
      refine ⟨.ok _, _, _, _, hWrites.ends, hWrites.comesTo fun _ => ?_⟩
      exact not_obstacle hKeeps hSound (fun h => absurd h hMain)
        (fun _ => hReads.legible_of_statusAgree hBase hAfter hStatus) (absurd hStatus)
    · exact hReads.exists_comesTo_of_patched hBase hStore hPatchStatus hKey hMain hStatus hKeeps
        hSound hPatched
  · refine ⟨.error _, _, _, _, ends_write_of_refused hMain (Prod.ext hError rfl), .blocked ?_⟩
    rcases hObstacle with hDrops | hUnsound
    · exact .spec hDrops cause
    · exact .metadata hUnsound cause

end

/-- The writing of what the mutation and the hook leave, if the hook succeeds where it runs. -/
theorem ends_persist_of_settled {onChange : Option (Task σ Empty Unit)} {changed : Snapshot}
    {settled : Scene σ} {made : List Request} {execution : Execution σ WorkError Written}
    (hKey : scene.resource.key = base.key) (hChanged : scene.resource.snapshot = .ok changed)
    (hSettled : settle now onChange base.snapshot changed scene store = settled)
    (hHook : ∀ hook, onChange = some hook → ¬changed.Agree base.snapshot →
      hook.exec now scene store = ⟨.ok (), settled, store⟩)
    (hAfter : settled.resource.snapshot = .ok after)
    (hWrite : (write base after).Ends now settled store made execution) :
    ∃ made, (persist base false onChange).Ends now scene store made execution := by
  have hUnhooked : settled = scene → target base onChange scene = .done (.ok changed, scene) →
      ∃ made, (persist base false onChange).Ends now scene store made execution := by
    rintro rfl hTarget
    cases hChanged.symm.trans hAfter
    have hPersist := persist_of_target hKey hTarget
    exact ⟨made, by rw [Task.exec, hPersist, ← hWrite.exec, Task.exec],
      by rw [hPersist, hWrite.requests]⟩
  cases onChange with
  | none => exact hUnhooked hSettled.symm (by rw [target_apply, hChanged])
  | some hook =>
      by_cases hAgree : changed.Agree base.snapshot
      · rw [settle, if_pos hAgree] at hSettled
        refine hUnhooked hSettled.symm ?_
        rw [target_apply, hChanged]
        exact if_pos hAgree
      · exact ⟨_, ends_persist_of_hooked hKey hChanged hAgree ⟨hHook hook rfl hAgree, rfl⟩
          ((ends_capture hAfter).bind hWrite)⟩

end

/-- Where no requests are made to fail and the mutation and the hook succeed, an edit succeeds
unless they leave an obstacle. -/
theorem comesTo_of_course {edit : Edit σ μ} (course : Course now edit scene store)
    (hStore : store.Reachable) (hPatch : .patch ∉ store.failing)
    (hPatchStatus : .patchStatus ∉ store.failing) (hKeeps : edit.aborts course.value = false)
    (hHook : ∀ hook, edit.onChange = some hook → ¬course.changed.Agree course.base.snapshot →
      hook.exec now course.mutated course.fetched = ⟨.ok (), course.settled, course.fetched⟩)
    (hKey : course.settled.resource.key = scene.resource.key) :
    ∃ stored written scene' store', store.objects.get? scene.resource.key = some stored ∧
      edit.run.exec now scene store =
        ⟨.ok { mutation := some course.value, written }, scene', store'⟩ ∧
      ComesTo course.base course.settled.resource course.after stored written := by
  obtain ⟨stored, hReads⟩ := exists_reads hStore (congrArg Prod.fst course.get_eq)
  obtain ⟨-, hFetched⟩ := Store.of_get_eq_ok course.get_eq
  have hCounted : Reads course.fetched course.base.key course.base.resource stored := by
    rw [hFetched, course.key_eq]
    exact hReads.count .get
  have hReachable : course.fetched.Reachable := hFetched ▸ hStore.serve now (.get scene.resource.key)
  have hFailing : course.fetched.failing = store.failing := by
    rw [hFetched]
    rfl
  rw [← hFailing] at hPatch hPatchStatus
  obtain ⟨written, made, scene', store', hWrite, hComes⟩ :=
    hCounted.exists_comesTo course.snapshot_eq hReachable hPatch hPatchStatus
      (hKey.trans course.key_eq.symm) course.after_eq
  obtain ⟨made, hPersist⟩ := ends_persist_of_settled (course.mutated_key.trans course.key_eq.symm)
    course.changed_eq rfl hHook course.after_eq hWrite
  rw [← hKeeps] at hPersist
  have hFetch : fetch.Ends now scene store [.get scene.resource.key]
      ⟨.ok course.base, { scene with resource := course.base.resource }, course.fetched⟩ :=
    ends_fetch_ok_iff.2 ⟨rfl, course.key_eq, course.get_eq, course.snapshot_eq, rfl⟩
  exact ⟨stored, written, scene', store', hReads.stored,
    (ends_run hFetch ⟨course.mutate_eq, rfl⟩ hPersist).exec, hComes⟩

def takingLeave : Edit Nat Unit where
  mutate := Task.modifyResource (Resource.removeFinalizer "f")
  onChange := some (Task.modifyState fun _ count => count + 1)

/-- The last finalizer is taken off without a failure, and the resource is gone. -/
theorem comesTo_of_takingLeave :
    let ended := takingLeave.run.exec default ⟨Finalizer.leaving, 0⟩ Finalizer.leavingStore
    ∃ (course : Course default takingLeave ⟨Finalizer.leaving, 0⟩ Finalizer.leavingStore)
      (stored : Json) (written : Except WorkError Written),
      course.settled = ⟨Finalizer.leaving.removeFinalizer "f", 1⟩ ∧
      Finalizer.leavingStore.objects.get? Finalizer.leaving.key = some stored ∧
      ended.result = .ok { mutation := some (), written } ∧
      ComesTo course.base course.settled.resource course.after stored written ∧
      written = .ok .main ∧ ended.scene.state = 1 ∧
      ended.store.contains Finalizer.leaving.key = false := by
  intro ended
  let left := Finalizer.leaving.removeFinalizer "f"
  let course : Course default takingLeave ⟨Finalizer.leaving, 0⟩ Finalizer.leavingStore := {
    base := ⟨Finalizer.leaving.key, Finalizer.leaving,
      (Json.object Finalizer.leaving.toObject).snapshot⟩
    fetched := Finalizer.leavingStore.count .get
    value := ()
    mutated := ⟨left, 0⟩
    changed := (Json.object left.toObject).snapshot
    after := (Json.object left.toObject).snapshot
    key_eq := rfl
    get_eq := Prod.ext (Except.of_toOption_eq_some (by decide +kernel)) rfl
    snapshot_eq := Resource.snapshot_eq_ok_iff.2 ⟨rfl, rfl⟩
    mutate_eq := rfl
    mutated_key := rfl
    changed_eq := Resource.snapshot_eq_ok_iff.2 ⟨rfl, rfl⟩
    after_eq := by
      rw [takingLeave, settle, if_neg (by decide +kernel)]
      exact Resource.snapshot_eq_ok_iff.2 ⟨rfl, rfl⟩ }
  have hSettled : course.settled = ⟨left, 1⟩ := if_neg (by decide +kernel)
  obtain ⟨stored, written, scene', store', hStored, hRun, hComes⟩ :=
    comesTo_of_course course Finalizer.leavingStore_reachable (by decide) (by decide) rfl
      (by rintro _ ⟨⟩ -; rw [hSettled]; rfl) (by rw [hSettled]; rfl)
  have hResult : ended.result = .ok { mutation := some (), written } :=
    congrArg Execution.result hRun
  have hMain : (ended.result.toOption.bind fun edited => edited.written.toOption) = some .main := by
    decide +kernel
  rw [hResult] at hMain
  exact ⟨course, stored, written, hSettled, hStored, hResult, hComes,
    Except.of_toOption_eq_some hMain, by decide +kernel, by decide +kernel⟩

/-- Takes the finalizer off, and says so in the status. -/
def partingWords : Edit Unit Unit where
  mutate := do
    Task.modifyResource (Resource.removeFinalizer "f")
    Task.modifyResource (Resource.setPhase .running)

def clearing : Edit Unit Unit where
  mutate := Task.modifyResource fun resource => { resource with spec := .null }

def fault? (execution : Execution σ Empty (Edited μ)) : Option WorkError :=
  execution.result.toOption.bind fun edited => edited.written.error?

/-- An edit that lets the resource go and changes the status fails when the resource has gone, and
one that sets the specification to null fails when the specification has gone. -/
theorem not_done_of_partingWords :
    let parted := partingWords.run.exec default ⟨Finalizer.leaving, ()⟩ Finalizer.leavingStore
    let cleared := clearing.run.exec default ⟨plainResource, ()⟩ plainStore
    (Finalizer.leavingStore.Reachable ∧ Finalizer.leavingStore.failing = [] ∧
      Finalizer.leavingStore.peek Finalizer.leaving.key = some Finalizer.leaving ∧
      partingWords.mutate.Quiet ∧ parted.scene.resource.key = Finalizer.leaving.key ∧
      parted.scene.resource.unwritable = none ∧
      fault? parted = some (.store (.notFound Finalizer.leaving.key)) ∧
      parted.store.version = Finalizer.leavingStore.version + 1 ∧
      parted.store.contains Finalizer.leaving.key = false) ∧
    plainStore.Reachable ∧ plainStore.failing = [] ∧
      plainStore.peek plainResource.key = some plainResource ∧ clearing.mutate.Quiet ∧
      cleared.scene.resource = { plainResource with spec := .null } ∧
      fault? cleared = some (.store (.codec (.unreadable (.missing "spec")))) ∧
      cleared.store.contains plainResource.key = true ∧
      cleared.store.peek plainResource.key = none := by
  intro parted cleared
  refine ⟨⟨Finalizer.leavingStore_reachable, by decide +kernel, by decide +kernel,
    fun _ => ⟨_, rfl⟩, by decide +kernel, by decide +kernel, by decide +kernel, by decide +kernel,
    by decide +kernel⟩, plainStore_reachable, rfl, rfl, fun _ => ⟨_, rfl⟩, ?_⟩
  exact ⟨by decide +kernel, by decide +kernel, by decide +kernel, by decide +kernel⟩

end Reconciliation.Edit
