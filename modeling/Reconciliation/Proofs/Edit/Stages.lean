import Reconciliation.Edit

/-!
The stages of an edit. Between two requests an edit is at a stage, which is all that it still has to
do and all that it knows: `Stage.program` is what is left of the program of the edit there, and at
the first stage that is the whole edit. The requests that the mutation and the hook make are theirs;
the others are the edit's own.
-/
namespace Reconciliation.Edit

variable {σ μ : Type}

abbrev End (σ μ : Type) := Except (Stop Empty) (Edited μ) × Scene σ

/-- How far an edit has come. -/
inductive Stage (σ μ : Type) where
  | fetching (scene : Scene σ)
  /-- The mutation goes on with `left`. -/
  | mutating (base : Base) (left : Program (Except (Stop Empty) μ × Scene σ))
  /-- The hook goes on with `left`. -/
  | hooking (base : Base) (value : μ) (left : Program (Except (Stop Empty) Unit × Scene σ))
  /-- Everything but the status is to be written. -/
  | patching (base : Base) (value : μ) (after : Snapshot) (scene : Scene σ)
  /-- The status of `target` is to be written, where it differs from that of `base`. -/
  | patchingStatus (value : μ) (written : Written) (target base : Resource) (scene : Scene σ)
  | ended (result : Except (Stop Empty) (Edited μ)) (scene : Scene σ)

namespace Stage

def rank : Stage σ μ → Nat
  | fetching _ => 5
  | mutating .. => 4
  | hooking .. => 3
  | patching .. => 2
  | patchingStatus .. => 1
  | ended .. => 0

def conclude (value : μ) (written : Except WorkError Written) (scene : Scene σ) : Stage σ μ :=
  .ended (.ok { mutation := some value, written }) scene

/-- The end of an edit whose mutation does not run. -/
def giveUp (error : WorkError) (scene : Scene σ) : Stage σ μ :=
  .ended (.ok { mutation := none, written := .error error }) scene

def statusPatched (value : μ) (written : Written) (scene : Scene σ) :
    Except StoreError Resource → Stage σ μ
  | .ok resource => conclude value (.ok written) { scene with resource }
  | .error error => conclude value (.error (.store error)) scene

def patched (base : Base) (value : μ) (after : Snapshot) (scene : Scene σ) :
    Except StoreError Resource → Stage σ μ
  | .error error => conclude value (.error (.store error)) scene
  | .ok first =>
    let scene := { scene with resource := first }
    if base.snapshot.StatusAgree after then conclude value (.ok .main) scene
    else match first.withStatus base.snapshot.status with
      | .error error => conclude value (.error (.codec error)) scene
      | .ok before =>
        match first.withStatus after.status with
        | .error error => conclude value (.error (.codec error)) scene
        | .ok target => .patchingStatus value .mainAndStatus target before scene

def due (base : Base) (value : μ) (after : Snapshot) (scene : Scene σ) : Stage σ μ :=
  if base.snapshot.MainAgree after then
    if base.snapshot.StatusAgree after then conclude value (.ok .nothing) scene
    else .patchingStatus value .statusOnly scene.resource base.resource scene
  else .patching base value after scene

def hooked (base : Base) (value : μ) : Except (Stop Empty) Unit × Scene σ → Stage σ μ
  | (.error reason, scene) => .ended (.error reason) scene
  | (.ok (), scene) =>
    match scene.resource.snapshot with
    | .error error => conclude value (.error (.codec error)) scene
    | .ok after => due base value after scene

def mutated (edit : Edit σ μ) (base : Base) : Except (Stop Empty) μ × Scene σ → Stage σ μ
  | (.error reason, scene) => .ended (.error reason) scene
  | (.ok value, scene) =>
    if scene.resource.key ≠ base.key then
      conclude value (.error (.renamed base.key scene.resource.key)) scene
    else if edit.aborts value then conclude value (.ok .nothing) scene
    else match scene.resource.snapshot with
      | .error error => conclude value (.error (.codec error)) scene
      | .ok changed =>
        match edit.onChange with
        | none => due base value changed scene
        | some hook =>
          if changed.Agree base.snapshot then due base value changed scene
          else .hooking base value (hook scene)

def fetched (edit : Edit σ μ) (scene : Scene σ) : Except StoreError Resource → Stage σ μ
  | .error error => giveUp (.store error) scene
  | .ok resource =>
    match resource.snapshot with
    | .error error => giveUp (.codec error) { scene with resource }
    | .ok snapshot =>
      .mutating { key := scene.resource.key, resource, snapshot }
        (edit.mutate { scene with resource })

theorem rank_statusPatched (value : μ) (written : Written) (scene : Scene σ)
    (answer : Except StoreError Resource) : (statusPatched value written scene answer).rank = 0 := by
  cases answer <;> rfl

theorem rank_patched_le (base : Base) (value : μ) (after : Snapshot) (scene : Scene σ)
    (answer : Except StoreError Resource) : (patched base value after scene answer).rank ≤ 1 := by
  unfold patched
  split
  · exact Nat.zero_le _
  · dsimp only
    split
    · exact Nat.zero_le _
    · split
      · exact Nat.zero_le _
      · split
        · exact Nat.zero_le _
        · exact Nat.le_refl _

theorem rank_due_le (base : Base) (value : μ) (after : Snapshot) (scene : Scene σ) :
    (due base value after scene).rank ≤ 2 := by
  unfold due
  split
  · split
    · exact Nat.zero_le _
    · exact Nat.le_succ _
  · exact Nat.le_refl _

theorem rank_hooked_le (base : Base) (value : μ) (ended : Except (Stop Empty) Unit × Scene σ) :
    (hooked base value ended).rank ≤ 2 := by
  unfold hooked
  split
  · exact Nat.zero_le _
  · split
    · exact Nat.zero_le _
    · exact rank_due_le ..

theorem rank_mutated_le (edit : Edit σ μ) (base : Base)
    (ended : Except (Stop Empty) μ × Scene σ) : (mutated edit base ended).rank ≤ 3 := by
  unfold mutated
  split
  · exact Nat.zero_le _
  · split
    · exact Nat.zero_le _
    · split
      · exact Nat.zero_le _
      · split
        · exact Nat.zero_le _
        · split
          · exact Nat.le_succ_of_le (rank_due_le ..)
          · split
            · exact Nat.le_succ_of_le (rank_due_le ..)
            · exact Nat.le_refl _

theorem rank_fetched_le (edit : Edit σ μ) (scene : Scene σ)
    (answer : Except StoreError Resource) : (fetched edit scene answer).rank ≤ 4 := by
  unfold fetched
  split
  · exact Nat.zero_le _
  · split
    · exact Nat.zero_le _
    · exact Nat.le_refl _

def program (edit : Edit σ μ) : Stage σ μ → Program (End σ μ)
  | fetching scene =>
    .call (.get scene.resource.key) fun answer => (fetched edit scene answer).program edit
  | mutating base left => left.bind fun ended => (mutated edit base ended).program edit
  | hooking base value left => left.bind fun ended => (hooked base value ended).program edit
  | patching base value after scene =>
    .call (.patch scene.resource base.resource) fun answer =>
      (patched base value after scene answer).program edit
  | patchingStatus value written target base scene =>
    .call (.patchStatus target base) fun answer =>
      (statusPatched value written scene answer).program edit
  | ended result scene => .done (result, scene)
termination_by stage => stage.rank
decreasing_by
  · exact Nat.lt_succ_of_le (rank_fetched_le ..)
  · exact Nat.lt_succ_of_le (rank_mutated_le ..)
  · exact Nat.lt_succ_of_le (rank_hooked_le ..)
  · exact Nat.lt_succ_of_le (rank_patched_le ..)
  · exact Nat.lt_succ_of_le (rank_statusPatched .. ▸ Nat.le_refl _)

end Stage

theorem program_conclude (edit : Edit σ μ) (value : μ) (written : Except WorkError Written)
    (scene : Scene σ) : (Stage.conclude value written scene).program edit =
      .done (.ok { mutation := some value, written }, scene) := by
  rw [Stage.conclude, Stage.program]

theorem program_giveUp (edit : Edit σ μ) (error : WorkError) (scene : Scene σ) :
    (Stage.giveUp error scene).program edit =
      .done (.ok { mutation := none, written := .error error }, scene) := by
  rw [Stage.giveUp, Stage.program]

def close (value : μ) : Except (Stop WorkError) Written × Scene σ → Program (End σ μ)
  | (.ok written, scene) => .done (.ok { mutation := some value, written := .ok written }, scene)
  | (.error (.error error), scene) =>
    .done (.ok { mutation := some value, written := .error error }, scene)
  | (.error (.panic payload), scene) => .done (.error (.panic payload), scene)

theorem attempt_bind_apply (value : μ) (task : Task σ WorkError Written) (scene : Scene σ) :
    (do
      let written ← task.attempt
      return { mutation := some value, written } : Task σ Empty (Edited μ)) scene =
      (task scene).bind (close value) := by
  refine (Program.bind_bind (task scene) _ _).trans (congrArg (task scene).bind ?_)
  funext ⟨result, scene'⟩
  rcases result with (_ | _) | _ <;> rfl

/-- What is written once the snapshot is known. -/
def write (base : Base) (after : Snapshot) : Task σ WorkError Written :=
  match decide (base.snapshot.MainAgree after), decide (base.snapshot.StatusAgree after) with
  | true, true => return .nothing
  | false, true => do
    writeMain base
    return .main
  | false, false => do
    writeMain base
    writeStatusAfterMain base.snapshot.status after.status
    return .mainAndStatus
  | true, false => do
    writeStatus base
    return .statusOnly

/-- An edit writes nothing of a resource that has another key now, or whose mutation has failed for
good; of any other it writes what differs after the hook. -/
theorem persist_apply (base : Base) (aborted : Bool) (onChange : Option (Task σ Empty Unit))
    (scene : Scene σ) :
    persist base aborted onChange scene =
      (if scene.resource.key ≠ base.key then
          Task.fail (.renamed base.key scene.resource.key)
        else if aborted = true then pure .nothing
        else do
          let after ← target base onChange
          write base after : Task σ WorkError Written) scene :=
  rfl

/-- The program of a request that answers with a resource. -/
def renewal (request : Request) (answer : request.Answer → Except StoreError Resource)
    (scene : Scene σ) : Program (Except (Stop WorkError) Unit × Scene σ) :=
  .call request fun given =>
    match answer given with
    | .ok resource => .done (.ok (), { scene with resource })
    | .error error => .done (.error (.error (.store error)), scene)

theorem writeStatusAfterMain_apply (before after : Option Json) (scene : Scene σ) :
    writeStatusAfterMain before after scene =
      match scene.resource.withStatus before with
      | .error error => .done (.error (.error (.codec error)), scene)
      | .ok base =>
        match scene.resource.withStatus after with
        | .error error => .done (.error (.error (.codec error)), scene)
        | .ok target => renewal (.patchStatus target base) id scene := by
  simp only [writeStatusAfterMain, bind, Task.bind, Task.resource, Program.bind]
  cases scene.resource.withStatus before with
  | error => rfl
  | ok base =>
      cases scene.resource.withStatus after with
      | error => rfl
      | ok target =>
          refine congrArg (Program.call _) (funext fun answer => ?_)
          cases answer <;> rfl

/-- What is due at a stage is what the edit has still to write. -/
theorem program_due (edit : Edit σ μ) (base : Base) (value : μ) (after : Snapshot)
    (scene : Scene σ) :
    (Stage.due base value after scene).program edit =
      (write base after scene).bind (close value) := by
  by_cases hMain : base.snapshot.MainAgree after
  · by_cases hStatus : base.snapshot.StatusAgree after
    · simp only [Stage.due, hMain, hStatus, if_true, write, decide_true]
      rw [program_conclude]
      rfl
    · simp only [Stage.due, hMain, hStatus, if_true, if_false, write, decide_true, decide_false]
      rw [Stage.program]
      refine congrArg (Program.call _) (funext fun answer => ?_)
      cases answer <;> (rw [Stage.statusPatched, program_conclude]; rfl)
  · by_cases hStatus : base.snapshot.StatusAgree after
    · simp only [Stage.due, hMain, hStatus, if_false, write, decide_true, decide_false]
      rw [Stage.program]
      refine congrArg (Program.call _) (funext fun answer => ?_)
      cases answer with
      | error error =>
          rw [Stage.patched, program_conclude]
          rfl
      | ok first =>
          simp only [Stage.patched, hStatus, if_true]
          rw [program_conclude]
          rfl
    · simp only [Stage.due, hMain, hStatus, if_false, write, decide_false]
      rw [Stage.program]
      refine congrArg (Program.call _) (funext fun answer => ?_)
      cases answer with
      | error error =>
          rw [Stage.patched, program_conclude]
          rfl
      | ok first =>
          show _ = ((writeStatusAfterMain base.snapshot.status after.status
            { scene with resource := first }).bind _).bind (close value)
          rw [writeStatusAfterMain_apply]
          simp only [Stage.patched, hStatus, if_false]
          cases first.withStatus base.snapshot.status with
          | error error =>
              rw [program_conclude]
              rfl
          | ok before =>
              cases first.withStatus after.status with
              | error error =>
                  rw [program_conclude]
                  rfl
              | ok target =>
                  rw [Stage.program]
                  refine congrArg (Program.call _) (funext fun answer => ?_)
                  cases answer <;> (rw [Stage.statusPatched, program_conclude]; rfl)

theorem program_hooked (edit : Edit σ μ) (base : Base) (value : μ) (scene : Scene σ) :
    (Stage.hooked base value (.ok (), scene)).program edit =
      ((do
        let after ← capture (← Task.resource)
        write base after : Task σ WorkError Written) scene).bind (close value) := by
  show _ = (((capture scene.resource : Task σ WorkError Snapshot) scene).bind _).bind (close value)
  rw [capture, Stage.hooked]
  cases scene.resource.snapshot with
  | error error =>
      rw [program_conclude]
      rfl
  | ok after => exact program_due edit base value after scene

theorem target_apply (base : Base) (onChange : Option (Task σ Empty Unit)) (scene : Scene σ) :
    target base onChange scene =
      match scene.resource.snapshot, onChange with
      | .error error, _ => .done (.error (.error (.codec error)), scene)
      | .ok changed, none => .done (.ok changed, scene)
      | .ok changed, some hook =>
        if changed.Agree base.snapshot then .done (.ok changed, scene)
        else (do
          hook.widen
          capture (← Task.resource) : Task σ WorkError Snapshot) scene := by
  show ((capture scene.resource : Task σ WorkError Snapshot) scene).bind _ = _
  rw [capture]
  cases scene.resource.snapshot with
  | error error => rfl
  | ok changed =>
      cases onChange with
      | none => rfl
      | some hook =>
          show (if changed.Agree base.snapshot then pure changed else _ : Task σ WorkError Snapshot)
            scene = _
          by_cases hAgree : changed.Agree base.snapshot
          · rw [if_pos hAgree]
            exact (if_pos hAgree).symm
          · rw [if_neg hAgree]
            exact (if_neg hAgree).symm

/-- After the mutation an edit has only to persist what there is. -/
theorem program_mutated (edit : Edit σ μ) (base : Base) (value : μ) (scene : Scene σ) :
    (Stage.mutated edit base (.ok value, scene)).program edit =
      (persist base (edit.aborts value) edit.onChange scene).bind (close value) := by
  rw [persist_apply]
  by_cases hKey : scene.resource.key = base.key
  · by_cases hAborts : edit.aborts value = true
    · simp only [Stage.mutated, hKey, hAborts, ne_eq, not_true, if_true, if_false]
      rw [program_conclude]
      rfl
    · simp only [Stage.mutated, hKey, hAborts, Bool.false_eq_true, ne_eq, not_true, if_false]
      show _ = ((target base edit.onChange scene).bind _).bind (close value)
      rw [target_apply]
      cases hChanged : scene.resource.snapshot with
      | error error =>
          rw [program_conclude]
          rfl
      | ok changed =>
          cases hHook : edit.onChange with
          | none => exact program_due edit base value changed scene
          | some hook =>
              dsimp only
              by_cases hAgree : changed.Agree base.snapshot
              · rw [if_pos hAgree, if_pos hAgree]
                exact program_due edit base value changed scene
              · rw [if_neg hAgree, if_neg hAgree, Stage.program]
                show _ = ((((hook scene).bind _).bind _).bind _).bind (close value)
                rw [Program.bind_bind, Program.bind_bind, Program.bind_bind]
                refine congrArg (hook scene).bind (funext fun ⟨result, scene'⟩ => ?_)
                cases result with
                | ok _ =>
                    refine (program_hooked edit base value scene').trans ?_
                    show (((capture scene'.resource : Task σ WorkError Snapshot) scene').bind
                      _).bind (close value) = _
                    rw [Program.bind_bind]
                    rfl
                | error reason =>
                    cases reason with
                    | panic payload =>
                        rw [Stage.hooked, Stage.program]
                        rfl
                    | error impossible => cases impossible
  · simp only [Stage.mutated, hKey, ne_eq, not_false_iff, if_true]
    rw [program_conclude]
    rfl

/-- An edit goes through its stages. -/
theorem program_fetching (edit : Edit σ μ) (scene : Scene σ) :
    (Stage.fetching scene : Stage σ μ).program edit = edit.run scene := by
  rw [Stage.program]
  refine congrArg (Program.call _) (funext fun answer => ?_)
  cases answer with
  | error error =>
      show (Stage.giveUp (.store error) scene).program edit = _
      rw [program_giveUp]
      rfl
  | ok resource =>
      show (Stage.fetched edit scene (.ok resource)).program edit =
        (((((capture resource : Task σ WorkError Snapshot) { scene with resource }).bind _).bind
          _).bind _)
      rw [capture, Stage.fetched]
      cases resource.snapshot with
      | error error =>
          dsimp only
          rw [program_giveUp]
          rfl
      | ok snapshot =>
          dsimp only
          rw [Stage.program]
          show _ = (edit.mutate { scene with resource }).bind _
          refine congrArg (Program.bind _) (funext fun ⟨result, scene'⟩ => ?_)
          cases result with
          | ok value =>
              exact (program_mutated edit _ value scene').trans (attempt_bind_apply ..).symm
          | error reason =>
              rw [Stage.mutated, Stage.program]

end Reconciliation.Edit
