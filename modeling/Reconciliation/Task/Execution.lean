import Reconciliation.Task

/-!
Executions: what comes of a task on a store that nobody else uses. Each way of putting tasks
together has a lemma `exec_…` that says what its execution is in terms of the executions of its
parts, so that an execution is computed without a look at the requests between.
-/
namespace Reconciliation

/-- How a task has ended, and what it has left behind. -/
structure Execution (σ ε α : Type) where
  result : Except (Stop ε) α
  scene : Scene σ
  store : Store

namespace Execution

variable {σ ε α β : Type}

/-- Goes on after a value; after anything else nothing more happens. -/
def andThen (execution : Execution σ ε α) (f : α → Scene σ → Store → Execution σ ε β) :
    Execution σ ε β :=
  match execution.result with
  | .ok value => f value execution.scene execution.store
  | .error reason => ⟨.error reason, execution.scene, execution.store⟩

@[simp] theorem andThen_ok (value : α) (scene : Scene σ) (store : Store)
    (f : α → Scene σ → Store → Execution σ ε β) :
    (⟨.ok value, scene, store⟩ : Execution σ ε α).andThen f = f value scene store := rfl

@[simp] theorem andThen_error (reason : Stop ε) (scene : Scene σ) (store : Store)
    (f : α → Scene σ → Store → Execution σ ε β) :
    (⟨.error reason, scene, store⟩ : Execution σ ε α).andThen f =
      ⟨.error reason, scene, store⟩ := rfl

/-! To return a value in the end neither fails nor changes anything. -/

@[simp] theorem store_andThen_return (execution : Execution σ ε α) (value : β) :
    (execution.andThen fun _ scene store => ⟨.ok value, scene, store⟩).store =
      execution.store := by
  rcases execution with ⟨_ | _, _, _⟩ <;> rfl

theorem andThen_return_eq_error_iff {execution : Execution σ ε α} {value : β} {reason : Stop ε}
    {scene : Scene σ} {store : Store} :
    (execution.andThen fun _ scene store => ⟨.ok value, scene, store⟩) =
      ⟨.error reason, scene, store⟩ ↔ execution = ⟨.error reason, scene, store⟩ := by
  rcases execution with ⟨_ | _, _, _⟩ <;> simp

end Execution

namespace Task

variable {σ ε ε' α β : Type}

/-- Carries out a task at a time on a store that nobody else uses. -/
def exec (now : Timestamp) (task : Task σ ε α) (scene : Scene σ) (store : Store) :
    Execution σ ε α :=
  let ended := (task scene).run now store
  ⟨ended.1.1, ended.1.2, ended.2⟩

section

variable (now : Timestamp) (scene : Scene σ) (store : Store)

@[simp] theorem exec_pure (value : α) :
    (Pure.pure value : Task σ ε α).exec now scene store = ⟨.ok value, scene, store⟩ := rfl

theorem exec_of_run {task : Task σ ε α} {result : Except (Stop ε) α} {scene' : Scene σ}
    {store' : Store} (h : (task scene).run now store = ((result, scene'), store')) :
    task.exec now scene store = ⟨result, scene', store'⟩ := by
  rw [exec, h]

/-- The second task is carried out on what the first one has left, if that ends with a value. -/
@[simp] theorem exec_bind (task : Task σ ε α) (f : α → Task σ ε β) :
    (task >>= f).exec now scene store =
      (task.exec now scene store).andThen fun value => (f value).exec now := by
  rcases hrun : (task scene).run now store with ⟨⟨result, scene'⟩, store'⟩
  rw [exec_of_run now scene store hrun]
  show Execution.mk _ _ _ = _
  rw [show (task >>= f) scene = (task scene).bind _ from rfl, Program.run_bind, hrun]
  cases result <;> rfl

@[simp] theorem exec_stop (reason : Stop ε) :
    (stop reason : Task σ ε α).exec now scene store = ⟨.error reason, scene, store⟩ := rfl

@[simp] theorem exec_fail (cause : ε) :
    (fail cause : Task σ ε α).exec now scene store = ⟨.error (.error cause), scene, store⟩ := rfl

@[simp] theorem exec_panic (payload : Payload) :
    (panic payload : Task σ ε α).exec now scene store =
      ⟨.error (.panic payload), scene, store⟩ := rfl

@[simp] theorem exec_resource :
    (resource : Task σ ε Resource).exec now scene store = ⟨.ok scene.resource, scene, store⟩ := rfl

@[simp] theorem exec_setResource (resource : Resource) :
    (setResource resource : Task σ ε Unit).exec now scene store =
      ⟨.ok (), { scene with resource }, store⟩ := rfl

@[simp] theorem exec_modifyResource (f : Resource → Resource) :
    (modifyResource f : Task σ ε Unit).exec now scene store =
      ⟨.ok (), { scene with resource := f scene.resource }, store⟩ := rfl

@[simp] theorem exec_modifyState (f : Resource → σ → σ) :
    (modifyState f : Task σ ε Unit).exec now scene store =
      ⟨.ok (), { scene with state := f scene.resource scene.state }, store⟩ := rfl

@[simp] theorem exec_observe (f : Resource → σ → α × σ) :
    (observe f : Task σ ε α).exec now scene store =
      ⟨.ok (f scene.resource scene.state).1,
        { scene with state := (f scene.resource scene.state).2 }, store⟩ := rfl

theorem exec_ask (request : Request) :
    (ask request : Task σ ε request.Answer).exec now scene store =
      ⟨.ok (request.serve now store).1, scene, (request.serve now store).2⟩ := rfl

@[simp] theorem exec_get (key : Key) :
    (get key : Task σ ε (Except StoreError Resource)).exec now scene store =
      ⟨.ok (store.get key).1, scene, (store.get key).2⟩ := rfl

@[simp] theorem exec_update (resource : Resource) :
    (update resource : Task σ ε (Except StoreError Resource)).exec now scene store =
      ⟨.ok (store.update resource).1, scene, (store.update resource).2⟩ := rfl

@[simp] theorem exec_updateStatus (resource : Resource) :
    (updateStatus resource : Task σ ε (Except StoreError Resource)).exec now scene store =
      ⟨.ok (store.updateStatus resource).1, scene, (store.updateStatus resource).2⟩ := rfl

@[simp] theorem exec_patch (resource base : Resource) :
    (patch resource base : Task σ ε (Except StoreError Resource)).exec now scene store =
      ⟨.ok (store.patch resource base).1, scene, (store.patch resource base).2⟩ := rfl

@[simp] theorem exec_patchStatus (resource base : Resource) :
    (patchStatus resource base : Task σ ε (Except StoreError Resource)).exec now scene
      store =
      ⟨.ok (store.patchStatus resource base).1, scene, (store.patchStatus resource base).2⟩ := rfl

@[simp] theorem exec_insert (resource : Resource) :
    (insert resource : Task σ ε (Except StoreError Resource)).exec now scene store =
      ⟨.ok (store.insert resource).1, scene, (store.insert resource).2⟩ := rfl

@[simp] theorem exec_delete (key : Key) :
    (delete key : Task σ ε (Except StoreError Unit)).exec now scene store =
      ⟨.ok (store.delete now key).1, scene, (store.delete now key).2⟩ := rfl

@[simp] theorem exec_peek (key : Key) :
    (peek key : Task σ ε (Option Resource)).exec now scene store =
      ⟨.ok (store.peek key), scene, store⟩ := rfl

@[simp] theorem exec_failOn (verb : Verb) :
    (failOn verb : Task σ ε Unit).exec now scene store =
      ⟨.ok (), scene, store.failOn verb⟩ := rfl

@[simp] theorem exec_clearFailures :
    (clearFailures : Task σ ε Unit).exec now scene store =
      ⟨.ok (), scene, store.clearFailures⟩ := rfl

@[simp] theorem exec_ofExcept (given : Except ε α) :
    (ofExcept given : Task σ ε α).exec now scene store =
      ⟨given.mapError .error, scene, store⟩ := by
  cases given <;> rfl

@[simp] theorem exec_orPanic_ok (words : ε' → String) (value : α) :
    (orPanic words (.ok value) : Task σ ε α).exec now scene store = ⟨.ok value, scene, store⟩ := rfl

@[simp] theorem exec_orPanic_error (words : ε' → String) (cause : ε') :
    (orPanic words (.error cause) : Task σ ε α).exec now scene store =
      ⟨.error (.panic (.text (words cause))), scene, store⟩ := rfl

@[simp] theorem exec_mapError (f : ε → ε') (task : Task σ ε α) :
    (task.mapError f).exec now scene store =
      let execution := task.exec now scene store
      ⟨execution.result.mapError (Stop.map f), execution.scene, execution.store⟩ := by
  rcases hrun : (task scene).run now store with ⟨⟨result, scene'⟩, store'⟩
  rw [exec_of_run now scene store hrun]
  show Execution.mk _ _ _ = _
  rw [mapError, Program.run_bind, hrun]
  rcases result with (_ | _) | _ <;> rfl

/-- An attempt comes to what the task comes to, with an error in the place of a value. -/
@[simp] theorem exec_attempt (task : Task σ ε α) :
    (task.attempt : Task σ ε' (Except ε α)).exec now scene store =
      let execution := task.exec now scene store
      ⟨match execution.result with
        | .ok value => .ok (.ok value)
        | .error (.error cause) => .ok (.error cause)
        | .error (.panic payload) => .error (.panic payload),
        execution.scene, execution.store⟩ := by
  rcases hrun : (task scene).run now store with ⟨⟨result, scene'⟩, store'⟩
  rw [exec_of_run now scene store hrun]
  show Execution.mk _ _ _ = _
  rw [attempt, Program.run_bind, hrun]
  rcases result with (_ | _) | _ <;> rfl

/-- Nothing that is contained stops. -/
@[simp] theorem exec_contain (task : Task σ ε α) :
    (task.contain : Task σ ε' (Except (Stop ε) α)).exec now scene store =
      let execution := task.exec now scene store
      ⟨.ok execution.result, execution.scene, execution.store⟩ := by
  rcases hrun : (task scene).run now store with ⟨⟨result, scene'⟩, store'⟩
  rw [exec_of_run now scene store hrun]
  show Execution.mk _ _ _ = _
  rw [contain, Program.run_bind, hrun]
  rfl

/-- Work on a copy leaves the resource as it was, however it ends. -/
@[simp] theorem exec_onCopy (copy : Resource) (task : Task σ ε α) :
    (task.onCopy copy).exec now scene store =
      let execution := task.exec now { scene with resource := copy } store
      ⟨execution.result.map (·, execution.scene.resource),
        { execution.scene with resource := scene.resource }, execution.store⟩ := by
  rcases hrun : (task { scene with resource := copy }).run now store with ⟨⟨result, scene'⟩, store'⟩
  rw [exec_of_run now { scene with resource := copy } store hrun]
  show Execution.mk _ _ _ = _
  rw [onCopy, Program.run_bind, hrun]
  cases result <;> rfl

end

end Task

end Reconciliation
