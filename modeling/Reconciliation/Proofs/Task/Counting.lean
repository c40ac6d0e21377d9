import Reconciliation.Task.Execution

namespace Reconciliation

variable {σ ε α : Type}

namespace Store

theorem count_comm (counted verb : Verb) (store : Store) :
    (store.count counted).count verb = (store.count verb).count counted := by
  cases counted <;> cases verb <;> rfl

/-- Counting a request beforehand or afterwards makes no difference to a write. -/
theorem write_count (counted verb : Verb) (key : Key) (expected : Option String)
    (change : Json → Json) (store : Store) :
    (store.count counted).write verb key expected change =
      ((store.write verb key expected change).1,
        (store.write verb key expected change).2.count counted) := by
  simp only [write]
  rw [count_comm]
  have hSeen : (((store.count verb).count counted).allow verb key >>= fun _ =>
      ((store.count verb).count counted).expect key expected) =
      ((store.count verb).allow verb key >>= fun _ => (store.count verb).expect key expected) := rfl
  rw [hSeen]
  cases (store.count verb).allow verb key >>= fun _ =>
    (store.count verb).expect key expected <;> rfl

end Store

/-- A store does not answer otherwise if it has counted one request more. -/
theorem Request.serve_count (now : Timestamp) (counted : Verb) (request : Request) (store : Store) :
    request.serve now (store.count counted) =
      ((request.serve now store).1, (request.serve now store).2.count counted) := by
  cases request with
  | get key => simp only [serve, Store.get, Store.count_comm counted]; rfl
  | update resource =>
      simp only [serve, Store.update]
      cases resource.toJson with
      | error => rfl
      | ok => exact Store.write_count ..
  | updateStatus resource =>
      simp only [serve, Store.updateStatus]
      cases resource.snapshot with
      | error => rfl
      | ok => exact Store.write_count ..
  | patch resource base =>
      simp only [serve, Store.patch]
      cases base.snapshot with
      | error => rfl
      | ok =>
          cases resource.snapshot with
          | error => rfl
          | ok => exact Store.write_count ..
  | patchStatus resource base =>
      simp only [serve, Store.patchStatus]
      cases base.snapshot with
      | error => rfl
      | ok =>
          cases resource.snapshot with
          | error => rfl
          | ok => exact Store.write_count ..
  | insert resource =>
      simp only [serve, Store.insert]
      cases resource.toJson <;> rfl
  | peek key => rfl
  | delete key =>
      have hStored : (store.count counted).stored key = store.stored key := rfl
      simp only [serve, Store.delete, hStored]
      cases store.stored key <;> rfl
  | failOn verb =>
      simp only [serve, Store.failOn]
      split <;> split <;> first | rfl | contradiction
  | clearFailures => rfl

/-- It makes none to a program. -/
theorem Program.run_count (now : Timestamp) (counted : Verb) (program : Program α) (store : Store) :
    program.run now (store.count counted) =
      ((program.run now store).1, (program.run now store).2.count counted) := by
  induction program generalizing store with
  | done value => rfl
  | call request next ih =>
      simp only [run, Request.serve_count now counted request store]
      exact ih _ _

/-- Nor does a task end otherwise. -/
theorem Task.exec_count (now : Timestamp) (counted : Verb) (task : Task σ ε α) (scene : Scene σ)
    (store : Store) :
    task.exec now scene (store.count counted) =
      { task.exec now scene store with
        store := (task.exec now scene store).store.count counted } := by
  simp only [exec, Program.run_count]

end Reconciliation
