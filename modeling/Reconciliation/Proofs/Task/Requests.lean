import Reconciliation.Task.Execution

/-!
The requests that a program makes, in their order. `Task.Ends` says how a task ends on a store that
nobody else uses together with the requests it has made, and takes tasks apart that end with a value.
-/
namespace Reconciliation

namespace Program

variable {α β : Type}

/-- The requests of a program whose requests are answered from a store, all at the same time. -/
def requests (now : Timestamp) : Program α → Store → List Request
  | done _, _ => []
  | call request next, store =>
    let (answer, store) := request.serve now store
    request :: (next answer).requests now store

/-- The requests of a program come before those of the one that follows it. -/
theorem requests_bind (now : Timestamp) (program : Program α) (f : α → Program β) (store : Store) :
    (program.bind f).requests now store =
      program.requests now store ++
        (f (program.run now store).1).requests now (program.run now store).2 := by
  induction program generalizing store with
  | done => rfl
  | call request next ih => exact congrArg (request :: ·) (ih _ _)

end Program

namespace Task

variable {σ ε ε' α β : Type}

/-- How a task ends, and the requests it makes. -/
structure Ends (now : Timestamp) (task : Task σ ε α) (scene : Scene σ) (store : Store)
    (made : List Request) (execution : Execution σ ε α) : Prop where
  exec : task.exec now scene store = execution
  requests : (task scene).requests now store = made

def Quiet (task : Task σ ε α) : Prop :=
  ∀ scene, ∃ ended, task scene = .done ended

section

variable {now : Timestamp} {scene scene' : Scene σ} {store store' : Store}
  {made : List Request}

theorem requests_bind (task : Task σ ε α) (f : α → Task σ ε β) :
    ((task >>= f) scene).requests now store =
      (task scene).requests now store ++
        match (task.exec now scene store).result with
        | .ok value => (f value (task.exec now scene store).scene).requests now
            (task.exec now scene store).store
        | .error _ => [] := by
  rw [show (task >>= f) scene = (task scene).bind _ from rfl, Program.requests_bind, exec]
  congr 1
  rcases hRun : (task scene).run now store with ⟨⟨result, scene₁⟩, store₁⟩
  cases result <;> rfl

/-- A task ends with a value if and only if both of its parts do. -/
theorem exec_bind_eq_ok_iff {task : Task σ ε α} {f : α → Task σ ε β} {value : β} :
    (task >>= f).exec now scene store = ⟨.ok value, scene', store'⟩ ↔
      ∃ found scene₁ store₁, task.exec now scene store = ⟨.ok found, scene₁, store₁⟩ ∧
        (f found).exec now scene₁ store₁ = ⟨.ok value, scene', store'⟩ := by
  rw [exec_bind]
  rcases task.exec now scene store with ⟨_ | found, scene₁, store₁⟩
  · exact ⟨nofun, fun ⟨_, _, _, hFirst, _⟩ => nomatch hFirst⟩
  · constructor
    · exact fun h => ⟨found, scene₁, store₁, rfl, h⟩
    · rintro ⟨_, _, _, ⟨⟩, h⟩
      exact h

/-- The requests of the parts are made one after the other. -/
theorem ends_bind_ok_iff {task : Task σ ε α} {f : α → Task σ ε β} {value : β} :
    (task >>= f).Ends now scene store made ⟨.ok value, scene', store'⟩ ↔
      ∃ first rest found scene₁ store₁, made = first ++ rest ∧
        task.Ends now scene store first ⟨.ok found, scene₁, store₁⟩ ∧
        (f found).Ends now scene₁ store₁ rest ⟨.ok value, scene', store'⟩ := by
  rcases hTask : task.exec now scene store with ⟨result, scene₁, store₁⟩
  constructor
  · rintro ⟨hExec, hRequests⟩
    rw [exec_bind, hTask] at hExec
    rw [requests_bind, hTask] at hRequests
    cases result with
    | error reason => cases hExec
    | ok found => exact ⟨_, _, found, scene₁, store₁, hRequests.symm, ⟨hTask, rfl⟩, ⟨hExec, rfl⟩⟩
  · rintro ⟨first, rest, found, scene₂, store₂, rfl, ⟨hFirst, rfl⟩, ⟨hRest, rfl⟩⟩
    rw [hTask] at hFirst
    cases hFirst
    refine ⟨?_, ?_⟩
    · rw [exec_bind, hTask]
      exact hRest
    · rw [requests_bind, hTask]

theorem Ends.bind {task : Task σ ε α} {f : α → Task σ ε β} {first rest : List Request} {found : α}
    {execution : Execution σ ε β} (h : task.Ends now scene store first ⟨.ok found, scene', store'⟩)
    (hRest : (f found).Ends now scene' store' rest execution) :
    (task >>= f).Ends now scene store (first ++ rest) execution := by
  refine ⟨?_, ?_⟩
  · rw [exec_bind, h.exec]
    exact hRest.exec
  · rw [requests_bind, h.exec, h.requests]
    exact congrArg (first ++ ·) hRest.requests

theorem Ends.bind_error {task : Task σ ε α} {reason : Stop ε}
    (h : task.Ends now scene store made ⟨.error reason, scene', store'⟩) (f : α → Task σ ε β) :
    (task >>= f).Ends now scene store made ⟨.error reason, scene', store'⟩ := by
  refine ⟨?_, ?_⟩
  · rw [exec_bind, h.exec]
    rfl
  · rw [requests_bind, h.exec, h.requests]
    exact List.append_nil made

theorem ends_pure_iff {value : α} {execution : Execution σ ε α} :
    (Pure.pure value : Task σ ε α).Ends now scene store made execution ↔
      made = [] ∧ execution = ⟨.ok value, scene, store⟩ :=
  ⟨fun h => ⟨h.requests.symm, h.exec.symm⟩, fun ⟨hMade, hExec⟩ => ⟨hExec.symm, hMade.symm⟩⟩

theorem ends_resource :
    (resource : Task σ ε Resource).Ends now scene store [] ⟨.ok scene.resource, scene, store⟩ :=
  ⟨rfl, rfl⟩

theorem ends_setResource_iff {given : Resource} {execution : Execution σ ε Unit} :
    (setResource given : Task σ ε Unit).Ends now scene store made execution ↔
      made = [] ∧ execution = ⟨.ok (), { scene with resource := given }, store⟩ :=
  ⟨fun h => ⟨h.requests.symm, h.exec.symm⟩, fun ⟨hMade, hExec⟩ => ⟨hExec.symm, hMade.symm⟩⟩

/-- A request is made once, and answered by the store. -/
theorem ends_ask_ok_iff {request : Request} {answer : request.Answer} :
    (ask request : Task σ ε request.Answer).Ends now scene store made ⟨.ok answer, scene', store'⟩ ↔
      made = [request] ∧ request.serve now store = (answer, store') ∧ scene' = scene := by
  constructor
  · rintro ⟨hExec, rfl⟩
    rw [exec_ask] at hExec
    cases hExec
    exact ⟨rfl, rfl, rfl⟩
  · rintro ⟨rfl, hServe, rfl⟩
    exact ⟨by rw [exec_ask, hServe], rfl⟩

theorem ends_ofExcept_ok_iff {given : Except ε α} {value : α} :
    (ofExcept given : Task σ ε α).Ends now scene store made ⟨.ok value, scene', store'⟩ ↔
      made = [] ∧ given = .ok value ∧ scene' = scene ∧ store' = store := by
  constructor
  · rintro ⟨hExec, rfl⟩
    cases given with
    | error cause => cases hExec
    | ok found =>
        cases hExec
        exact ⟨rfl, rfl, rfl, rfl⟩
  · rintro ⟨rfl, rfl, rfl, rfl⟩
    exact ⟨rfl, rfl⟩

theorem requests_attempt (task : Task σ ε α) :
    ((task.attempt : Task σ ε' (Except ε α)) scene).requests now store =
      (task scene).requests now store := by
  rw [attempt, Program.requests_bind]
  rcases (task scene).run now store with ⟨⟨(_ | _) | _, _⟩, _⟩ <;> exact List.append_nil _

theorem exec_attempt_eq_ok_iff {task : Task σ ε α} {outcome : Except ε α} :
    (task.attempt : Task σ ε' (Except ε α)).exec now scene store =
        ⟨.ok outcome, scene', store'⟩ ↔
      task.exec now scene store = ⟨outcome.mapError .error, scene', store'⟩ := by
  rw [exec_attempt]
  rcases task.exec now scene store with ⟨(payload | cause) | found, _, _⟩
  · cases outcome <;> exact ⟨nofun, nofun⟩
  · cases outcome with
    | ok value => exact ⟨nofun, nofun⟩
    | error error => exact ⟨fun h => by cases h; rfl, fun h => by cases h; rfl⟩
  · cases outcome with
    | ok value => exact ⟨fun h => by cases h; rfl, fun h => by cases h; rfl⟩
    | error error => exact ⟨nofun, nofun⟩

/-- An attempt makes the requests of the task, and ends with what that comes to. -/
theorem ends_attempt_iff {task : Task σ ε α} {outcome : Except ε α} :
    (task.attempt : Task σ ε' (Except ε α)).Ends now scene store made
        ⟨.ok outcome, scene', store'⟩ ↔
      task.Ends now scene store made ⟨outcome.mapError .error, scene', store'⟩ :=
  ⟨fun h => ⟨exec_attempt_eq_ok_iff.1 h.exec, (requests_attempt task).symm.trans h.requests⟩,
    fun h => ⟨exec_attempt_eq_ok_iff.2 h.exec, (requests_attempt task).trans h.requests⟩⟩

theorem ends_attempt_ok_iff {task : Task σ ε α} {value : α} :
    (task.attempt : Task σ ε' (Except ε α)).Ends now scene store made
        ⟨.ok (.ok value), scene', store'⟩ ↔
      task.Ends now scene store made ⟨.ok value, scene', store'⟩ :=
  ends_attempt_iff

theorem requests_mapError (f : ε → ε') (task : Task σ ε α) :
    (task.mapError f scene).requests now store = (task scene).requests now store := by
  rw [mapError, Program.requests_bind]
  rcases (task scene).run now store with ⟨⟨_ | _, _⟩, _⟩ <;> exact List.append_nil _

theorem ends_widen_ok_iff {task : Task σ Empty α} {value : α} :
    (task.widen : Task σ ε α).Ends now scene store made ⟨.ok value, scene', store'⟩ ↔
      task.Ends now scene store made ⟨.ok value, scene', store'⟩ := by
  have hExec : (task.widen : Task σ ε α).exec now scene store = ⟨.ok value, scene', store'⟩ ↔
      task.exec now scene store = ⟨.ok value, scene', store'⟩ := by
    rw [widen, exec_mapError]
    rcases task.exec now scene store with ⟨(_ | impossible) | found, _, _⟩
    · exact ⟨nofun, nofun⟩
    · cases impossible
    · exact ⟨fun h => by cases h; rfl, fun h => by cases h; rfl⟩
  constructor
  · rintro ⟨h, hRequests⟩
    exact ⟨hExec.1 h, requests_mapError Empty.elim task ▸ hRequests⟩
  · rintro ⟨h, hRequests⟩
    exact ⟨hExec.2 h, (requests_mapError Empty.elim task).trans hRequests⟩

/-- A quiet task leaves the store alone and does not depend on it. -/
theorem Quiet.exec_eq {task : Task σ ε α} (hQuiet : task.Quiet) (now : Timestamp)
    (scene : Scene σ) :
    ∃ result scene', ∀ store, task.exec now scene store = ⟨result, scene', store⟩ := by
  obtain ⟨⟨result, scene'⟩, hDone⟩ := hQuiet scene
  exact ⟨result, scene', fun store => exec_of_run now scene store (by rw [hDone]; rfl)⟩

/-- A task without requests does the same on every store, and leaves it alone. -/
theorem Quiet.exec_store {task : Task σ ε α} (hQuiet : task.Quiet)
    {result : Except (Stop ε) α} {last : Store}
    (h : task.exec now scene store = ⟨result, scene', last⟩) (store' : Store) :
    last = store ∧ task.exec now scene store' = ⟨result, scene', store'⟩ := by
  obtain ⟨_, _, hExec⟩ := hQuiet.exec_eq now scene
  rw [hExec] at h
  cases h
  exact ⟨rfl, hExec store'⟩

theorem Quiet.ends {task : Task σ ε α} {execution : Execution σ ε α} (hQuiet : task.Quiet)
    (hExec : task.exec now scene store = execution) :
    task.Ends now scene store [] execution := by
  obtain ⟨ended, hDone⟩ := hQuiet scene
  exact ⟨hExec, by rw [hDone]; rfl⟩

theorem Quiet.attempt {task : Task σ ε α} (hQuiet : task.Quiet) :
    (task.attempt : Task σ ε' (Except ε α)).Quiet := by
  intro scene
  obtain ⟨⟨result, scene'⟩, hDone⟩ := hQuiet scene
  rw [Task.attempt, hDone]
  rcases result with (_ | _) | _ <;> exact ⟨_, rfl⟩

end

end Task

end Reconciliation
