import Reconciliation.Proofs.Store.Writing
import Reconciliation.Proofs.Task.Requests

/-!
The conduct of programs and tasks: which requests they make and how they end, whoever else uses the
store, as long as the answers are of a kind that can be expected. `Gentle` tasks write nothing and
leave the metadata of the resource alone.
-/
namespace Reconciliation

namespace Program

variable {α β : Type} {asks asks' : Request → Prop}
  {gets gets' : (request : Request) → request.Answer → Prop} {ends ends' : α → Prop}

/-- A program all of whose requests are such that `asks`, and that ends such that `ends`, if its
answers are such that `gets`. -/
inductive Abides (asks : Request → Prop) (gets : (request : Request) → request.Answer → Prop)
    (ends : α → Prop) : Program α → Prop where
  | done {value : α} (hEnds : ends value) : Abides asks gets ends (.done value)
  | call {request : Request} {next : request.Answer → Program α} (hAsks : asks request)
    (hNext : ∀ answer, gets request answer → Abides asks gets ends (next answer)) :
    Abides asks gets ends (.call request next)

theorem Abides.mono {program : Program α} (h : program.Abides asks gets ends)
    (hAsks : ∀ request, asks request → asks' request)
    (hGets : ∀ request answer, gets' request answer → gets request answer)
    (hEnds : ∀ value, ends value → ends' value) : program.Abides asks' gets' ends' := by
  induction h with
  | done h => exact .done (hEnds _ h)
  | call h _ ih => exact .call (hAsks _ h) fun answer hAnswer => ih answer (hGets _ answer hAnswer)

/-- A program abides if each of its parts does. -/
theorem Abides.bind {program : Program α} {f : α → Program β} {last : β → Prop}
    (h : program.Abides asks gets ends)
    (hNext : ∀ value, ends value → (f value).Abides asks gets last) :
    (program.bind f).Abides asks gets last := by
  induction h with
  | done h => exact hNext _ h
  | call h _ ih => exact .call h fun answer hAnswer => ih answer hAnswer

/-- On a store that nobody else uses, a program keeps what each of its requests keeps. -/
theorem Abides.run {program : Program α} {keeps : Store → Prop} {now : Timestamp}
    (h : program.Abides asks gets ends)
    (hServe : ∀ request store, asks request → keeps store →
      gets request (request.serve now store).1 ∧ keeps (request.serve now store).2)
    {store : Store} (hStore : keeps store) :
    ends (program.run now store).1 ∧ keeps (program.run now store).2 := by
  induction h generalizing store with
  | done h => exact ⟨h, hStore⟩
  | call h _ ih =>
      obtain ⟨hAnswer, hAfter⟩ := hServe _ store h hStore
      exact ih _ hAnswer hAfter

end Program

/-- A task leads from a reachable store to a reachable one. -/
theorem Store.Reachable.exec {σ ε α : Type} {now : Timestamp} {task : Task σ ε α}
    {scene scene' : Scene σ} {store store' : Store} {result : Except (Stop ε) α}
    (h : store.Reachable) (hExec : task.exec now scene store = ⟨result, scene', store'⟩) :
    store'.Reachable := by
  have hRun := h.run (task scene) now
  rwa [show ((task scene).run now store).2 = store' from congrArg Execution.store hExec] at hRun

theorem Store.Reachable.later_exec {σ ε α : Type} {now : Timestamp} {task : Task σ ε α}
    {scene scene' : Scene σ} {store store' : Store} {result : Except (Stop ε) α}
    (h : store.Reachable) (hExec : task.exec now scene store = ⟨result, scene', store'⟩) :
    store.Later store' := by
  have hRun := h.later_run (task scene) now
  rwa [show ((task scene).run now store).2 = store' from congrArg Execution.store hExec] at hRun

namespace Task

variable {σ ε ε' α β : Type} {asks : Request → Prop}
  {gets : (request : Request) → request.Answer → Prop}

/-- How a task abides that begins at a scene. -/
def AbidesAt (asks : Request → Prop) (gets : (request : Request) → request.Answer → Prop)
    (scene : Scene σ) (ends : Except (Stop ε) α → Scene σ → Prop) (task : Task σ ε α) : Prop :=
  (task scene).Abides asks gets fun ended => ends ended.1 ended.2

section

variable {scene : Scene σ} {ends : Except (Stop ε) α → Scene σ → Prop}

/-- A task abides if each of its parts does, from where the one before has left. -/
theorem AbidesAt.bind {task : Task σ ε α} {f : α → Task σ ε β}
    {last : Except (Stop ε) β → Scene σ → Prop} (h : task.AbidesAt asks gets scene ends)
    (hNext : ∀ value left, ends (.ok value) left → (f value).AbidesAt asks gets left last)
    (hStop : ∀ reason left, ends (.error reason) left → last (.error reason) left) :
    (task >>= f).AbidesAt asks gets scene last := by
  refine Program.Abides.bind h fun ended hEnded => ?_
  obtain ⟨_ | value, left⟩ := ended
  · exact .done (hStop _ left hEnded)
  · exact hNext value left hEnded

/-- What comes after a task that makes no requests. -/
theorem AbidesAt.bind_of_done {task : Task σ ε α} {f : α → Task σ ε β} {value : α} {left : Scene σ}
    {last : Except (Stop ε) β → Scene σ → Prop} (hDone : task scene = .done (.ok value, left))
    (h : (f value).AbidesAt asks gets left last) : (task >>= f).AbidesAt asks gets scene last := by
  show (Program.bind (task scene) _).Abides asks gets _
  rw [hDone]
  exact h

theorem AbidesAt.mono {task : Task σ ε α} {ends' : Except (Stop ε) α → Scene σ → Prop}
    (h : task.AbidesAt asks gets scene ends)
    (hEnds : ∀ result left, ends result left → ends' result left) :
    task.AbidesAt asks gets scene ends' :=
  Program.Abides.mono h (fun _ => id) (fun _ _ => id) fun ended => hEnds ended.1 ended.2

theorem AbidesAt.attempt {task : Task σ ε α}
    {last : Except (Stop ε') (Except ε α) → Scene σ → Prop}
    (h : task.AbidesAt asks gets scene ends)
    (hValue : ∀ value left, ends (.ok value) left → last (.ok (.ok value)) left)
    (hError : ∀ cause left, ends (.error (.error cause)) left → last (.ok (.error cause)) left)
    (hPanic : ∀ payload left, ends (.error (.panic payload)) left →
      last (.error (.panic payload)) left) :
    (task.attempt : Task σ ε' (Except ε α)).AbidesAt asks gets scene last := by
  refine Program.Abides.bind h fun ended hEnded => ?_
  obtain ⟨(payload | cause) | value, left⟩ := ended
  · exact .done (hPanic payload left hEnded)
  · exact .done (hError cause left hEnded)
  · exact .done (hValue value left hEnded)

theorem AbidesAt.onCopy {task : Task σ ε α} {copy : Resource}
    {last : Except (Stop ε) (α × Resource) → Scene σ → Prop}
    (h : task.AbidesAt asks gets { scene with resource := copy } ends)
    (hValue : ∀ value left, ends (.ok value) left →
      last (.ok (value, left.resource)) { left with resource := scene.resource })
    (hStop : ∀ reason left, ends (.error reason) left →
      last (.error reason) { left with resource := scene.resource }) :
    (task.onCopy copy).AbidesAt asks gets scene last := by
  refine Program.Abides.bind h fun ended hEnded => ?_
  obtain ⟨reason | value, left⟩ := ended
  · exact .done (hStop reason left hEnded)
  · exact .done (hValue value left hEnded)

/-- What abides carries an invariant of the store along that the answers keep. -/
theorem AbidesAt.exec {task : Task σ ε α} {keeps : Store → Prop} {now : Timestamp}
    (h : task.AbidesAt asks gets scene ends)
    (hServe : ∀ request store, asks request → keeps store →
      gets request (request.serve now store).1 ∧ keeps (request.serve now store).2)
    {store : Store} (hStore : keeps store) :
    ends (task.exec now scene store).result (task.exec now scene store).scene ∧
      keeps (task.exec now scene store).store :=
  Program.Abides.run h hServe hStore

end

/-- A task that leaves a part of the resource alone, wherever it begins and however it ends. -/
def Conducts {γ : Type} (asks : Request → Prop)
    (gets : (request : Request) → request.Answer → Prop) (part : Resource → γ)
    (task : Task σ ε α) : Prop :=
  ∀ scene, task.AbidesAt asks gets scene fun _ left => part left.resource = part scene.resource

section

variable {γ γ' : Type} {part : Resource → γ}

theorem Conducts.mono {asks' : Request → Prop}
    {gets' : (request : Request) → request.Answer → Prop} {part' : Resource → γ'}
    {task : Task σ ε α} (h : task.Conducts asks gets part)
    (hAsks : ∀ request, asks request → asks' request)
    (hGets : ∀ request answer, gets' request answer → gets request answer)
    (hPart : ∀ resource resource', part resource' = part resource →
      part' resource' = part' resource) : task.Conducts asks' gets' part' :=
  fun scene => Program.Abides.mono (h scene) hAsks hGets fun ended => hPart _ ended.2.resource

/-- A task without requests conducts itself if it leaves the part alone. -/
theorem conducts_of_done {task : Task σ ε α}
    (h : ∀ scene, ∃ result left, task scene = .done (result, left) ∧
      part left.resource = part scene.resource) : task.Conducts asks gets part := by
  intro scene
  obtain ⟨result, left, hDone, hPart⟩ := h scene
  rw [AbidesAt, hDone]
  exact .done hPart

theorem conducts_pure (value : α) : (Pure.pure value : Task σ ε α).Conducts asks gets part :=
  conducts_of_done fun _ => ⟨_, _, rfl, rfl⟩

theorem conducts_resource : (resource : Task σ ε Resource).Conducts asks gets part :=
  conducts_of_done fun _ => ⟨_, _, rfl, rfl⟩

theorem conducts_modifyResource {f : Resource → Resource}
    (h : ∀ resource, part (f resource) = part resource) :
    (modifyResource f : Task σ ε Unit).Conducts asks gets part :=
  conducts_of_done fun scene => ⟨_, _, rfl, h scene.resource⟩

theorem conducts_observe (f : Resource → σ → α × σ) :
    (observe f : Task σ ε α).Conducts asks gets part :=
  conducts_of_done fun _ => ⟨_, _, rfl, rfl⟩

theorem conducts_orPanic (words : ε' → String) (given : Except ε' α) :
    (orPanic words given : Task σ ε α).Conducts asks gets part := by
  cases given with
  | ok value => exact conducts_pure value
  | error cause => exact conducts_of_done fun _ => ⟨_, _, rfl, rfl⟩

section

variable {task : Task σ ε α}

/-- A conduct is kept to one task after another. -/
theorem Conducts.bind {f : α → Task σ ε β} (h : task.Conducts asks gets part)
    (hNext : ∀ value, (f value).Conducts asks gets part) : (task >>= f).Conducts asks gets part :=
  fun scene => (h scene).bind
    (fun value left hLeft => (hNext value left).mono fun _ _ hLast => hLast.trans hLeft)
    fun _ _ => id

theorem Conducts.attempt (h : task.Conducts asks gets part) :
    (task.attempt : Task σ ε' (Except ε α)).Conducts asks gets part :=
  fun scene => (h scene).attempt (fun _ _ => id) (fun _ _ => id) fun _ _ => id

theorem Conducts.contain (h : task.Conducts asks gets part) :
    (task.contain : Task σ ε' (Except (Stop ε) α)).Conducts asks gets part :=
  fun scene => Program.Abides.bind (h scene) fun _ hEnded => .done hEnded

theorem Conducts.mapError (h : task.Conducts asks gets part) (f : ε → ε') :
    (task.mapError f).Conducts asks gets part := by
  refine fun scene => Program.Abides.bind (h scene) fun ended hEnded => ?_
  obtain ⟨_ | value, left⟩ := ended
  · exact .done hEnded
  · exact .done hEnded

theorem Conducts.widen {task : Task σ Empty α} (h : task.Conducts asks gets part) :
    (task.widen : Task σ ε α).Conducts asks gets part :=
  h.mapError _

/-- Whatever a task does to a copy, the resource itself stays as it is. -/
theorem Conducts.onCopy {part' : Resource → γ'} (h : task.Conducts asks gets part')
    (copy : Resource) : (task.onCopy copy).Conducts asks gets part :=
  fun scene => (h { scene with resource := copy }).onCopy (fun _ _ _ => rfl) fun _ _ _ => rfl

end

end

/-- To be quiet is to keep to a conduct that allows no requests. -/
theorem quiet_iff_conducts {task : Task σ ε α} : task.Quiet ↔
    task.Conducts (fun _ => False) (fun _ _ => True) fun _ => () := by
  constructor
  · intro hQuiet
    refine conducts_of_done fun scene => ?_
    obtain ⟨⟨result, left⟩, hDone⟩ := hQuiet scene
    exact ⟨result, left, hDone, rfl⟩
  · intro hConducts scene
    have hAbides : (task scene).Abides (fun _ => False) (fun _ _ => True) fun _ => () = () :=
      hConducts scene
    cases hScene : task scene with
    | done ended => exact ⟨ended, rfl⟩
    | call request next =>
        rw [hScene] at hAbides
        cases hAbides with
        | call hAsks _ => exact hAsks.elim

/-- A task that writes nothing to the store and leaves the metadata of the resource alone. -/
def Gentle (task : Task σ ε α) : Prop :=
  task.Conducts (fun request => request.written? = none) (fun _ _ => True) Resource.metadata

end Task

end Reconciliation
