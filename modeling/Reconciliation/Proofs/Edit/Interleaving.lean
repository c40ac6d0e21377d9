import Reconciliation.Proofs.Edit.Stages
import Reconciliation.Proofs.Store.Writing
import Reconciliation.Proofs.Task.Turns

/-!
Edits that share a store with each other and with everybody else. `Run` lets any number of edits
take turns in any order, one request each turn, with any requests of others between them; the
requests that a mutation or a hook makes count as requests of others. Each edit carries out its own
program in this (`Run.exists_reaches`).
-/
namespace Reconciliation.Edit

variable {σ μ ι : Type}

/-- The request that an edit makes next. -/
structure Pending (σ μ : Type) where
  /-- Whether it is the edit's own, and not one of its mutation or its hook. -/
  own : Bool
  request : Request
  next : request.Answer → Stage σ μ

namespace Stage

/-- The request that an edit makes next, if the mutation and the hook have not just ended. -/
def pending? (edit : Edit σ μ) : Stage σ μ → Option (Pending σ μ)
  | fetching scene => some ⟨true, .get scene.resource.key, fetched edit scene⟩
  | mutating base (.call request next) =>
    some ⟨false, request, fun answer => .mutating base (next answer)⟩
  | mutating _ (.done _) => none
  | hooking base value (.call request next) =>
    some ⟨false, request, fun answer => .hooking base value (next answer)⟩
  | hooking _ _ (.done _) => none
  | patching base value after scene =>
    some ⟨true, .patch scene.resource base.resource, patched base value after scene⟩
  | patchingStatus value written target base scene =>
    some ⟨true, .patchStatus target base, statusPatched value written scene⟩
  | ended .. => none

def leaveHook : Stage σ μ → Stage σ μ
  | hooking base value (.done outcome) => hooked base value outcome
  | stage => stage

def proceed (edit : Edit σ μ) : Stage σ μ → Stage σ μ
  | mutating base (.done outcome) => (mutated edit base outcome).leaveHook
  | stage => stage.leaveHook

theorem program_leaveHook (edit : Edit σ μ) (stage : Stage σ μ) :
    stage.leaveHook.program edit = stage.program edit := by
  cases stage with
  | hooking base value left =>
      cases left with
      | done outcome =>
          rw [leaveHook]
          conv => rhs; rw [program, Program.bind]
      | call => rfl
  | _ => rfl

/-- What is left of the program stays the same while no request is made. -/
theorem program_proceed (edit : Edit σ μ) (stage : Stage σ μ) :
    (stage.proceed edit).program edit = stage.program edit := by
  cases stage with
  | mutating base left =>
      cases left with
      | done outcome =>
          rw [proceed, program_leaveHook]
          conv => rhs; rw [program, Program.bind]
      | call => rfl
  | hooking base value left => exact program_leaveHook edit (hooking base value left)
  | _ => rfl

/-- An edit makes its next request and goes on with the answer. -/
theorem program_eq_call {edit : Edit σ μ} {stage : Stage σ μ} {pending : Pending σ μ}
    (h : stage.pending? edit = some pending) :
    stage.program edit =
      .call pending.request fun answer => ((pending.next answer).proceed edit).program edit := by
  simp only [program_proceed]
  cases stage with
  | fetching scene =>
      cases h
      rw [program]
  | mutating base left =>
      cases left with
      | done outcome => cases h
      | call request next =>
          cases h
          simp only [program, Program.bind]
  | hooking base value left =>
      cases left with
      | done outcome => cases h
      | call request next =>
          cases h
          simp only [program, Program.bind]
  | patching base value after scene =>
      cases h
      rw [program]
  | patchingStatus value written target base scene =>
      cases h
      rw [program]
  | ended result scene => cases h

end Stage

/-- A store, and edits at their stages. -/
structure World (ι σ μ : Type) where
  store : Store
  stages : ι → Stage σ μ

/-- A request that was made in a world. -/
structure Event (ι : Type) where
  /-- The edit whose own request it is, if it is one. -/
  maker : Option ι
  request : Request
  now : Timestamp
  /-- The store that the request came to. -/
  before : Store

namespace Event

def answer (event : Event ι) : event.request.Answer :=
  (event.request.serve event.now event.before).1

def after (event : Event ι) : Store :=
  (event.request.serve event.now event.before).2

/-- Whether something was committed under a key. -/
def CommitsTo (key : Key) (event : Event ι) : Prop :=
  event.request.written? = some key ∧ event.after.version ≠ event.before.version

end Event

variable [DecidableEq ι]

/-- The worlds that edits come to, with all requests made in them, the last one last. -/
inductive Run (edits : ι → Edit σ μ) (start : World ι σ μ) :
    List (Event ι) → World ι σ μ → Prop where
  | start : Run edits start [] start
  /-- Somebody else makes a request. -/
  | other {history : List (Event ι)} {world : World ι σ μ} (prior : Run edits start history world)
    {event : Event ι} (hMaker : event.maker = none) (hBefore : event.before = world.store) :
    Run edits start (history ++ [event]) { world with store := event.after }
  /-- An edit makes its next request. -/
  | turn {history : List (Event ι)} {world : World ι σ μ} (prior : Run edits start history world)
    (i : ι) {pending : Pending σ μ} (hPending : (world.stages i).pending? (edits i) = some pending)
    (now : Timestamp) :
    Run edits start
      (history ++ [⟨if pending.own then some i else none, pending.request, now, world.store⟩])
      { store := (pending.request.serve now world.store).2
        stages := fun j =>
          if j = i then
            (pending.next (pending.request.serve now world.store).1).proceed (edits i)
          else world.stages j }

/-- What an edit has asked in a run, and been answered, has led from the beginning of its program to
where it has got to. All requests of its own are among that. -/
theorem Run.exists_reaches {edits : ι → Edit σ μ} {start world : World ι σ μ}
    {history : List (Event ι)} (hRun : Run edits start history world) {i : ι} {scene : Scene σ}
    (hStart : start.stages i = .fetching scene) :
    ∃ made : List (Event ι), made.Sublist history ∧
      (history.filter (·.maker = some i)).Sublist made ∧
      ((edits i).run scene).Reaches (made.map fun event => ⟨event.request, event.answer⟩)
        ((world.stages i).program (edits i)) := by
  induction hRun with
  | start =>
      refine ⟨[], .slnil, .slnil, ?_⟩
      rw [hStart, program_fetching]
      exact .start _
  | other prior hMaker _ ih =>
      obtain ⟨made, hMade, hOwn, hReaches⟩ := ih
      refine ⟨made, hMade.trans (List.sublist_append_left _ _), ?_, hReaches⟩
      rw [List.filter_append, List.filter_singleton, hMaker]
      simpa using hOwn
  | @turn history world prior j pending hPending now ih =>
      obtain ⟨made, hMade, hOwn, hReaches⟩ := ih
      by_cases hSame : i = j
      · subst hSame
        rw [Stage.program_eq_call hPending] at hReaches
        refine ⟨made ++ [_], hMade.append (.refl _), ?_, ?_⟩
        · rw [List.filter_append]
          exact hOwn.append List.filter_sublist
        · dsimp only
          rw [if_pos rfl, List.map_append]
          exact hReaches.extend _
      · dsimp only
        rw [if_neg hSame]
        refine ⟨made, hMade.trans (List.sublist_append_left _ _), ?_, hReaches⟩
        have hOther : (if pending.own then some j else none) ≠ some i := by
          split
          · exact fun h => hSame (Option.some.inj h).symm
          · exact nofun
        rw [List.filter_append, List.filter_cons_of_neg (by simpa using hOther), List.filter_nil,
          List.append_nil]
        exact hOwn

end Reconciliation.Edit
