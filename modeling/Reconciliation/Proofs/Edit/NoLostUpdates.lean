import Reconciliation.Proofs.Edit.Effect
import Reconciliation.Proofs.Edit.Races
import Reconciliation.Proofs.Histories

namespace Reconciliation.Edit

open List (last_cases)

variable {σ μ ι : Type} [DecidableEq ι] {edits : ι → Edit σ μ} {start world : World ι σ μ}
  {history : List (Event ι)}

/-- A run leaves a sound store sound, whoever makes the requests. -/
theorem Run.sound (hStart : start.store.Sound) (hRun : Run edits start history world) :
    world.store.Sound := by
  induction hRun with
  | start => exact hStart
  | other _ _ hBefore ih => exact (Event.changed (hBefore ▸ ih)).sound (hBefore ▸ ih)
  | turn _ i _ now ih => exact (Store.changed_serve ih now _).sound ih

/-- In each world that edits come to, they have what they still write from their own requests. -/
theorem Run.founded (hStart : start.store.Sound)
    (hFetching : ∀ i, ∃ scene, start.stages i = .fetching scene)
    (hRun : Run edits start history world) (i : ι) :
    (world.stages i).Founded i history world.store := by
  induction hRun with
  | start =>
      obtain ⟨scene, hScene⟩ := hFetching i
      rw [hScene]
      trivial
  | other prior hMaker hBefore ih =>
      exact ih.extend (prior.sound hStart) hBefore (by simp [hMaker])
  | turn prior j hPending now ih =>
      have hSound := prior.sound hStart
      by_cases hSame : i = j
      · subst hSame
        dsimp only
        rw [if_pos rfl]
        exact (ih.next hSound hPending rfl).proceed
      · dsimp only
        rw [if_neg hSame]
        refine ih.extend hSound rfl ?_
        split
        · exact fun h => hSame (Option.some.inj h).symm
        · exact nofun

/-- Whatever an edit writes rests on its last request before: it is applied to the very document
that stood in the store then, and nothing was committed under the key since, or it is refused. Then
it leaves all documents alone, and the edit ends with the refusal and makes no more requests. -/
theorem Run.exists_source_of_write (hStart : start.store.Reachable)
    (hFetching : ∀ i, ∃ scene, start.stages i = .fetching scene)
    (hRun : Run edits start history world) {earlier later : List (Event ι)} {event : Event ι}
    (hHistory : history = earlier ++ event :: later) {i : ι} (hMaker : event.maker = some i)
    {key : Key} (hWritten : event.request.written? = some key) :
    ∃ first source between origin, earlier = first ++ source :: between ∧
      source.maker = some i ∧ (∀ other ∈ between, other.maker ≠ some i) ∧
      Grounds origin source.request event.request ∧
      Decided i source between origin key event later (world.stages i) := by
  induction hRun generalizing later with
  | start => exact absurd hHistory (by simp)
  | other prior hOther hBefore ih =>
      rcases last_cases hHistory with ⟨rfl, rfl, rfl⟩ | ⟨rest, rfl, hRest⟩
      · rw [hOther] at hMaker
        cases hMaker
      · obtain ⟨first, source, between, origin, hSplit, hOwn, hOthers, hGrounds, hDecided⟩ := ih hRest
        refine ⟨first, source, between, origin, hSplit, hOwn, hOthers, hGrounds, ?_⟩
        exact hDecided.extend fun _ _ _ => ⟨rfl, by simp [hOther]⟩
  | turn prior j hPending now ih =>
      rcases last_cases hHistory with ⟨rfl, rfl, rfl⟩ | ⟨rest, rfl, hRest⟩
      · dsimp only at hMaker ⊢
        split at hMaker
        · rename_i hOwn
          cases hMaker
          rw [if_pos rfl]
          have hFounded := prior.founded hStart.sound hFetching i
          exact hFounded.decided hPending hOwn (by rw [if_pos hOwn]) hWritten
        · cases hMaker
      · obtain ⟨first, source, between, origin, hSplit, hOwn, hOthers, hGrounds, hDecided⟩ := ih hRest
        refine ⟨first, source, between, origin, hSplit, hOwn, hOthers, hGrounds, ?_⟩
        refine hDecided.extend fun result scene hEnded => ?_
        -- An edit that has ended takes no turn.
        have hOther : i ≠ j := by
          rintro rfl
          rw [hEnded] at hPending
          cases hPending
        refine ⟨if_neg hOther, ?_⟩
        dsimp only
        split
        · exact fun h => hOther (Option.some.inj h).symm
        · exact nofun

/-- An edit that has written everything but the status when somebody else replaces the resource
loses the race for the status. -/
theorem exists_source_of_lateStatus :
    ∃ (history earlier : List (Event Unit)) (event : Event Unit) (world : World Unit Nat _),
      Run (fun _ => ofTask halfDone true (some countingHook))
        ⟨plainStore, fun _ => .fetching ⟨plainResource, 0⟩⟩ history world ∧
      history = earlier ++ [event] ∧ event.maker = some () ∧
      event.request.written? = some plainResource.key ∧
      (∃ first source between origin, earlier = first ++ source :: between ∧
        source.maker = some () ∧ (∀ other ∈ between, other.maker ≠ some ()) ∧
        Grounds origin source.request event.request ∧
        Decided () source between origin plainResource.key event [] (world.stages ())) ∧
      ∃ value scene, world.stages () = .ended (.ok ⟨some value,
        .error (.store (.conflict plainResource.key "2" (some "3")))⟩) scene := by
  have hFetching : ∀ i : Unit, ∃ scene, (fun _ => Stage.fetching ⟨plainResource, 0⟩ :
      Unit → Stage Nat (Except Report Unit)) i = .fetching scene := fun _ => ⟨_, rfl⟩
  have hPatched : Run (fun _ : Unit => ofTask halfDone true (some countingHook))
      ⟨plainStore, fun _ => .fetching ⟨plainResource, 0⟩⟩ _ _ :=
    (Run.start.turn () rfl default).turn () rfl default
  have hReplaced := hPatched.other
    (show (Event.mk none (.insert plainResource) default _).maker = none from rfl) rfl
  have hRun := hReplaced.turn () rfl default
  exact ⟨_, _, _, _, hRun, rfl, rfl, rfl,
    hRun.exists_source_of_write plainStore_reachable hFetching rfl rfl rfl, _, _, rfl⟩

end Reconciliation.Edit
