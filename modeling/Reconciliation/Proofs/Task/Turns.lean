import Reconciliation.Proofs.Histories
import Reconciliation.Proofs.Store.Versions
import Reconciliation.Proofs.Task.Conduct

/-!
Programs that take turns at a store. `Turns` lets any number of programs make their requests in any
order, one request each turn, with requests of others between them. What a program has asked and been
answered decides where it has got to, whatever the others do.
-/
namespace Reconciliation

structure Exchange where
  request : Request
  answer : request.Answer

namespace Program

variable {α : Type} {program rest : Program α} {request : Request}
  {next : request.Answer → Program α} {exchanges : List Exchange}

/-- Where a program gets to by an exchange of requests and answers. -/
inductive Reaches : Program α → List Exchange → Program α → Prop where
  | start (program : Program α) : Reaches program [] program
  | call {request : Request} {next : request.Answer → Program α} {exchanges : List Exchange}
    {rest : Program α} (answer : request.Answer) (hNext : Reaches (next answer) exchanges rest) :
    Reaches (.call request next) (⟨request, answer⟩ :: exchanges) rest

/-- One more answer leads on to what is left after it. -/
theorem Reaches.extend (h : program.Reaches exchanges (.call request next))
    (answer : request.Answer) :
    program.Reaches (exchanges ++ [⟨request, answer⟩]) (next answer) := by
  generalize hLast : Program.call request next = last at h
  induction h with
  | start =>
      subst hLast
      exact .call answer (.start _)
  | call given _ ih => exact .call given (ih hLast)

/-- A program ends in one way only by given exchanges. -/
theorem Reaches.ended_unique {value value' : α} {exchanges' more more' : List Exchange}
    (h : program.Reaches exchanges (.done value)) (h' : program.Reaches exchanges' (.done value'))
    (hSame : exchanges ++ more = exchanges' ++ more') : exchanges = exchanges' ∧ value = value' := by
  generalize hLast : Program.done value = last at h
  induction h generalizing exchanges' with
  | start =>
      subst hLast
      cases h'
      exact ⟨rfl, rfl⟩
  | call given _ ih =>
      cases h' with
      | call answer hNext =>
          obtain ⟨hHead, hTail⟩ := List.cons.inj hSame
          cases hHead
          obtain ⟨rfl, hValue⟩ := ih hNext hTail hLast
          exact ⟨rfl, hValue⟩

/-- What is left of a program that abides abides. -/
theorem Reaches.abides {asks : Request → Prop} {ends : α → Prop}
    (h : program.Reaches exchanges rest) (hAbides : program.Abides asks (fun _ _ => True) ends) :
    rest.Abides asks (fun _ _ => True) ends := by
  induction h with
  | start => exact hAbides
  | call answer _ ih =>
      cases hAbides with
      | call _ hNext => exact ih (hNext answer trivial)

structure World (ι α : Type) where
  store : Store
  left : ι → Program α

structure Turn (ι : Type) extends Store.Entry where
  /-- The program that has made it, if one of them has. -/
  maker : Option ι

variable {ι : Type} [DecidableEq ι] {permits : Request → Prop} {start world : World ι α}
  {history : List (Turn ι)}

def exchangesOf (i : ι) (history : List (Turn ι)) : List Exchange :=
  history.filterMap fun turn =>
    if turn.maker = some i then some ⟨turn.request, turn.answer⟩ else none

/-- The worlds that programs come to, with all requests made in them, the last one last. Others make
such requests as are permitted to them. -/
inductive Turns (permits : Request → Prop) (start : World ι α) :
    List (Turn ι) → World ι α → Prop where
  | start : Turns permits start [] start
  | other {history : List (Turn ι)} {world : World ι α} (prior : Turns permits start history world)
    (turn : Turn ι) (hMaker : turn.maker = none) (hBefore : turn.before = world.store)
    (hPermits : permits turn.request) :
    Turns permits start (history ++ [turn]) { world with store := turn.after }
  | own {history : List (Turn ι)} {world : World ι α} (prior : Turns permits start history world)
    (turn : Turn ι) {i : ι} {next : turn.request.Answer → Program α} (hMaker : turn.maker = some i)
    (hBefore : turn.before = world.store) (hLeft : world.left i = .call turn.request next) :
    Turns permits start (history ++ [turn])
      { store := turn.after
        left := fun j => if j = i then next turn.answer else world.left j }

theorem exchangesOf_append_of_ne {i : ι} {turn : Turn ι} (h : turn.maker ≠ some i) :
    exchangesOf i (history ++ [turn]) = exchangesOf i history := by
  simp [exchangesOf, h]

theorem exchangesOf_append_of_eq {i : ι} {turn : Turn ι} (h : turn.maker = some i) :
    exchangesOf i (history ++ [turn]) = exchangesOf i history ++ [⟨turn.request, turn.answer⟩] := by
  simp [exchangesOf, h]

/-- The exchanges of a program go on. -/
theorem exchangesOf_append (i : ι) (first rest : List (Turn ι)) :
    exchangesOf i (first ++ rest) = exchangesOf i first ++ exchangesOf i rest :=
  List.filterMap_append

/-- The first exchange of a program is that of the first turn it has made. -/
theorem exists_first_of_exchangesOf {i : ι} {exchange : Exchange} {since : List Exchange}
    (h : exchangesOf i history = exchange :: since) :
    ∃ past turn later, history = past ++ turn :: later ∧ turn.maker = some i ∧
      (⟨turn.request, turn.answer⟩ : Exchange) = exchange ∧ ∀ other ∈ past, other.maker ≠ some i := by
  obtain ⟨past, turn, later, rfl, hPast, hTurn, -⟩ := List.filterMap_eq_cons_iff.1 h
  rw [Option.ite_none_right_eq_some] at hTurn
  refine ⟨past, turn, later, rfl, hTurn.1, Option.some.inj hTurn.2, fun other hOther hMaker => ?_⟩
  have hNone := hPast other hOther
  rw [if_pos hMaker] at hNone
  cases hNone

/-- Each turn is made in a world that programs come to. -/
theorem Turns.exists_world (h : Turns permits start history world) {first rest : List (Turn ι)}
    {turn : Turn ι} (hHistory : history = first ++ turn :: rest) :
    ∃ earlier, Turns permits start first earlier ∧ turn.before = earlier.store ∧
      ((turn.maker = none ∧ permits turn.request) ∨
        ∃ i next, turn.maker = some i ∧ earlier.left i = .call turn.request next) := by
  induction h generalizing rest with
  | start => exact absurd hHistory (by simp)
  | other prior turn hMaker hBefore hPermits ih =>
      rcases List.last_cases hHistory with ⟨rfl, rfl, rfl⟩ | ⟨rest, rfl, hRest⟩
      · exact ⟨_, prior, hBefore, .inl ⟨hMaker, hPermits⟩⟩
      · exact ih hRest
  | own prior turn hMaker hBefore hLeft ih =>
      rcases List.last_cases hHistory with ⟨rfl, rfl, rfl⟩ | ⟨rest, rfl, hRest⟩
      · exact ⟨_, prior, hBefore, .inr ⟨_, _, hMaker, hLeft⟩⟩
      · exact ih hRest

/-- What each turn keeps of the store, all of them keep. -/
theorem Turns.of_keeps (h : Turns permits start history world)
    (P : List (Turn ι) → Store → Prop) (hStart : P [] start.store)
    (hKeeps : ∀ {history world turn}, Turns permits start (history ++ [turn]) world →
      P history turn.before → P (history ++ [turn]) turn.after) :
    P history world.store := by
  induction h with
  | start => exact hStart
  | other prior turn hMaker hBefore hPermits ih =>
      exact hKeeps (prior.other turn hMaker hBefore hPermits) (hBefore ▸ ih)
  | own prior turn hMaker hBefore hLeft ih =>
      exact hKeeps (prior.own turn hMaker hBefore hLeft) (hBefore ▸ ih)

end Program

end Reconciliation
