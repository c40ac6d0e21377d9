import Reconciliation.Proofs.Edit.Effect
import Reconciliation.Proofs.Engine.Fates
import Reconciliation.Proofs.Engine.Invocation
import Reconciliation.Proofs.Finalizer.Enforcing

/-!
The order of an invocation. `Orderly` says what an invocation does before what, and what it leaves
out: the resource is looked at before the finalizer, the finalizer is on the stored resource before
the work of any step begins, and the steps are visited one after the other until the engine does not
get past one of them.
-/
namespace Reconciliation

structure Trace (σ : Type) where
  result : Except (Stop WorkError) Requeue
  state : σ
  store : Store
  requests : List Request

namespace Engine

variable {σ : Type} {engine : Engine σ} {now : Timestamp} {key : Key} {state : σ} {store : Store}

/-- What an invocation on the resource under a key comes to. -/
def trace (engine : Engine σ) (now : Timestamp) (key : Key) (state : σ) (store : Store) : Trace σ :=
  let ended := (engine.run now key state).run now store
  ⟨ended.1.1, ended.1.2, ended.2, (engine.run now key state).requests now store⟩

/-- What an engine has done about its finalizer when there is more to do. -/
inductive Secures (engine : Engine σ) (resource : Resource) (store : Store) :
    List Request → Resource → Store → Prop where
  | free (hFinalizer : engine.finalizer = none) : Secures engine resource store [] resource store
  | held {finalizer : Finalizer σ} {made : List Request} {result : Resource} {store' : Store}
    (hFinalizer : engine.finalizer = some finalizer) (hLives : resource.isTerminating = false)
    (hTaken : finalizer.Taken resource store made result store') :
    Secures engine resource store made result store'

section

variable {scene scene' : Scene σ} {store' : Store} {made : List Request}

/-- Asking a skipper comes to what it says, and changes nothing but the state. -/
theorem ends_asks_iff {skipper : Option (Skipper σ)} {skipped : Bool} :
    (asks skipper).Ends now scene store made ⟨.ok skipped, scene', store'⟩ ↔
      made = [] ∧ consult skipper scene.resource scene.state = (skipped, scene'.state) ∧
        scene'.resource = scene.resource ∧ store' = store := by
  have hApply := asks_apply skipper scene
  constructor
  · rintro ⟨hExec, rfl⟩
    rw [Task.exec, hApply] at hExec
    cases hExec
    rw [hApply]
    exact ⟨rfl, rfl, rfl, rfl⟩
  · obtain ⟨resource, state⟩ := scene'
    rintro ⟨rfl, hSaid, rfl, rfl⟩
    rw [hSaid] at hApply
    exact ⟨by rw [Task.exec, hApply]; rfl, by rw [hApply]; rfl⟩

theorem Secures.of_some {finalizer : Finalizer σ} {resource result : Resource}
    (h : engine.Secures resource store made result store')
    (hFinalizer : engine.finalizer = some finalizer) :
    resource.isTerminating = false ∧ finalizer.Taken resource store made result store' := by
  cases h with
  | free hNone =>
      rw [hFinalizer] at hNone
      cases hNone
  | held hHeld hLives hTaken =>
      cases hFinalizer.symm.trans hHeld
      exact ⟨hLives, hTaken⟩

theorem Secures.of_none {resource result : Resource}
    (h : engine.Secures resource store made result store') (hNone : engine.finalizer = none) :
    made = [] ∧ result = resource ∧ store' = store := by
  cases h with
  | free _ => exact ⟨rfl, rfl, rfl⟩
  | held hHeld =>
      rw [hNone] at hHeld
      cases hHeld

/-- There is more to do if and only if the finalizer, if there is one, has been seen to. -/
theorem ends_finalize_none_iff :
    (engine.finalize now).Ends now scene store made ⟨.ok none, scene', store'⟩ ↔
      engine.Secures scene.resource store made scene'.resource store' ∧
        scene'.state = scene.state := by
  unfold finalize
  cases hFinalizer : engine.finalizer with
  | none =>
      rw [Task.ends_pure_iff]
      constructor
      · rintro ⟨rfl, hEnd⟩
        cases hEnd
        exact ⟨.free hFinalizer, rfl⟩
      · obtain ⟨resource, state⟩ := scene'
        rintro ⟨hSecures, rfl⟩
        obtain ⟨rfl, rfl, rfl⟩ := hSecures.of_none hFinalizer
        exact ⟨rfl, rfl⟩
  | some finalizer =>
      constructor
      · intro h
        obtain ⟨_, _, outcome, _, _, rfl, hEnforce, hRest⟩ := Task.ends_bind_ok_iff.1 h
        rcases outcome with error | _ | _
        · obtain ⟨_, _, _, _, _, -, -, hDone⟩ := Task.ends_bind_ok_iff.1 hRest
          cases (Task.ends_pure_iff.1 hDone).2
        · obtain ⟨rfl, hEnd⟩ := Task.ends_pure_iff.1 hRest
          cases hEnd
          obtain ⟨hLives, hTaken, hState⟩ :=
            Finalizer.ends_enforce_eq_false_iff.1 (Task.ends_attempt_ok_iff.1 hEnforce)
          rw [List.append_nil]
          exact ⟨.held hFinalizer hLives hTaken, hState⟩
        · cases (Task.ends_pure_iff.1 hRest).2
      · rintro ⟨hSecures, hState⟩
        obtain ⟨hLives, hTaken⟩ := hSecures.of_some hFinalizer
        exact Task.ends_bind_ok_iff.2 ⟨made, [], .ok false, scene', store',
          (List.append_nil made).symm, Task.ends_attempt_ok_iff.2
            (Finalizer.ends_enforce_eq_false_iff.2 ⟨hLives, hTaken, hState⟩),
          Task.ends_pure_iff.2 ⟨rfl, rfl⟩⟩

/-- The skipper after the finalizer is asked if and only if the one before lets the resource pass
and the finalizer has been seen to. -/
theorem ends_lead_iff (leaves : Bool) :
    (engine.lead now).Ends now scene store made
        ⟨.ok (if leaves then .leftAlone else .ready), scene', store'⟩ ↔
      ∃ asked, consult engine.preFinalizeSkipper scene.resource scene.state = (false, asked) ∧
        engine.Secures scene.resource store made scene'.resource store' ∧
        consult engine.skipper scene'.resource asked = (leaves, scene'.state) := by
  constructor
  · intro h
    obtain ⟨_, _, passedOver, asked, _, rfl, hAsks, h⟩ := Task.ends_bind_ok_iff.1 h
    obtain ⟨rfl, hSaid, hSame, rfl⟩ := ends_asks_iff.1 hAsks
    cases passedOver with
    | true => cases leaves <;> cases (Task.ends_pure_iff.1 h).2
    | false =>
        obtain ⟨_, _, ended, secured, _, rfl, hFinalize, h⟩ := Task.ends_bind_ok_iff.1 h
        cases ended with
        | some requeue => cases leaves <;> cases (Task.ends_pure_iff.1 h).2
        | none =>
            obtain ⟨hSecures, hState⟩ := ends_finalize_none_iff.1 (Task.ends_widen_ok_iff.1 hFinalize)
            obtain ⟨_, last, leftAlone, left, _, rfl, hAsks, h⟩ := Task.ends_bind_ok_iff.1 h
            obtain ⟨rfl, hSaid', hAfter, rfl⟩ := ends_asks_iff.1 hAsks
            rw [hSame] at hSecures
            rw [← hAfter] at hSecures hSaid'
            rw [hState] at hSaid'
            cases leftAlone <;> cases leaves
            case false.true | true.false => cases (Task.ends_pure_iff.1 h).2
            all_goals
              obtain ⟨rfl, hEnd⟩ := Task.ends_pure_iff.1 h
              cases hEnd
              rw [List.nil_append, List.nil_append, List.append_nil]
              exact ⟨asked.state, hSaid, hSecures, hSaid'⟩
  · rintro ⟨asked, hSaid, hSecures, hSaid'⟩
    refine Task.ends_bind_ok_iff.2 ⟨[], made, false, ⟨scene.resource, asked⟩, store, rfl,
      ends_asks_iff.2 ⟨rfl, hSaid, rfl, rfl⟩, ?_⟩
    refine Task.ends_bind_ok_iff.2 ⟨made, [], none, ⟨scene'.resource, asked⟩, store',
      (List.append_nil made).symm, Task.ends_widen_ok_iff.2
        (ends_finalize_none_iff.2 ⟨hSecures, rfl⟩), ?_⟩
    refine Task.ends_bind_ok_iff.2 ⟨[], [], leaves, scene', store', rfl,
      ends_asks_iff.2 ⟨rfl, hSaid', rfl, rfl⟩, ?_⟩
    cases leaves <;> exact Task.ends_pure_iff.2 ⟨rfl, rfl⟩

/-- Where the skipper after the finalizer is asked, the finalizer has been seen to. -/
theorem secures_of_lead {lead : Lead}
    (h : (engine.lead now).Ends now scene store made ⟨.ok lead, scene', store'⟩)
    (hLead : lead = .leftAlone ∨ lead = .ready) :
    engine.Secures scene.resource store made scene'.resource store' := by
  rcases hLead with rfl | rfl
  · obtain ⟨_, -, hSecures, -⟩ := (ends_lead_iff true).1 h
    exact hSecures
  · obtain ⟨_, -, hSecures, -⟩ := (ends_lead_iff false).1 h
    exact hSecures

end

section

variable {resource : Resource}

/-- What an invocation comes to that has fetched its resource. -/
theorem trace_of_get (hGet : (store.get key).1 = .ok resource) :
    let execution := (engine.process now).exec now ⟨resource, state⟩ (store.count .get)
    engine.trace now key state store =
      ⟨execution.result, execution.scene.state, execution.store,
        .get key :: (engine.process now ⟨resource, state⟩).requests now (store.count .get)⟩ := by
  have hAnswer : store.get key = (.ok resource, store.count .get) := Prod.ext hGet rfl
  have hRequests : (engine.run now key state).requests now store =
      .get key :: (engine.process now ⟨resource, state⟩).requests now (store.count .get) := by
    rw [run, Program.requests]
    simp only [Request.serve, hAnswer, Program.requests_bind]
    exact congrArg (Request.get key :: ·) (List.append_nil _)
  intro execution
  rw [trace, run_eq_of_get_ok hAnswer, hRequests]

/-- A resource is found missing if nothing is stored under its key, and reading was not made to
fail. -/
theorem get_eq_notFound_iff : (∃ missing, (store.get key).1 = .error (.notFound missing)) ↔
    .get ∉ store.failing ∧ store.contains key = false := by
  rw [Store.get, Store.contains]
  by_cases hFailing : .get ∈ store.failing
  · simp [Store.allow, Store.count, hFailing, bind, Except.bind]
  · cases hStored : store.objects.get? key with
    | none => simp [Store.allow, Store.stored, Store.count, hFailing, hStored, bind, Except.bind]
    | some document =>
        cases hRead : Resource.ofJson document <;>
          simp [Store.allow, Store.stored, Store.count, hFailing, hStored, hRead, bind, Except.bind,
            Except.mapError]

/-- An invocation comes to the skipper after the finalizer, which is to be asked at `scene`: the
resource is there, the skipper before the finalizer lets it pass, and the finalizer has been seen
to. -/
structure Reaches (engine : Engine σ) (key : Key) (state : σ) (store : Store) (fetched : Resource)
    (made : List Request) (scene : Scene σ) (store' : Store) : Prop where
  get_eq : (store.get key).1 = .ok fetched
  passes : consult engine.preFinalizeSkipper fetched state = (false, scene.state)
  secures : engine.Secures fetched (store.count .get) made scene.resource store'

/-- An engine that comes to its steps visits them in their order, as far as it gets. -/
theorem itinerary_of_ready {scene : Scene σ} {store' : Store} (hGet : (store.get key).1 = .ok resource)
    (hLead : (engine.lead now).exec now ⟨resource, state⟩ (store.count .get) =
      ⟨.ok .ready, scene, store'⟩) :
    engine.itinerary now key state store = engine.visits now engine.steps scene store' := by
  have hAnswer : store.get key = (.ok resource, store.count .get) := Prod.ext hGet rfl
  simp only [itinerary, hAnswer, hLead]

/-- Once the finalizer has been seen to, it is on the stored resource, which is the one in hand. -/
theorem Secures.exists_stored {made : List Request} {result : Resource} {store' : Store}
    (h : engine.Secures resource store made result store') (hStore : store.Reachable)
    (hStore' : store'.Reachable) {document : Json} (hGet : store.objects.get? key = some document)
    (hRead : Resource.ofJson document = .ok resource) :
    result.key = key ∧ ∃ document', store'.objects.get? key = some document' ∧
      Resource.ofJson document' = .ok result ∧
      document'.isMarked = resource.isTerminating ∧
      ∀ finalizer, engine.finalizer = some finalizer → document'.Holds finalizer.name := by
  have hKey : resource.key = key :=
    (hStore.keyed hGet).key_of_ofJson (hStore.sound.stored hGet).1 hRead
  subst hKey
  cases h with
  | free hNone =>
      refine ⟨rfl, document, hGet, hRead,
        Json.isMarked_of_ofJson (hStore.sound.stored hGet).1 hRead, fun finalizer hFinalizer => ?_⟩
      rw [hNone] at hFinalizer
      cases hFinalizer
  | held hFinalizer hLives hTaken =>
      obtain ⟨document', hGet', hHolds, hMarked, hRead'⟩ :=
        hTaken.exists_stored hStore.sound hGet hRead
      refine ⟨(hStore'.keyed hGet').key_of_ofJson (hStore'.sound.stored hGet').1 hRead',
        document', hGet', hRead', hMarked, fun finalizer hHeld => ?_⟩
      cases hFinalizer.symm.trans hHeld
      exact hHolds

end

end Engine

end Reconciliation
