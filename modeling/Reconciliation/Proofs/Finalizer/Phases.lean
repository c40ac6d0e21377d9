import Reconciliation.Proofs.Engine.Conduct
import Reconciliation.Proofs.Finalizer.Enforcing
import Reconciliation.Proofs.Task.Turns

/-!
The phases of an invocation with a finalizer. An invocation fetches the resource, and if that is being
deleted, it runs the cleanup and then writes the resource without the finalizer. `Phase` says where an
invocation is by what it has asked and been answered, and in all other places it changes no stored
metadata.
-/
namespace Reconciliation

namespace Finalizer

variable {σ : Type} {finalizer : Finalizer σ}

def afterRelease (scene : Scene σ) :
    Except StoreError Resource → Program (Except (Stop WorkError) Bool × Scene σ)
  | .ok written => .done (.ok true, { scene with resource := written })
  | .error error => .done (.error (.error (.store error)), scene)

def afterCleanup (finalizer : Finalizer σ) : Except (Stop Report) Unit × Scene σ →
    Program (Except (Stop WorkError) Bool × Scene σ)
  | (.error (.panic payload), scene) => .done (.error (.panic payload), scene)
  | (.error (.error report), scene) =>
    .done (.error (.error (.cleanup finalizer.name report)), scene)
  | (.ok (), scene) =>
    if scene.resource.hasFinalizer finalizer.name = true then
      .call (.update (scene.resource.removeFinalizer finalizer.name)) (afterRelease scene)
    else .done (.ok true, scene)

/-- A resource that is being deleted is cleaned up first. -/
theorem enforce_of_terminating {cleanup : Task σ Report Unit} {scene : Scene σ}
    (hCleanup : finalizer.cleanup = some cleanup) (hTerminating : scene.resource.isTerminating = true) :
    finalizer.enforce scene = (cleanup scene).bind finalizer.afterCleanup := by
  have hCleanUp : finalizer.cleanUp = cleanup.mapError (.cleanup finalizer.name) := by
    rw [cleanUp, hCleanup]
  rw [enforce_apply_of_terminating hTerminating, hCleanUp]
  show Program.bind (Program.bind (cleanup scene) _) _ = _
  rw [Program.bind_bind]
  refine congrArg (Program.bind _) (funext fun ended => ?_)
  obtain ⟨(payload | report) | ⟨⟩, cleaned⟩ := ended
  · rfl
  · rfl
  · show Program.bind ((if cleaned.resource.hasFinalizer finalizer.name = true then
      write (cleaned.resource.removeFinalizer finalizer.name) else pure () : Task σ WorkError Unit)
      cleaned) _ = _
    rw [afterCleanup]
    split
    · rw [write_apply]
      refine congrArg (Program.call _) (funext fun answer => ?_)
      cases answer <;> rfl
    · rfl

/-- A resource that holds the finalizer and is not being deleted is left as it is. -/
theorem enforce_of_holding {scene : Scene σ} (hLives : scene.resource.isTerminating = false)
    (hHas : scene.resource.hasFinalizer finalizer.name = true) :
    finalizer.enforce scene = .done (.ok false, scene) := by
  rw [enforce_apply_of_alive hLives]
  show Program.bind (finalizer.hold scene) _ = _
  rw [hold_apply, if_pos hHas]
  rfl

end Finalizer

namespace Engine

variable {σ : Type} {engine : Engine σ} {now : Timestamp} {finalizer : Finalizer σ}

/-- What an engine does if the finalizer cannot be seen to. -/
def failFinalizing (engine : Engine σ) (now : Timestamp) (error : WorkError) :
    Task σ WorkError Requeue := do
  (recordFinalizing now error).widen
  return engine.config.onFailure

def afterFinalizing (engine : Engine σ) (now : Timestamp) : Task σ WorkError Requeue := do
  if ← asks engine.skipper then return .none
  (engine.runSteps now engine.steps).widen

def afterEnforcing (engine : Engine σ) (now : Timestamp) :
    Except (Stop WorkError) Bool × Scene σ → Program (Except (Stop WorkError) Requeue × σ)
  | (.ok true, scene) => .done (.ok .none, scene.state)
  | (.ok false, scene) =>
    (engine.afterFinalizing now scene).bind fun ended => .done (ended.1, ended.2.state)
  | (.error (.panic payload), scene) => .done (.error (.panic payload), scene.state)
  | (.error (.error error), scene) =>
    (engine.failFinalizing now error scene).bind fun ended => .done (ended.1, ended.2.state)

def afterFetching (engine : Engine σ) (now : Timestamp) (key : Key) (state : σ) :
    Except StoreError Resource → Program (Except (Stop WorkError) Requeue × σ)
  | .ok resource => (engine.process now { resource, state }).bind fun ended =>
    .done (ended.1, ended.2.state)
  | .error (.notFound _) => .done (.ok .none, engine.noteGone key state)
  | .error error => .done (.error (.error (.store error)), state)

theorem run_eq (engine : Engine σ) (now : Timestamp) (key : Key) (state : σ) :
    engine.run now key state = .call (.get key) (engine.afterFetching now key state) := by
  refine congrArg (Program.call _) (funext fun answer => ?_)
  rcases answer with (_ | _ | _ | _) | _ <;> rfl

/-- After the first skipper comes the finalizer. -/
theorem afterFetching_of_asks {resource : Resource} {key : Key} {state : σ} {scene : Scene σ}
    {skipped : Bool}
    (hAsks : (asks engine.preFinalizeSkipper : Task σ WorkError Bool) ⟨resource, state⟩ =
      .done (.ok skipped, scene)) (hFinalizer : engine.finalizer = some finalizer) :
    engine.afterFetching now key state (.ok resource) =
      if skipped = true then .done (.ok .none, scene.state)
      else (finalizer.enforce scene).bind (engine.afterEnforcing now) := by
  rw [afterFetching, process]
  show Program.bind (Program.bind ((asks engine.preFinalizeSkipper : Task σ WorkError Bool)
    ⟨resource, state⟩) _) _ = _
  rw [hAsks]
  cases skipped with
  | true => rfl
  | false =>
      rw [finalize, hFinalizer]
      show Program.bind (Program.bind (Program.bind (Program.bind (Program.bind
        (finalizer.enforce scene) _) _) _) _) _ = _
      simp only [Program.bind_bind]
      refine congrArg (Program.bind _) (funext fun ended => ?_)
      obtain ⟨(payload | error) | _ | _, enforced⟩ := ended
      · rfl
      · show Program.bind (Program.bind (recordFinalizing now error enforced) _) _ =
          Program.bind (Program.bind (Program.bind (recordFinalizing now error enforced) _) _) _
        simp only [Program.bind_bind]
        refine congrArg (Program.bind _) (funext fun recorded => ?_)
        obtain ⟨(payload | impossible) | ⟨⟩, _⟩ := recorded
        · rfl
        · cases impossible
        · rfl
      · rfl
      · rfl

theorem steady_failFinalizing (error : WorkError) : (engine.failFinalizing now error).Steady :=
  (steady_recordFinalizing now error).widen.bind fun _ => Task.conducts_pure _

/-- After the finalizer no stored metadata change. -/
theorem steady_afterFinalizing (hSteps : ∀ step ∈ engine.steps, step.Gentle) :
    (engine.afterFinalizing now).Steady := by
  refine Task.Conducts.bind ?_ fun leftAlone => ?_
  · cases engine.skipper with
    | none => exact Task.conducts_pure false
    | some skipper => exact Task.conducts_observe skipper
  · cases leftAlone with
    | true => exact Task.conducts_pure _
    | false => exact (steady_runSteps hSteps).widen

/-- An engine that keeps a finalizer on resources until its cleanup has succeeded, and that changes
no stored metadata otherwise. -/
structure Guards (engine : Engine σ) (name : String) (cleanup : Task σ Report Unit) : Prop where
  finalizer : engine.finalizer = some { name, cleanup := some cleanup }
  cleanup : cleanup.Gentle
  steps : ∀ step ∈ engine.steps, step.Gentle

/-- What is left of an invocation while the cleanup runs. -/
def whileCleaning (engine : Engine σ) (now : Timestamp) (finalizer : Finalizer σ)
    (left : Program (Except (Stop Report) Unit × Scene σ)) :
    Program (Except (Stop WorkError) Requeue × σ) :=
  (left.bind finalizer.afterCleanup).bind (engine.afterEnforcing now)

/-- An invocation has found a resource that is being deleted, and `left` is left of the cleanup,
going by what the invocation has asked and been answered. -/
def Cleaning (engine : Engine σ) (cleanup : Task σ Report Unit) (key : Key) (state : σ)
    (exchanges : List Exchange) (found : Resource)
    (left : Program (Except (Stop Report) Unit × Scene σ)) : Prop :=
  ∃ state' since, exchanges = ⟨.get key, .ok found⟩ :: since ∧
    (asks engine.preFinalizeSkipper : Task σ WorkError Bool) ⟨found, state⟩ =
      .done (.ok false, ⟨found, state'⟩) ∧
    found.isTerminating = true ∧ (cleanup ⟨found, state'⟩).Reaches since left

/-- Where an invocation is, going by what it has asked and been answered. -/
inductive Phase (engine : Engine σ) (now : Timestamp) (name : String) (cleanup : Task σ Report Unit)
    (key : Key) (state : σ) (knows : Resource → Prop) :
    List Exchange → Program (Except (Stop WorkError) Requeue × σ) → Prop where
  | fetching : Phase engine now name cleanup key state knows [] (engine.run now key state)
  | cleaning {exchanges : List Exchange} {found : Resource}
    {left : Program (Except (Stop Report) Unit × Scene σ)}
    (hCleaning : engine.Cleaning cleanup key state exchanges found left) (hKnown : knows found) :
    Phase engine now name cleanup key state knows exchanges
      (engine.whileCleaning now { name, cleanup := some cleanup } left)
  /-- Stored metadata are not changed any more. -/
  | steady {exchanges : List Exchange} {rest : Program (Except (Stop WorkError) Requeue × σ)}
    (hSteady : rest.Abides Request.SparesMetadata Request.Fits fun _ => True) :
    Phase engine now name cleanup key state knows exchanges rest

/-- The cleanup of an invocation has ended well, and the invocation asks for the resource to be
written without the finalizer. -/
structure Releases (engine : Engine σ) (name : String) (cleanup : Task σ Report Unit) (key : Key)
    (state : σ) (exchanges : List Exchange) (request : Request) (found : Resource)
    (cleaned : Scene σ) : Prop where
  cleaning : engine.Cleaning cleanup key state exchanges found (.done (.ok (), cleaned))
  request : request = .update (cleaned.resource.removeFinalizer name)

section

variable {name : String} {cleanup : Task σ Report Unit} {key : Key} {state : σ}
  {exchanges : List Exchange} {found : Resource}

/-- A cleanup goes on with each answer. -/
theorem Cleaning.extend {request : Request}
    {next : request.Answer → Program (Except (Stop Report) Unit × Scene σ)}
    (h : engine.Cleaning cleanup key state exchanges found (.call request next))
    (answer : request.Answer) :
    engine.Cleaning cleanup key state (exchanges ++ [⟨request, answer⟩]) found (next answer) := by
  obtain ⟨state', since, rfl, hAsks, hTerminating, hReaches⟩ := h
  exact ⟨state', _, rfl, hAsks, hTerminating, hReaches.extend answer⟩

/-- What is left of a gentle cleanup writes nothing and leaves the metadata alone. -/
theorem Cleaning.abides {left : Program (Except (Stop Report) Unit × Scene σ)}
    (h : engine.Cleaning cleanup key state exchanges found left) (hGentle : cleanup.Gentle) :
    left.Abides (fun request => request.written? = none) (fun _ _ => True)
      fun ended => ended.2.resource.metadata = found.metadata := by
  obtain ⟨state', since, -, -, -, hReaches⟩ := h
  exact hReaches.abides (hGentle ⟨found, state'⟩)

/-- What a cleanup leaves has the metadata of what was found. -/
theorem Releases.metadata_eq {request : Request} {cleaned : Scene σ}
    (h : engine.Releases name cleanup key state exchanges request found cleaned)
    (hGentle : cleanup.Gentle) : cleaned.resource.metadata = found.metadata := by
  cases h.cleaning.abides hGentle with
  | done hSame => exact hSame

/-- An invocation that has fetched a resource cleans it up if it is being deleted, and holds the
finalizer on it already if it is not. -/
theorem phase_afterFetching {knows : Resource → Prop} (hGuards : engine.Guards name cleanup)
    {answer : Except StoreError Resource}
    (hFound : ∀ found, answer = .ok found →
      knows found ∧ (found.isTerminating = false → found.hasFinalizer name = true)) :
    engine.Phase now name cleanup key state knows [⟨.get key, answer⟩]
      (engine.afterFetching now key state answer) := by
  cases answer with
  | error error =>
      refine .steady ?_
      cases error with
      | notFound | conflict | codec | injected => exact .done trivial
  | ok found =>
      obtain ⟨hKnown, hHolds⟩ := hFound found rfl
      have hAsks := asks_apply engine.preFinalizeSkipper ⟨found, state⟩
      rcases hSaid : consult engine.preFinalizeSkipper found state with ⟨skipped, state'⟩
      simp only [hSaid] at hAsks
      rw [afterFetching_of_asks hAsks hGuards.finalizer]
      cases skipped with
      | true => exact .steady (.done trivial)
      | false =>
          rw [if_neg Bool.false_ne_true]
          cases hTerminating : found.isTerminating with
          | true =>
              rw [Finalizer.enforce_of_terminating rfl hTerminating]
              exact .cleaning ⟨state', [], rfl, hAsks, hTerminating, .start _⟩ hKnown
          | false =>
              rw [Finalizer.enforce_of_holding hTerminating (hHolds hTerminating)]
              refine .steady ?_
              show (Program.bind (engine.afterFinalizing now ⟨found, state'⟩) _).Abides _ _ _
              exact Program.Abides.bind (steady_afterFinalizing hGuards.steps _)
                fun _ _ => .done trivial

/-- Once the cleanup has ended, stored metadata are changed by nothing but the release. -/
theorem of_cleaned {ended : Except (Stop Report) Unit × Scene σ} {request : Request}
    {next : request.Answer → Program (Except (Stop WorkError) Requeue × σ)}
    (hCleaning : engine.Cleaning cleanup key state exchanges found (.done ended))
    (hRest : engine.whileCleaning now { name, cleanup := some cleanup } (.done ended) =
      .call request next) :
    (request.SparesMetadata ∨
      ∃ cleaned, engine.Releases name cleanup key state exchanges request found cleaned) ∧
    ∀ answer, request.Fits answer →
      (next answer).Abides Request.SparesMetadata Request.Fits fun _ => True := by
  have hFail : ∀ error scene, ((engine.failFinalizing now error scene).bind fun ended =>
      (.done (ended.1, ended.2.state) : Program (Except (Stop WorkError) Requeue × σ))).Abides
        Request.SparesMetadata Request.Fits fun _ => True :=
    fun error scene => Program.Abides.bind (steady_failFinalizing error scene)
      fun _ _ => .done trivial
  obtain ⟨(payload | report) | ⟨⟩, scene⟩ := ended
  · cases hRest
  · have hSteady := hFail (.cleanup name report) scene
    rw [show ((engine.failFinalizing now (.cleanup name report) scene).bind fun ended =>
      (.done (ended.1, ended.2.state) : Program (Except (Stop WorkError) Requeue × σ))) =
        .call request next from hRest] at hSteady
    cases hSteady with
    | call hAsks hNext => exact ⟨.inl hAsks, hNext⟩
  · cases hHas : scene.resource.hasFinalizer name with
    | false =>
        have hDone : engine.whileCleaning now { name, cleanup := some cleanup }
            (.done (.ok (), scene)) = .done (.ok .none, scene.state) := by
          simp only [whileCleaning, Program.bind, Finalizer.afterCleanup, hHas, Bool.false_eq_true,
            if_false]
          rfl
        rw [hDone] at hRest
        cases hRest
    | true =>
        have hCall : engine.whileCleaning now { name, cleanup := some cleanup }
            (.done (.ok (), scene)) =
              .call (.update (scene.resource.removeFinalizer name)) fun answer =>
                (Finalizer.afterRelease scene answer).bind (engine.afterEnforcing now) := by
          simp only [whileCleaning, Program.bind, Finalizer.afterCleanup, hHas, if_true]
        rw [hCall] at hRest
        cases hRest
        refine ⟨.inr ⟨scene, hCleaning, rfl⟩, fun answer _ => ?_⟩
        cases answer with
        | ok written => exact .done trivial
        | error error => exact hFail _ _

/-- The next request of an invocation. -/
theorem Phase.next {knows : Resource → Prop} (hGuards : engine.Guards name cleanup)
    {request : Request} {next : request.Answer → Program (Except (Stop WorkError) Requeue × σ)}
    {answer : request.Answer} {rest : Program (Except (Stop WorkError) Requeue × σ)}
    (h : engine.Phase now name cleanup key state knows exchanges rest)
    (hRest : rest = .call request next) (hFits : request.Fits answer)
    (hFound : ∀ found, (⟨request, answer⟩ : Exchange) = ⟨.get key, .ok found⟩ →
      knows found ∧ (found.isTerminating = false → found.hasFinalizer name = true)) :
    (request.SparesMetadata ∨ ∃ found cleaned, knows found ∧
      engine.Releases name cleanup key state exchanges request found cleaned) ∧
    engine.Phase now name cleanup key state knows (exchanges ++ [⟨request, answer⟩])
      (next answer) := by
  cases h with
  | fetching =>
      rw [run_eq] at hRest
      cases hRest
      exact ⟨.inl trivial, phase_afterFetching hGuards fun found hAnswer =>
        hFound found (by rw [hAnswer])⟩
  | @cleaning _ found left hCleaning hKnown =>
      cases left with
      | done ended =>
          obtain ⟨hRequest, hNext⟩ := of_cleaned hCleaning hRest
          refine ⟨hRequest.imp_right ?_, .steady (hNext answer hFits)⟩
          rintro ⟨cleaned, hReleases⟩
          exact ⟨found, cleaned, hKnown, hReleases⟩
      | call asked later =>
          cases hRest
          refine ⟨.inl ?_, .cleaning (hCleaning.extend answer) hKnown⟩
          cases hCleaning.abides hGuards.cleanup with
          | call hAsks _ => exact Request.sparesMetadata_of_written_eq_none hAsks
  | steady hSteady =>
      rw [hRest] at hSteady
      cases hSteady with
      | call hAsks hNext => exact ⟨.inl hAsks, .steady (hNext answer hFits)⟩

/-- More may be known of the resource. -/
theorem Phase.mono {knows knows' : Resource → Prop}
    {rest : Program (Except (Stop WorkError) Requeue × σ)}
    (h : engine.Phase now name cleanup key state knows exchanges rest)
    (hKnows : ∀ found, knows found → knows' found) :
    engine.Phase now name cleanup key state knows' exchanges rest := by
  cases h with
  | fetching => exact .fetching
  | cleaning hCleaning hKnown => exact .cleaning hCleaning (hKnows _ hKnown)
  | steady hSteady => exact .steady hSteady

end

end Engine

end Reconciliation
