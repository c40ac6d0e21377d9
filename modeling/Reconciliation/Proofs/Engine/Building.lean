import Mathlib.Data.List.Induction
import Reconciliation.Engine.Registration
import Reconciliation.Proofs.Engine.Recording
import Reconciliation.Proofs.Histories
import Reconciliation.Proofs.Results

/-!
What comes of registrations. `Registration.faults` says what is wrong with a registration that is
made after others. If nothing is wrong with any of them, there is an engine, which has what was
registered and nothing else; otherwise there is the first fault of the first registration that has
one. It makes no difference whether what comes after a fault is still looked at.
-/
namespace Reconciliation

variable {σ : Type}

namespace Registration

/-- What a registration fills, if that takes one value only. -/
def fills? : Registration σ → Option Registrant
  | .skipper _ => some .skipper
  | .preFinalizeSkipper _ => some .preFinalizeSkipper
  | .stepSkipper _ => some .stepSkipper
  | .finalizer _ => some .finalizer
  | .afterDeletion _ => some .afterDeletion
  | .config _ | .onFailure _ | .sink _ | .step .. => none

def taken (registrations : List (Registration σ)) (registrant : Registrant) : Bool :=
  registrations.any fun registration => registration.fills? = some registrant

def reasons (type : String) (options : StepOptions σ) : List String :=
  [options.successReason.getD (type ++ "Succeeded"), options.failReason.getD (type ++ "Failed"),
    type ++ "Processing"]

/-- What is wrong with a registration wherever it is made, the first thing to be found first. -/
def ownFaults : Registration σ → List ConfigError
  | .finalizer value => if value.name = "" then [.emptyFinalizer] else []
  | .step type _ options =>
    (if type = "" then [.emptyConditionType] else []) ++
      ((reasons type options).filter (!Text.isToken ·)).map .invalidReason
  | _ => []

/-- What is wrong with a registration that is made after others: to fill a place twice comes first.
-/
def faults (earlier : List (Registration σ)) (registration : Registration σ) : List ConfigError :=
  (registration.fills?.filter (taken earlier)).toList.map .duplicate ++ registration.ownFaults

def Lawful (registrations : List (Registration σ)) : Prop :=
  ∀ earlier registration later, registrations = earlier ++ registration :: later →
    registration.faults earlier = []

/-- The first fault of the first registration with which anything is wrong. -/
def FirstFault (registrations : List (Registration σ)) (error : ConfigError) : Prop :=
  ∃ earlier registration later, registrations = earlier ++ registration :: later ∧
    Lawful earlier ∧ (registration.faults earlier).head? = some error

def step? : Registration σ → Option (Step σ)
  | .step type work options => some (.ofOptions type work options)
  | _ => none

def sink? : Registration σ → Option (EventSink σ)
  | .sink value => some value
  | _ => none

def setting? : Registration σ → Option (Config → Config)
  | .config given => some fun _ => given
  | .onFailure requeue => some fun settings => { settings with onFailure := requeue }
  | _ => none

section

variable {earlier registrations : List (Registration σ)} {registration : Registration σ}
  {error : ConfigError}

theorem lawful_nil : Lawful ([] : List (Registration σ)) := by
  intro earlier registration later h
  simp at h

/-- A further registration has to be lawful after the ones before. -/
theorem lawful_concat_iff : Lawful (registrations ++ [registration]) ↔
    Lawful registrations ∧ registration.faults registrations = [] := by
  constructor
  · intro hLawful
    constructor
    · intro earlier found later hSplit
      apply hLawful earlier found (later ++ [registration])
      simp [hSplit]
    · exact hLawful registrations registration [] rfl
  · rintro ⟨hLawful, hLast⟩ earlier found later hSplit
    rcases List.last_cases hSplit with ⟨-, rfl, rfl⟩ | ⟨rest, -, hRest⟩
    · exact hLast
    · exact hLawful earlier found rest hRest

/-- A fault stays the first one, whatever comes after it. -/
theorem FirstFault.concat (h : FirstFault registrations error) (registration : Registration σ) :
    FirstFault (registrations ++ [registration]) error := by
  obtain ⟨earlier, found, later, rfl, hLawful, hError⟩ := h
  exact ⟨earlier, found, later ++ [registration], by simp, hLawful, hError⟩

/-- Where there is a first fault, not all is lawful. -/
theorem FirstFault.not_lawful (h : FirstFault registrations error) : ¬Lawful registrations := by
  obtain ⟨earlier, found, later, hSplit, -, hError⟩ := h
  intro hLawful
  rw [hLawful earlier found later hSplit] at hError
  cases hError

/-- There is at most one first fault. -/
theorem FirstFault.unique {error' : ConfigError} (h : FirstFault registrations error)
    (h' : FirstFault registrations error') : error = error' := by
  obtain ⟨earlier, found, later, hSplit, hLawful, hError⟩ := h
  obtain ⟨earlier', found', later', hSplit', hLawful', hError'⟩ := h'
  rcases List.place_cases (hSplit.symm.trans hSplit') with
    ⟨rfl, rfl, -⟩ | ⟨between, rfl⟩ | ⟨between, rfl⟩
  · exact Option.some.inj (hError.symm.trans hError')
  · have hBefore : earlier' = earlier ++ found :: between := by
      apply (List.append_left_inj (found' :: later')).1
      simp [← hSplit', hSplit]
    rw [hLawful' earlier found between hBefore] at hError
    cases hError
  · have hBefore : earlier = earlier' ++ found' :: between := by
      apply (List.append_left_inj (found :: later)).1
      simp [← hSplit, hSplit']
    rw [hLawful earlier' found' between hBefore] at hError'
    cases hError'

end

end Registration

namespace Engine

open Registration

/-- What fills a place of an engine, as it was registered. -/
def filling? (engine : Engine σ) : Registrant → Option (Registration σ)
  | .skipper => engine.skipper.map .skipper
  | .preFinalizeSkipper => engine.preFinalizeSkipper.map .preFinalizeSkipper
  | .stepSkipper => engine.stepSkipper.map .stepSkipper
  | .finalizer => engine.finalizer.map .finalizer
  | .afterDeletion => engine.afterDeletion.map .afterDeletion

/-- An engine with one more registration, whatever is wrong with that. -/
def enroll (engine : Engine σ) : Registration σ → Engine σ
  | .config config => { engine with config }
  | .onFailure requeue => { engine with config := { engine.config with onFailure := requeue } }
  | .sink sink => { engine with sink := some sink }
  | .skipper skipper => { engine with skipper := some skipper }
  | .preFinalizeSkipper skipper => { engine with preFinalizeSkipper := some skipper }
  | .stepSkipper skipper => { engine with stepSkipper := some skipper }
  | .finalizer finalizer => { engine with finalizer := some finalizer }
  | .afterDeletion callback => { engine with afterDeletion := some callback }
  | .step type work options =>
    { engine with steps := engine.steps ++ [.ofOptions type work options] }

/-- An engine that has what was registered and nothing else. -/
structure Bears (registrations : List (Registration σ)) (engine : Engine σ) : Prop where
  /-- The steps stand in the order in which they were registered, with all options settled. -/
  steps_eq : engine.steps = registrations.filterMap step?
  /-- Their types are not empty, and their reasons are tokens. -/
  sound : ∀ step ∈ engine.steps, step.Sound
  /-- What takes one value only was registered once if it is there, and else never. -/
  filling : ∀ registrant,
    registrations.filter (fun registration => registration.fills? = some registrant) =
      (engine.filling? registrant).toList
  /-- Of several sinks the last one counts. -/
  sink_eq : engine.sink = (registrations.filterMap sink?).getLast?
  /-- The settings are made one after the other, wherever they stand among the rest. -/
  config_eq : engine.config = (registrations.filterMap setting?).foldl (fun config f => f config) {}

theorem bears_nil : Bears ([] : List (Registration σ)) {} where
  steps_eq := rfl
  sound := by simp
  filling registrant := by cases registrant <;> rfl
  sink_eq := rfl
  config_eq := rfl

section

variable {engine : Engine σ} {earlier : List (Registration σ)}

/-- A registration fills its own place and no other. -/
theorem filling?_enroll (engine : Engine σ) (registration : Registration σ)
    (registrant : Registrant) : (engine.enroll registration).filling? registrant =
      if registration.fills? = some registrant then some registration
      else engine.filling? registrant := by
  cases registration <;> cases registrant <;> rfl

/-- A place is filled if and only if that was registered. -/
theorem Bears.taken_eq (h : engine.Bears earlier) (registrant : Registrant) :
    taken earlier registrant = (engine.filling? registrant).isSome := by
  have hFilling := h.filling registrant
  cases hPlace : engine.filling? registrant with
  | none =>
      rw [hPlace, Option.toList_none, List.filter_eq_nil_iff] at hFilling
      simpa [taken] using hFilling
  | some registration =>
      have hMember : registration ∈ (engine.filling? registrant).toList := by simp [hPlace]
      rw [← hFilling, List.mem_filter] at hMember
      simpa [taken] using ⟨registration, hMember.1, by simpa using hMember.2⟩

/-- A step is made if nothing is wrong with its registration. -/
theorem make_eq_of_ownFaults (type : String) (work : Task σ Objection Unit)
    (options : StepOptions σ) : Step.make type work options =
      match (ownFaults (.step type work options)).head? with
      | some error => .error error
      | none => .ok (.ofOptions type work options) := by
  have hReasons : reasons type options =
      [(Step.ofOptions type work options).successReason,
        (Step.ofOptions type work options).failReason,
        (Step.ofOptions type work options).markReason] := rfl
  by_cases hType : type = ""
  · simp [Step.make, ownFaults, hType]
  · rw [Step.make, if_neg hType, ownFaults, if_neg hType, List.nil_append, List.head?_map,
      List.head?_filter, hReasons]
    dsimp only
    cases List.find? _ _ with
    | none => rfl
    | some reason => rfl

/-- A registration is refused with its first fault, and else the engine has it. -/
theorem Bears.register_eq (h : engine.Bears earlier) (registration : Registration σ) :
    engine.register registration =
      match (registration.faults earlier).head? with
      | some error => .error error
      | none => .ok (engine.enroll registration) := by
  have hTaken : taken earlier = fun registrant => (engine.filling? registrant).isSome :=
    funext h.taken_eq
  obtain ⟨steps, skipper, preFinalizeSkipper, stepSkipper, finalizer, afterDeletion, sink, config⟩ :=
    engine
  rw [faults, hTaken]
  cases registration with
  | config | onFailure | sink => rfl
  | skipper => cases skipper <;> rfl
  | preFinalizeSkipper => cases preFinalizeSkipper <;> rfl
  | stepSkipper => cases stepSkipper <;> rfl
  | afterDeletion => cases afterDeletion <;> rfl
  | finalizer value =>
      cases finalizer with
      | some other => rfl
      | none =>
          by_cases hName : value.name = ""
          · simp [register, fill, fills?, filling?, ownFaults, hName]
            rfl
          · simp [register, fill, fills?, filling?, ownFaults, hName]
            rfl
  | step type work options =>
      rw [register, make_eq_of_ownFaults]
      simp only [fills?, Option.filter_none, Option.toList_none, List.map_nil, List.nil_append]
      cases (ownFaults (.step type work options)).head? with
      | none => rfl
      | some error => rfl

/-- An engine bears one more registration with which nothing is wrong. -/
theorem Bears.enroll (h : engine.Bears earlier) {registration : Registration σ}
    (hFaults : registration.faults earlier = []) :
    (engine.enroll registration).Bears (earlier ++ [registration]) := by
  obtain ⟨hFree, hOwn⟩ := List.append_eq_nil_iff.1 hFaults
  refine ⟨?steps_eq, ?sound, ?filling, ?sink_eq, ?config_eq⟩
  case steps_eq =>
    rw [List.filterMap_append, ← h.steps_eq]
    cases registration <;> simp [Engine.enroll, step?]
  case sound =>
    cases registration with
    | step type work options =>
        have hMade : Step.make type work options = .ok (.ofOptions type work options) := by
          rw [make_eq_of_ownFaults, hOwn]
          rfl
        intro step hStep
        rcases List.mem_append.1 hStep with hOld | hNew
        · exact h.sound step hOld
        · rw [List.mem_singleton.1 hNew]
          exact (Step.of_make_eq_ok hMade).2
    | _ => exact h.sound
  case filling =>
    intro registrant
    rw [List.filter_append, h.filling, filling?_enroll]
    by_cases hFills : registration.fills? = some registrant
    · have hNone : engine.filling? registrant = none := by
        rw [hFills] at hFree
        simpa [h.taken_eq] using hFree
      simp [hFills, hNone]
    · simp [hFills]
  case sink_eq =>
    rw [List.filterMap_append]
    cases registration <;> simp [Engine.enroll, sink?, h.sink_eq]
  case config_eq =>
    rw [List.filterMap_append, List.foldl_append, ← h.config_eq]
    cases registration <;> rfl

end

variable {registrations : List (Registration σ)}

/-- Building goes by registrations, one after the other. -/
theorem build_concat (registrations : List (Registration σ)) (registration : Registration σ) :
    build (registrations ++ [registration]) =
      build registrations >>= fun engine => engine.register registration := by
  simp [build, List.foldlM_append]

/-- Either nothing is wrong and the engine bears what was registered, or there is a first fault. -/
theorem build_cases (registrations : List (Registration σ)) :
    (∃ engine, build registrations = .ok engine ∧ Lawful registrations ∧
        engine.Bears registrations) ∨
      ∃ error, build registrations = .error error ∧ FirstFault registrations error := by
  induction registrations using List.reverseRecOn with
  | nil => exact .inl ⟨{}, rfl, lawful_nil, bears_nil⟩
  | append_singleton earlier registration ih =>
      rw [build_concat]
      rcases ih with ⟨engine, hBuild, hLawful, hBears⟩ | ⟨error, hBuild, hFault⟩
      · rw [hBuild]
        show (∃ made, engine.register registration = .ok made ∧ _) ∨
          ∃ error, engine.register registration = .error error ∧ _
        rw [hBears.register_eq]
        cases hFirst : (registration.faults earlier).head? with
        | none =>
            have hNone : registration.faults earlier = [] := List.head?_eq_none_iff.1 hFirst
            exact .inl ⟨_, rfl, lawful_concat_iff.2 ⟨hLawful, hNone⟩, hBears.enroll hNone⟩
        | some error =>
            exact .inr ⟨error, rfl, earlier, registration, [], rfl, hLawful, hFirst⟩
      · rw [hBuild]
        exact .inr ⟨error, rfl, hFault.concat registration⟩

/-- An engine in the making, and what was wrong first. -/
structure Draft (σ : Type) where
  engine : Engine σ := {}
  fault : Option ConfigError := none

namespace Draft

/-- Looks at one more registration. A faulty one leaves the engine as it is, and is remembered if it
is the first one. -/
def add (draft : Draft σ) (registration : Registration σ) : Draft σ :=
  match draft.engine.register registration with
  | .ok engine => { draft with engine }
  | .error error => { draft with fault := draft.fault.or (some error) }

def finish (draft : Draft σ) : Except ConfigError (Engine σ) :=
  match draft.fault with
  | some error => .error error
  | none => .ok draft.engine

/-- Looking at all of them and stopping at the first fault come to the same. -/
theorem finish_add (draft : Draft σ) (registration : Registration σ) :
    (draft.add registration).finish =
      draft.finish >>= fun engine => engine.register registration := by
  obtain ⟨engine, fault⟩ := draft
  cases hRegister : engine.register registration <;> cases fault <;>
    simp [add, finish, hRegister, bind, Except.bind]

/-- To look at all registrations and tell the first fault comes to the same as to stop there. -/
theorem finish_foldl_add (registrations : List (Registration σ)) :
    (registrations.foldl add {}).finish = build registrations := by
  induction registrations using List.reverseRecOn with
  | nil => rfl
  | append_singleton earlier registration ih =>
      rw [List.foldl_append, List.foldl_cons, List.foldl_nil, finish_add, ih, build_concat]

end Draft

/-- What comes of registrations. -/
structure Builds (registrations : List (Registration σ)) : Prop where
  /-- There is an engine if and only if nothing is wrong with any of them. -/
  ok_iff : (∃ engine, build registrations = .ok engine) ↔ Lawful registrations
  /-- Otherwise there is the first fault of the first one that has any. -/
  error_iff : ∀ error, build registrations = .error error ↔ FirstFault registrations error
  bears : ∀ engine, build registrations = .ok engine → engine.Bears registrations
  /-- Whoever looks at all of them, and remembers the first fault, comes to the same. -/
  draft_eq : (registrations.foldl Draft.add {}).finish = build registrations

/-- Whatever is registered in whichever order, an engine with exactly that comes of it, or the first
fault. -/
theorem builds_of_registrations (registrations : List (Registration σ)) :
    Builds registrations where
  ok_iff := by
    rcases build_cases registrations with ⟨engine, hBuild, hLawful, -⟩ | ⟨error, hBuild, hFault⟩
    · exact ⟨fun _ => hLawful, fun _ => ⟨engine, hBuild⟩⟩
    · constructor
      · rintro ⟨engine, hEngine⟩
        cases hBuild.symm.trans hEngine
      · exact fun hLawful => absurd hLawful hFault.not_lawful
  error_iff error := by
    rcases build_cases registrations with ⟨engine, hBuild, hLawful, -⟩ | ⟨found, hBuild, hFault⟩
    · constructor
      · intro hError
        cases hBuild.symm.trans hError
      · exact fun hFault => absurd hLawful hFault.not_lawful
    · constructor
      · intro hError
        cases hBuild.symm.trans hError
        exact hFault
      · intro hFirst
        rw [hBuild, hFault.unique hFirst]
  bears engine hEngine := by
    rcases build_cases registrations with ⟨found, hBuild, -, hBears⟩ | ⟨error, hBuild, -⟩
    · cases hBuild.symm.trans hEngine
      exact hBears
    · cases hBuild.symm.trans hEngine
  draft_eq := Draft.finish_foldl_add registrations

/-- The empty name of the second finalizer is a fault as well, but that there is one comes first. -/
example : (build [.finalizer { name := "f" }, .finalizer { name := "" }, .step "" (pure ()) {}] :
    Except ConfigError (Engine Unit)).error? = some (.duplicate .finalizer) := by
  rfl

end Engine

end Reconciliation
