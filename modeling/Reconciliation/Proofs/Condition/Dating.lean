import Mathlib.Data.List.DropRight
import Reconciliation.Proofs.Condition.LastWrite

/-!
The times of conditions. A condition carries the time at which its status came about, and this is
told from the history of what was set and removed: from the sets of its type since the last removal,
and among these from the longest run, up to the last one, of sets with the status that stands.
-/
namespace Reconciliation

namespace Condition

variable {new old : Condition} {conditions : List Condition}

/-- Where no condition of the type was, there is now the one that was set, with a time. -/
theorem find?_setIn_of_eq_none (now : Timestamp) (h : find? new.type conditions = none) :
    find? new.type (setIn now new conditions) = some (new.begin now) := by
  induction conditions with
  | nil => rw [setIn, find?_cons, type_begin, if_pos rfl]
  | cons head rest ih =>
      rw [find?_cons] at h
      by_cases hHead : head.type = new.type
      · rw [if_pos hHead] at h
        cases h
      · rw [if_neg hHead] at h
        rw [setIn, if_neg hHead, find?_cons, if_neg hHead, ih h]

/-- Where a condition of the type was, it is renewed. -/
theorem find?_setIn_of_eq_some (now : Timestamp) (h : find? new.type conditions = some old) :
    find? new.type (setIn now new conditions) = some (old.renew now new) := by
  induction conditions with
  | nil => cases h
  | cons head rest ih =>
      rw [find?_cons] at h
      by_cases hHead : head.type = new.type
      · rw [if_pos hHead] at h
        cases h
        rw [setIn, if_pos hHead, find?_cons, type_renew, if_pos hHead]
      · rw [if_neg hHead] at h
        rw [setIn, if_neg hHead, find?_cons, if_neg hHead, ih h]

end Condition

namespace Standing

/-! ### The sets of a type, and the last run of them -/

/-- A condition that is set, with what the clock shows. -/
structure Setting where
  now : Timestamp
  condition : Condition

namespace Setting

/-- The time that a status bears which comes about here: the one that is given, else the clock's. -/
def instant (setting : Setting) : Timestamp :=
  setting.condition.since.getD setting.now

/-- Whether a condition of this status is set. -/
def has (status : Verity) (setting : Setting) : Bool :=
  setting.condition.status = status

end Setting

namespace Change

/-- Whether the conditions of a type are removed. -/
def removes (type : String) : Change → Bool
  | set _ _ => false
  | remove gone => gone = type

def setting? (type : String) : Change → Option Setting
  | set now condition => if condition.type = type then some ⟨now, condition⟩ else none
  | remove _ => none

end Change

/-- What was set of a type since it was last removed. -/
def settings (type : String) (changes : List Change) : List Setting :=
  (changes.rtakeWhile fun change => !change.removes type).filterMap (Change.setting? type)

/-- The longest run of sets of one status that ends with the last set of the type. -/
def lastRun (type : String) (status : Verity) (changes : List Change) : List Setting :=
  (settings type changes).rtakeWhile (Setting.has status)

variable {type : String} {changes : List Change} {standing : Standing}

theorem settings_set (now : Timestamp) (new : Condition) (changes : List Change) :
    settings new.type (changes ++ [.set now new]) = settings new.type changes ++ [⟨now, new⟩] := by
  simp [settings, Change.removes, Change.setting?]

/-- After a removal nothing of the type counts as set. -/
theorem settings_remove (type : String) (changes : List Change) :
    settings type (changes ++ [.remove type]) = [] := by
  simp [settings, Change.removes]

/-- What was set of a type depends on the changes of that type only. -/
theorem settings_of_ne {change : Change} (h : type ≠ change.type) :
    settings type (changes ++ [change]) = settings type changes := by
  cases change with
  | set now new =>
      have hNew : new.type ≠ type := Ne.symm h
      simp [settings, Change.removes, Change.setting?, hNew]
  | remove gone =>
      have hGone : gone ≠ type := Ne.symm h
      simp [settings, Change.removes, Change.setting?, hGone]

/-- A run goes on with a set of its status. -/
theorem lastRun_set (now : Timestamp) (new : Condition) (changes : List Change) :
    lastRun new.type new.status (changes ++ [.set now new]) =
      lastRun new.type new.status changes ++ [⟨now, new⟩] := by
  simp [lastRun, settings_set, Setting.has]

/-- Only one status has a run that ends with the last set. -/
theorem lastRun_eq_nil_of_ne {status other : Verity} (h : lastRun type status changes ≠ [])
    (hNe : status ≠ other) : lastRun type other changes = [] := by
  rw [lastRun, ne_eq, List.rtakeWhile_eq_nil_iff, not_forall] at h
  obtain ⟨hSettings, hLast⟩ := h
  rw [lastRun, List.rtakeWhile_eq_nil_iff]
  intro _ hOther
  apply hNe
  simp only [Setting.has, decide_eq_true_eq, not_not] at hLast hOther
  exact hLast.symm.trans hOther

/-! ### The time of a condition -/

/-- The time of a type's condition is the one that a history tells. -/
structure Dates (type : String) (changes : List Change) (standing : Standing) : Prop where
  /-- If there is no condition, none was set since the last removal. -/
  settings_eq_nil : standing.find? type = none → settings type changes = []
  /-- A condition bears the time of the first set in the last run of its status. -/
  since_eq : ∀ {found}, standing.find? type = some found →
    ∃ first rest, lastRun type found.status changes = first :: rest ∧
      found.since = some first.instant

theorem dates_nil (type : String) : Dates type [] {} where
  settings_eq_nil _ := rfl
  since_eq hFind := nomatch hFind

/-- A change leaves the condition of any other type, with its time. -/
theorem find?_apply_of_ne (standing : Standing) {change : Change} (h : type ≠ change.type) :
    (change.apply standing).find? type = standing.find? type := by
  cases change with
  | set now new => exact Condition.find?_setIn_of_ne h
  | remove gone => exact Condition.find?_filter_of_ne h

/-- A change of another type matters neither to the condition nor to what is told of it. -/
theorem Dates.of_ne {change : Change} (h : Dates type changes standing)
    (hType : type ≠ change.type) : Dates type (changes ++ [change]) (change.apply standing) := by
  have hFind := find?_apply_of_ne standing hType
  constructor
  case settings_eq_nil =>
    intro hNone
    rw [settings_of_ne hType]
    exact h.settings_eq_nil (hFind ▸ hNone)
  case since_eq =>
    intro found hSome
    rw [lastRun, settings_of_ne hType]
    exact h.since_eq (hFind ▸ hSome)

/-- A condition is set: a run begins or goes on. -/
theorem Dates.set {new : Condition} (h : Dates new.type changes standing) (now : Timestamp) :
    Dates new.type (changes ++ [.set now new]) (standing.set now new) := by
  cases hOld : standing.find? new.type with
  | none =>
      -- nothing was set since the last removal, so that the run has this one set
      have hNew : (standing.set now new).find? new.type = some (new.begin now) :=
        Condition.find?_setIn_of_eq_none now hOld
      have hRun : lastRun new.type new.status changes = [] := by
        rw [lastRun, h.settings_eq_nil hOld, List.rtakeWhile_nil]
      constructor
      case settings_eq_nil => simp [hNew]
      case since_eq =>
        intro found hFound
        cases hNew.symm.trans hFound
        refine ⟨⟨now, new⟩, [], ?_, rfl⟩
        rw [Condition.begin, lastRun_set, hRun, List.nil_append]
  | some old =>
      obtain ⟨first, rest, hRun, hSince⟩ := h.since_eq hOld
      have hNew : (standing.set now new).find? new.type = some (old.renew now new) :=
        Condition.find?_setIn_of_eq_some now hOld
      constructor
      case settings_eq_nil => simp [hNew]
      case since_eq =>
        intro found hFound
        cases hNew.symm.trans hFound
        by_cases hStatus : old.status = new.status
        · refine ⟨first, rest ++ [⟨now, new⟩], ?_, ?_⟩
          · rw [Condition.renew, lastRun_set, ← hStatus, hRun, List.cons_append]
          · rw [Condition.renew, if_pos hStatus, hSince]
        · -- the run of the old status has ended, and a new one begins
          have hNone : lastRun new.type new.status changes = [] :=
            lastRun_eq_nil_of_ne (by simp [hRun]) hStatus
          refine ⟨⟨now, new⟩, [], ?_, ?_⟩
          · rw [Condition.renew, lastRun_set, hNone, List.nil_append]
          · rw [Condition.renew, if_neg hStatus, Setting.instant]

/-- The conditions of the type are removed: no set of it counts any more. -/
theorem dates_remove (type : String) (changes : List Change) (standing : Standing) :
    Dates type (changes ++ [.remove type]) (standing.remove type) := by
  have hNone : (standing.remove type).find? type = none := Condition.find?_filter_self type _
  constructor
  case settings_eq_nil =>
    intro _
    exact settings_remove type changes
  case since_eq =>
    intro found hFound
    cases hNone.symm.trans hFound

/-- The time that a history leads to is told by the history. -/
theorem dates_after (type : String) (changes : List Change) :
    Dates type changes (after changes) := by
  induction changes using List.reverseRecOn with
  | nil => exact dates_nil type
  | append_singleton changes change ih =>
      rw [after_concat]
      by_cases hType : type = change.type
      · subst hType
        cases change with
        | set now new => exact ih.set now
        | remove gone => exact dates_remove gone changes _
      · exact ih.of_ne hType

/-- The times of the conditions are told by the history. A further set that keeps the status leaves
the time, even if it gives another one, and a change of another type leaves the condition. -/
structure Dated (changes : List Change) (standing : Standing) : Prop where
  /-- A condition bears the time of the first set in the last run of its status, as it was given
  there or else as the clock showed it. -/
  since_eq : ∀ {type found}, standing.find? type = some found →
    ∃ first rest, lastRun type found.status changes = first :: rest ∧
      found.since = some first.instant
  /-- A set that keeps the status does not move the time. -/
  unmoved : ∀ now new found, standing.find? new.type = some found → new.status = found.status →
    (standing.set now new).find? new.type = some { new with since := found.since }
  /-- A set or a removal of another type leaves the condition as it is. -/
  apart : ∀ (change : Change) (type : String), type ≠ change.type →
    (change.apply standing).find? type = standing.find? type

/-- The times of conditions are those that their history tells, whatever has happened. -/
theorem dated_after (changes : List Change) : Dated changes (after changes) where
  since_eq hFind := (dates_after _ changes).since_eq hFind
  unmoved now new found hFind hStatus := by
    have hType : found.type = new.type := by simpa using List.find?_some hFind
    rw [find?, Standing.set, Condition.find?_setIn_of_eq_some now hFind, Condition.renew,
      if_pos hStatus.symm, hType]
  apart _ _ hType := find?_apply_of_ne _ hType

end Standing

end Reconciliation
