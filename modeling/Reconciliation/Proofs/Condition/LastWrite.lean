import Mathlib.Data.List.Induction
import Mathlib.Data.List.Nodup
import Reconciliation.Proofs.Condition.Setting
import Reconciliation.Proofs.Histories

/-!
The conditions of a resource as a map in which the last write wins. From the history of what was set
and removed it is told which types are there, what each of them says and in which order they stand.
-/
namespace Reconciliation

namespace Condition

variable {now : Timestamp} {new : Condition} {conditions : List Condition}

/-- Setting a condition appends its type, unless that is there. -/
theorem map_type_setIn (now : Timestamp) (new : Condition) (conditions : List Condition) :
    (setIn now new conditions).map type =
      if new.type ∈ conditions.map type then conditions.map type
      else conditions.map type ++ [new.type] := by
  induction conditions with
  | nil => rfl
  | cons head rest ih =>
      by_cases hHead : head.type = new.type
      · rw [setIn, if_pos hHead, List.map_cons, type_renew, List.map_cons, hHead,
          if_pos List.mem_cons_self]
      · rw [setIn, if_neg hHead, List.map_cons, ih, List.map_cons]
        simp only [List.mem_cons, Ne.symm hHead, false_or]
        split <;> rfl

/-- Setting a condition leaves those of other types, in their order. -/
theorem filter_setIn (now : Timestamp) (new : Condition) (conditions : List Condition) :
    ((setIn now new conditions).filter fun condition => condition.type ≠ new.type) =
      conditions.filter fun condition => condition.type ≠ new.type := by
  induction conditions with
  | nil => simp [setIn, type_begin]
  | cons head rest ih =>
      by_cases hHead : head.type = new.type
      · simp [setIn, hHead, type_renew]
      · rw [setIn, if_neg hHead, List.filter_cons, List.filter_cons, ih]

/-- Removing one type does not disturb another one. -/
theorem find?_filter_of_ne {type other : String} (h : type ≠ other) :
    find? type (conditions.filter fun condition => condition.type ≠ other) =
      find? type conditions := by
  induction conditions with
  | nil => rfl
  | cons head rest ih =>
      by_cases hHead : head.type = other
      · rw [List.filter_cons_of_neg (by simpa using hHead), ih, find?_cons,
          if_neg fun hType => h (hType.symm.trans hHead)]
      · rw [List.filter_cons_of_pos (by simpa using hHead), find?_cons, find?_cons, ih]

theorem find?_filter_self (type : String) (conditions : List Condition) :
    find? type (conditions.filter fun condition => condition.type ≠ type) = none := by
  simp [find?, List.find?_eq_none]

theorem isSome_find?_iff {type : String} :
    (find? type conditions).isSome = true ↔ type ∈ conditions.map Condition.type := by
  simp [find?]

end Condition

namespace Standing

inductive Change where
  /-- A condition is set, at a time. -/
  | set (now : Timestamp) (condition : Condition)
  /-- The conditions of a type are removed. -/
  | remove (type : String)

namespace Change

def type : Change → String
  | set _ condition => condition.type
  | remove type => type

def apply (standing : Standing) : Change → Standing
  | set now condition => standing.set now condition
  | remove type => standing.remove type

end Change

/-- What a resource without conditions and without a phase comes to. -/
def after (changes : List Change) : Standing :=
  changes.foldl Change.apply {}

theorem after_concat (changes : List Change) (change : Change) :
    after (changes ++ [change]) = change.apply (after changes) := by
  rw [after, List.foldl_append]
  rfl

/-- A change leaves the conditions of all other types, in their order, and the phase. -/
theorem apply_agrees (standing : Standing) (change : Change) :
    ((change.apply standing).conditions.filter fun condition => condition.type ≠ change.type) =
        (standing.conditions.filter fun condition => condition.type ≠ change.type) ∧
      (change.apply standing).phase = standing.phase := by
  cases change with
  | set now condition => exact ⟨Condition.filter_setIn now condition standing.conditions, rfl⟩
  | remove type =>
      refine ⟨?_, rfl⟩
      rw [Change.apply, remove, Change.type, List.filter_filter]
      simp only [Bool.and_self]

/-- Conditions of a type are there if and only if their removal shortens the list. -/
theorem has_iff_length_ne (standing : Standing) (type : String) :
    standing.has type = true ↔
      (standing.remove type).conditions.length ≠ standing.conditions.length := by
  rw [remove, ne_eq, List.length_filter_eq_length_iff]
  simp [has]

/-! ### What a history says of a type -/

/-- A condition of the type was set, and none was removed since. -/
def Held (type : String) (changes : List Change) : Prop :=
  ∃ past now condition later, changes = past ++ .set now condition :: later ∧
    condition.type = type ∧ .remove type ∉ later

/-- The condition was set, and then its type was let alone. -/
def Latest (condition : Condition) (changes : List Change) : Prop :=
  ∃ past now later, changes = past ++ .set now condition :: later ∧
    ∀ change ∈ later, change.type ≠ condition.type

/-- After this past the type was set for the first time since it was last removed. -/
def Arises (type : String) (past changes : List Change) : Prop :=
  ∃ now condition later, changes = past ++ .set now condition :: later ∧
    condition.type = type ∧ .remove type ∉ later ∧ ¬Held type past

variable {type : String} {changes past : List Change} {change : Change} {condition : Condition}

/-- One type was set for the first time, since it was last removed, before another one was. -/
def Precedes (changes : List Change) (first second : String) : Prop :=
  ∃ before before', Arises first before changes ∧ Arises second before' changes ∧
    before.length < before'.length

theorem not_held_nil (type : String) : ¬Held type [] := by
  rintro ⟨past, now, condition, later, h, -⟩
  simp at h

theorem held_set (now : Timestamp) (condition : Condition) (changes : List Change) :
    Held condition.type (changes ++ [.set now condition]) :=
  ⟨changes, now, condition, [], rfl, rfl, List.not_mem_nil⟩

theorem not_held_remove (type : String) (changes : List Change) :
    ¬Held type (changes ++ [.remove type]) := by
  rintro ⟨past, now, condition, later, hSplit, -, hLater⟩
  rcases List.last_cases hSplit with ⟨-, -, hEvent⟩ | ⟨rest, rfl, -⟩
  · cases hEvent
  · exact hLater (by simp)

/-- Whether a type is held depends on the changes of that type only. -/
theorem held_concat_iff (h : type ≠ change.type) :
    Held type (changes ++ [change]) ↔ Held type changes := by
  constructor
  · rintro ⟨past, now, condition, later, hSplit, rfl, hLater⟩
    rcases List.last_cases hSplit with ⟨-, -, rfl⟩ | ⟨rest, rfl, rfl⟩
    · exact absurd rfl h
    · exact ⟨past, now, condition, rest, rfl, rfl, fun hMem => hLater (List.mem_append_left _ hMem)⟩
  · rintro ⟨past, now, condition, later, rfl, rfl, hLater⟩
    refine ⟨past, now, condition, later ++ [change], by simp, rfl, ?_⟩
    rw [List.mem_append, List.mem_singleton, not_or]
    exact ⟨hLater, fun hRemove => h (by rw [← hRemove]; rfl)⟩

theorem latest_set (now : Timestamp) (condition : Condition) (changes : List Change) :
    Latest condition (changes ++ [.set now condition]) :=
  ⟨changes, now, [], rfl, fun _ hMem => absurd hMem List.not_mem_nil⟩

/-- What was set last stays so while only other types are changed. -/
theorem Latest.concat (h : Latest condition changes) (hType : change.type ≠ condition.type) :
    Latest condition (changes ++ [change]) := by
  obtain ⟨past, now, later, rfl, hLater⟩ := h
  refine ⟨past, now, later ++ [change], by simp, fun other hMem => ?_⟩
  rcases List.mem_append.1 hMem with hMem | hMem
  · exact hLater other hMem
  · exact List.mem_singleton.1 hMem ▸ hType

theorem arises_set (now : Timestamp) (h : ¬Held condition.type changes) :
    Arises condition.type changes (changes ++ [.set now condition]) :=
  ⟨now, condition, [], rfl, rfl, List.not_mem_nil, h⟩

/-- A type that has arisen has arisen from the same past until it is removed. -/
theorem Arises.concat (h : Arises type past changes) (hChange : change ≠ .remove type) :
    Arises type past (changes ++ [change]) := by
  obtain ⟨now, condition, later, rfl, hType, hLater, hPast⟩ := h
  refine ⟨now, condition, later ++ [change], by simp, hType, ?_, hPast⟩
  rw [List.mem_append, List.mem_singleton, not_or]
  exact ⟨hLater, hChange.symm⟩

theorem Arises.length_lt (h : Arises type past changes) : past.length < changes.length := by
  obtain ⟨now, condition, later, rfl, -⟩ := h
  simp

/-- One type stays before another one until one of them is removed. -/
theorem Precedes.concat {first second : String} (h : Precedes changes first second)
    (hFirst : change ≠ .remove first) (hSecond : change ≠ .remove second) :
    Precedes (changes ++ [change]) first second := by
  obtain ⟨before, before', hArises, hArises', hLength⟩ := h
  exact ⟨before, before', hArises.concat hFirst, hArises'.concat hSecond, hLength⟩

/-- A type that is held has arisen once. -/
theorem Held.exists_arises (h : Held type changes) : ∃ past, Arises type past changes := by
  induction changes using List.reverseRecOn with
  | nil => exact absurd h (not_held_nil type)
  | append_singleton changes change ih =>
      by_cases hPast : Held type changes
      · obtain ⟨past, hArises⟩ := ih hPast
        refine ⟨past, hArises.concat ?_⟩
        rintro rfl
        exact not_held_remove type changes h
      · have hType : type = change.type :=
          Decidable.byContradiction fun hNe => hPast ((held_concat_iff hNe).1 h)
        subst hType
        cases change with
        | set now condition => exact ⟨changes, arises_set now hPast⟩
        | remove other => exact absurd h (not_held_remove other changes)

/-! ### What a history says of the conditions -/

/-- The conditions are those that a history of changes comes to. -/
structure Recounts (changes : List Change) (standing : Standing) : Prop where
  /-- No two conditions have one type. -/
  nodup : (standing.conditions.map Condition.type).Nodup
  /-- The types that have a condition are those that were set and not removed since. -/
  isSome_iff : ∀ type, (standing.find? type).isSome = true ↔ Held type changes
  /-- A condition says what was set last; its time may be that of an earlier one. -/
  latest : ∀ {type found}, standing.find? type = some found →
    ∃ last, last.type = type ∧ Latest last changes ∧ found = { last with since := found.since }
  /-- The types stand in the order in which they arose. -/
  ordered : (standing.conditions.map Condition.type).Pairwise (Precedes changes)

theorem recounts_nil : Recounts [] {} where
  nodup := .nil
  isSome_iff type := iff_of_false (by simp [find?, Condition.find?]) (not_held_nil type)
  latest hFind := nomatch hFind
  ordered := .nil

variable {standing : Standing}

/-- There is a condition of the types that were set and not removed since. -/
theorem Recounts.mem_types_iff (h : Recounts changes standing) :
    type ∈ standing.conditions.map Condition.type ↔ Held type changes :=
  Condition.isSome_find?_iff.symm.trans (h.isSome_iff type)

/-- A condition is set. -/
theorem Recounts.set (h : Recounts changes standing) (now : Timestamp) (new : Condition) :
    Recounts (changes ++ [.set now new]) (standing.set now new) := by
  have hTypes : (standing.set now new).conditions.map Condition.type = _ :=
    Condition.map_type_setIn now new standing.conditions
  obtain ⟨since, hNew⟩ := Condition.stands_setIn now new standing.conditions
  have hOther {type : String} (hType : type ≠ new.type) :
      (standing.set now new).find? type = standing.find? type := Condition.find?_setIn_of_ne hType
  have hKept : (standing.conditions.map Condition.type).Pairwise
      (Precedes (changes ++ [.set now new])) :=
    h.ordered.imp fun hPrecedes => hPrecedes.concat nofun nofun
  refine ⟨?nodup, fun type => ?isSome_iff, fun {type found} hFind => ?latest, ?ordered⟩
  case nodup =>
    rw [hTypes]
    split
    case isTrue => exact h.nodup
    case isFalse hNone => exact List.concat_eq_append ▸ List.Nodup.concat hNone h.nodup
  case isSome_iff =>
    by_cases hType : type = new.type
    · exact iff_of_true (by rw [hType, find?, Standing.set, hNew]; rfl)
        (hType ▸ held_set now new changes)
    · rw [hOther hType, h.isSome_iff, held_concat_iff hType]
  case latest =>
    by_cases hType : type = new.type
    · rw [hType] at hFind
      obtain rfl : _ = found := Option.some.inj (hNew.symm.trans hFind)
      exact ⟨new, hType.symm, latest_set now new changes, rfl⟩
    · obtain ⟨last, rfl, hLatest, hFound⟩ := h.latest ((hOther hType).symm.trans hFind)
      exact ⟨last, rfl, hLatest.concat (Ne.symm hType), hFound⟩
  case ordered =>
    rw [hTypes]
    split
    case isTrue => exact hKept
    case isFalse hNone =>
      refine List.pairwise_append.2
        ⟨hKept, List.pairwise_singleton _ _, fun first hFirst second hSecond => ?_⟩
      obtain rfl := List.mem_singleton.1 hSecond
      obtain ⟨past, hArises⟩ := (h.mem_types_iff.1 hFirst).exists_arises
      exact ⟨past, changes, hArises.concat nofun, arises_set now (mt h.mem_types_iff.2 hNone),
        hArises.length_lt⟩

/-- The conditions of a type are removed. -/
theorem Recounts.remove (h : Recounts changes standing) (gone : String) :
    Recounts (changes ++ [.remove gone]) (standing.remove gone) := by
  have hSublist : ((standing.remove gone).conditions.map Condition.type).Sublist
      (standing.conditions.map Condition.type) := List.filter_sublist.map _
  have hNe {type : String} (hType : type ∈ (standing.remove gone).conditions.map Condition.type) :
      type ≠ gone := by
    obtain ⟨condition, hMem, rfl⟩ := List.mem_map.1 hType
    simpa using (List.mem_filter.1 hMem).2
  have hNone : (standing.remove gone).find? gone = none :=
    Condition.find?_filter_self gone standing.conditions
  have hOther {type : String} (hType : type ≠ gone) :
      (standing.remove gone).find? type = standing.find? type := Condition.find?_filter_of_ne hType
  refine ⟨h.nodup.sublist hSublist, fun type => ?isSome_iff,
    fun {type found} hFind => ?latest, ?ordered⟩
  case isSome_iff =>
    by_cases hType : type = gone
    · exact iff_of_false (by simp [hType, hNone]) (hType ▸ not_held_remove gone changes)
    · rw [hOther hType, h.isSome_iff, held_concat_iff hType]
  case latest =>
    by_cases hType : type = gone
    · rw [hType, hNone] at hFind
      cases hFind
    · obtain ⟨last, rfl, hLatest, hFound⟩ := h.latest ((hOther hType).symm.trans hFind)
      exact ⟨last, rfl, hLatest.concat (Ne.symm hType), hFound⟩
  case ordered =>
    refine (h.ordered.sublist hSublist).imp_of_mem fun hFirst hSecond hPrecedes => ?_
    refine hPrecedes.concat ?_ ?_
    · exact fun hGone => hNe hFirst (Change.remove.inj hGone).symm
    · exact fun hGone => hNe hSecond (Change.remove.inj hGone).symm

/-- What a history comes to is told by the history. -/
theorem recounts_after (changes : List Change) : Recounts changes (after changes) := by
  induction changes using List.reverseRecOn with
  | nil => exact recounts_nil
  | append_singleton changes change ih =>
      rw [after_concat]
      cases change with
      | set now condition => exact ih.set now condition
      | remove type => exact ih.remove type

/-- Conditions are a map from types in which the last write wins, with the types in the order in
which they arose. One more change disturbs no other type, and a removal finds something if and only
if the type is held. -/
structure LastWrites (changes : List Change) (standing : Standing) : Prop
    extends Recounts changes standing where
  /-- One more change leaves the conditions of all other types, in their order, and the phase. -/
  agrees : ∀ change : Change,
    ((change.apply standing).conditions.filter fun condition => condition.type ≠ change.type) =
        (standing.conditions.filter fun condition => condition.type ≠ change.type) ∧
      (change.apply standing).phase = standing.phase
  /-- What is answered to a removal is whether the type was held. -/
  has_iff : ∀ type, standing.has type = true ↔ Held type changes
  /-- It is so answered if and only if the removal shortens the list. -/
  shortens : ∀ type, standing.has type = true ↔
    (standing.remove type).conditions.length ≠ standing.conditions.length

/-- After any changes the conditions are a map in which the last write has won. -/
theorem lastWrites_after (changes : List Change) : LastWrites changes (after changes) where
  toRecounts := recounts_after changes
  agrees := apply_agrees _
  has_iff type := by
    rw [← (recounts_after changes).isSome_iff type]
    simp [has, find?, Condition.find?]
  shortens := has_iff_length_ne _

end Standing

end Reconciliation
