import Reconciliation.Condition.Standing

namespace Reconciliation.Condition

variable {now : Timestamp} {new : Condition} {conditions : List Condition}

theorem type_begin (now : Timestamp) (condition : Condition) :
    (condition.begin now).type = condition.type := rfl

theorem type_renew (now : Timestamp) (old new : Condition) : (old.renew now new).type = old.type := rfl

/-- The first condition of its type is this one, the time apart. -/
def Stands (condition : Condition) (conditions : List Condition) : Prop :=
  ∃ since, find? condition.type conditions = some { condition with since }

theorem find?_cons (type : String) (head : Condition) (rest : List Condition) :
    find? type (head :: rest) = if head.type = type then some head else find? type rest := by
  by_cases h : head.type = type <;> simp [find?, h]

/-- A condition that was set stands. -/
theorem stands_setIn (now : Timestamp) (new : Condition) (conditions : List Condition) :
    new.Stands (setIn now new conditions) := by
  induction conditions with
  | nil =>
      refine ⟨some (new.since.getD now), ?_⟩
      rw [setIn, find?_cons, type_begin, if_pos rfl, begin]
  | cons head rest ih =>
      by_cases h : head.type = new.type
      · refine ⟨(head.renew now new).since, ?_⟩
        rw [setIn, if_pos h, find?_cons, type_renew, if_pos h, renew, h]
      · obtain ⟨since, hFind⟩ := ih
        exact ⟨since, by rw [setIn, if_neg h, find?_cons, if_neg h, hFind]⟩

/-- Setting a condition does not disturb those of other types. -/
theorem find?_setIn_of_ne {type : String} (h : type ≠ new.type) :
    find? type (setIn now new conditions) = find? type conditions := by
  induction conditions with
  | nil => rw [setIn, find?_cons, type_begin, if_neg (Ne.symm h)]
  | cons head rest ih =>
      by_cases hHead : head.type = new.type
      · have hOld : head.type ≠ type := fun hType => h (hType.symm.trans hHead)
        rw [setIn, if_pos hHead, find?_cons, find?_cons, type_renew, if_neg hOld, if_neg hOld]
      · rw [setIn, if_neg hHead, find?_cons, find?_cons, ih]

/-- A condition stands on when one of another type is set. -/
theorem Stands.setIn {condition : Condition} (h : condition.Stands conditions)
    (hType : condition.type ≠ new.type) : condition.Stands (setIn now new conditions) := by
  obtain ⟨since, hFind⟩ := h
  exact ⟨since, (find?_setIn_of_ne hType).trans hFind⟩

/-- What stands is set anew without any change, whatever the time is. -/
theorem Stands.setIn_eq (h : new.Stands conditions) (now : Timestamp) :
    Condition.setIn now new conditions = conditions := by
  obtain ⟨since, hFind⟩ := h
  induction conditions with
  | nil => cases hFind
  | cons head rest ih =>
      rw [find?_cons] at hFind
      by_cases hHead : head.type = new.type
      · rw [if_pos hHead] at hFind
        cases hFind
        rw [Condition.setIn, if_pos rfl, renew, if_pos rfl]
      · rw [if_neg hHead] at hFind
        rw [Condition.setIn, if_neg hHead, ih hFind]

end Reconciliation.Condition
