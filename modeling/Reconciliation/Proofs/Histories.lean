import Mathlib.Data.List.Basic

namespace List

variable {α : Type}

/-- The last event of a history is the event in question, or comes later. -/
theorem last_cases {history earlier later : List α} {event last : α}
    (h : history ++ [last] = earlier ++ event :: later) :
    (later = [] ∧ earlier = history ∧ event = last) ∨
      ∃ rest, later = rest ++ [last] ∧ history = earlier ++ event :: rest := by
  rcases List.eq_nil_or_concat later with rfl | ⟨rest, final, rfl⟩
  · obtain ⟨hHistory, hLast⟩ := List.append_inj' h rfl
    cases hLast
    exact .inl ⟨rfl, hHistory.symm, rfl⟩
  · rw [List.concat_eq_append] at h ⊢
    rw [← List.cons_append, ← List.append_assoc] at h
    obtain ⟨hHistory, hLast⟩ := List.append_inj' h rfl
    cases hLast
    exact .inr ⟨rest, rfl, hHistory⟩

/-- Of two events of a history, they are the same, or one comes before the other. -/
theorem place_cases {first rest first' rest' : List α} {event event' : α}
    (h : first ++ event :: rest = first' ++ event' :: rest') :
    (first = first' ∧ event = event' ∧ rest = rest') ∨
      (∃ between, rest = between ++ event' :: rest') ∨
      ∃ between, rest' = between ++ event :: rest := by
  rcases List.append_eq_append_iff.1 h with ⟨gap, rfl, hRest⟩ | ⟨gap, rfl, hRest⟩
  · cases gap with
    | nil =>
        cases hRest
        exact .inl ⟨(List.append_nil _).symm, rfl, rfl⟩
    | cons _ between =>
        cases hRest
        exact .inr (.inl ⟨between, rfl⟩)
  · cases gap with
    | nil =>
        cases hRest
        exact .inl ⟨List.append_nil _, rfl, rfl⟩
    | cons _ between =>
        cases hRest
        exact .inr (.inr ⟨between, rfl⟩)

/-- What holds of any two events of which one comes before the other. -/
theorem pairwise_of_places {R : α → α → Prop} {history : List α}
    (h : ∀ first {event between event' rest},
      history = first ++ event :: between ++ event' :: rest → R event event') :
    history.Pairwise R := by
  induction history with
  | nil => exact .nil
  | cons head tail ih =>
      refine .cons (fun event hEvent => ?_) (ih fun first _ _ _ _ hTail => ?_)
      · obtain ⟨between, rest, rfl⟩ := List.append_of_mem hEvent
        exact h [] rfl
      · exact h (head :: first) (congrArg (head :: ·) hTail)

end List
