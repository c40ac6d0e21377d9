namespace Reconciliation.Text

/-- The first `limit` characters of a text, or all of it if it is no longer than that. -/
def cap (limit : Nat) (text : String) : String :=
  String.ofList (text.toList.take limit)

@[simp] theorem toList_cap (limit : Nat) (text : String) :
    (cap limit text).toList = text.toList.take limit := by
  simp [cap]

theorem toList_cap_isPrefixOf (limit : Nat) (text : String) :
    (cap limit text).toList <+: text.toList := by
  simpa using List.take_prefix limit text.toList

/-- A capped text is as long as the text or the cap, whichever is shorter. -/
theorem length_cap (limit : Nat) (text : String) :
    (cap limit text).length = min limit text.length := by
  rw [← String.length_toList, ← String.length_toList, toList_cap, List.length_take]

theorem cap_of_length_le {limit : Nat} {text : String} (h : text.length ≤ limit) :
    cap limit text = text := by
  apply String.toList_injective
  rw [toList_cap, List.take_of_length_le (by rwa [String.length_toList])]

/-- A text is another one up to a limit: a beginning of it that has as many characters as that has,
but no more than the limit. -/
structure IsCapped (limit : Nat) (whole text : String) : Prop where
  begins : text.toList <+: whole.toList
  length_eq : text.length = min limit whole.length

theorem isCapped_cap (limit : Nat) (text : String) : IsCapped limit text (cap limit text) :=
  ⟨toList_cap_isPrefixOf limit text, length_cap limit text⟩

/-- There is only one such text. -/
theorem IsCapped.eq_cap {limit : Nat} {whole text : String} (h : IsCapped limit whole text) :
    text = cap limit whole := by
  apply String.toList_injective
  have hTaken := List.prefix_iff_eq_take.1 h.begins
  rw [String.length_toList, h.length_eq, ← String.length_toList] at hTaken
  rw [hTaken, toList_cap, ← List.take_take, List.take_length]

end Reconciliation.Text
