import Reconciliation.Json.MergePatch

namespace Reconciliation.Json

/-- Two patches that set nothing in common: under each key that both of them have, both have
objects, of which the same is true. -/
inductive Disjoint : Json → Json → Prop where
  | object {left right : Object}
    (h : ∀ key value value', left.get? key = some value → right.get? key = some value' →
      Disjoint value value') :
    Disjoint (.object left) (.object right)

/-- What becomes of a member, if `change` is what a patch says of it. -/
def patchMember (change old : Option Json) : Option Json :=
  match change with
  | none => old
  | some .null => none
  | some value => some (merge (old.getD .null) value)

theorem patchMember_none (old : Option Json) : patchMember none old = old := rfl

theorem patchMember_some {value : Json} (hNull : value ≠ .null) (old : Option Json) :
    patchMember (some value) old = some (merge (old.getD .null) value) := by
  cases value <;> first | rfl | exact absurd rfl hNull

/-- A patch is applied member by member. -/
theorem get?_merge_object (target : Json) (patch : Object) (key : String) :
    (merge target (.object patch)).members.get? key =
      patchMember (patch.get? key) (target.members.get? key) := by
  rw [merge_object, members_object, get?_mergeMembers]
  rfl

/-- Patches by objects lead to the same document if they do so at each member. -/
theorem merge_object_ext {target target' : Json} {patch patch' : Object}
    (h : ∀ key, patchMember (patch.get? key) (target.members.get? key) =
      patchMember (patch'.get? key) (target'.members.get? key)) :
    merge target (.object patch) = merge target' (.object patch') := by
  rw [merge_object, merge_object]
  congr 1
  apply Members.ext
  intro key
  have hKey := h key
  rwa [← get?_merge_object, ← get?_merge_object, merge_object, merge_object] at hKey

/-- The order of disjoint patches does not matter. -/
theorem Disjoint.merge_right_comm {left right : Json} (h : left.Disjoint right) (target : Json) :
    merge (merge target left) right = merge (merge target right) left := by
  induction h generalizing target with
  | @object left right hMeet ih =>
      apply merge_object_ext
      intro key
      rw [get?_merge_object, get?_merge_object]
      cases hLeft : left.get? key with
      | none => rw [patchMember_none, patchMember_none]
      | some value =>
          cases hRight : right.get? key with
          | none => rw [patchMember_none, patchMember_none]
          | some value' =>
              -- Neither value is null where the patches meet, so neither of them removes the member.
              obtain ⟨hValue, hValue'⟩ : value ≠ .null ∧ value' ≠ .null := by
                cases hMeet key value value' hLeft hRight with
                | object => exact ⟨nofun, nofun⟩
              rw [patchMember_some hValue, patchMember_some hValue', patchMember_some hValue,
                patchMember_some hValue', Option.getD_some, Option.getD_some,
                ih key value value' hLeft hRight]

/-- A patch that has been applied does nothing more. -/
theorem merge_merge_self (target patch : Json) :
    merge (merge target patch) patch = merge target patch := by
  induction patch using members_induction generalizing target with
  | leaf patch hLeaf =>
      rw [merge_of_isObject_eq_false _ hLeaf, merge_of_isObject_eq_false _ hLeaf]
  | object patch ih =>
      apply merge_object_ext
      intro key
      rw [get?_merge_object]
      cases hGet : patch.get? key with
      | none => rw [patchMember_none]
      | some value =>
          by_cases hNull : value = .null
          · subst hNull
            rfl
          · rw [patchMember_some hNull, patchMember_some hNull, Option.getD_some,
              ih key value hGet]

/-- Two patches that can be applied in either order, and again, whatever they are applied to. -/
structure Converge (left right : Json) : Prop where
  comm : ∀ target, merge (merge target left) right = merge (merge target right) left
  left_again : ∀ target,
    merge (merge (merge target left) right) left = merge (merge target left) right
  right_again : ∀ target,
    merge (merge (merge target left) right) right = merge (merge target left) right

/-- Disjoint patches can be applied in either order. -/
theorem Disjoint.converge {left right : Json} (h : left.Disjoint right) : Converge left right where
  comm := h.merge_right_comm
  left_again target := by
    rw [← h.merge_right_comm (merge target left), merge_merge_self]
  right_again target := merge_merge_self (merge target left) right

/-- Disjoint patches converge, a patch is applied once and for all, and so two edits of one document
with disjoint patches can be brought to any other document in either order. -/
theorem converge_of_disjoint_and_merge_self :
    (∀ left right : Json, left.Disjoint right → Converge left right) ∧
      (∀ target patch : Json, merge (merge target patch) patch = merge target patch) ∧
      ∀ base edited edited' : Json, (diff base edited).Disjoint (diff base edited') →
        Converge (diff base edited) (diff base edited') :=
  ⟨fun _ _ => Disjoint.converge, merge_merge_self, fun _ _ _ => Disjoint.converge⟩

/-- One edit changes a member of an inner object, another one adds a member to it and takes out one
beside it. A document that has a text in the place of the inner object gets an object there. -/
theorem converge_of_inner_edits :
    let inner (members : List (String × Json)) := Json.object (Object.ofList members)
    let base := inner [("a", inner [("x", .bool true)]), ("b", .bool true)]
    let left := diff base (inner [("a", inner [("x", .bool false)]), ("b", .bool true)])
    let right := diff base (inner [("a", inner [("x", .bool true), ("y", .array [])])])
    left.Disjoint right ∧
      merge (merge (inner [("a", .string "t"), ("b", .null)]) left) right =
        inner [("a", inner [("x", .bool false), ("y", .array [])])] ∧
      Converge left right := by
  intro inner base left right
  have hLeft : left = inner [("a", inner [("x", .bool false)])] := by decide
  have hRight : right = inner [("a", inner [("y", .array [])]), ("b", .null)] := by decide
  have hDisjoint : left.Disjoint right := by
    rw [hLeft, hRight]
    refine .object fun key value value' hValue hValue' => ?_
    obtain ⟨rfl, rfl⟩ : key = "a" ∧ inner [("x", .bool false)] = value := by
      simpa [Object.ofList] using hValue
    obtain rfl : inner [("y", .array [])] = value' := by
      simpa [Object.ofList] using hValue'
    refine .object fun key value value' hValue hValue' => ?_
    obtain ⟨rfl, -⟩ : key = "x" ∧ .bool false = value := by
      simpa [Object.ofList] using hValue
    simp [Object.ofList] at hValue'
  exact ⟨hDisjoint, by decide, converge_of_disjoint_and_merge_self.2.2 _ _ _ hDisjoint⟩

end Reconciliation.Json
