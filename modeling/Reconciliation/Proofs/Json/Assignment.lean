import Reconciliation.Proofs.Json.MergeReach

/-!
Where patches to one and the same value lead. `patchedTo` says what becomes of a member by such a
patch. `patchedTo_patchedTo` says that a second one leads no further than the first, and
`patchedTo_agree_iff` whether that is to the value.
-/
namespace Reconciliation.Json

/-- What becomes of a member that is patched to a value other than null. -/
def patchedTo (value old : Json) : Json :=
  if old.Agree value then old else merge old (diff old value)

section

variable {old value : Json}

/-- What agrees with the value stays as it is. -/
theorem patchedTo_of_agree (h : old.Agree value) : patchedTo value old = old :=
  if_pos h

/-- Anything else becomes the value, if that is no object. -/
theorem patchedTo_of_leaf (hValue : value.isObject = false) (h : ¬old.Agree value) :
    patchedTo value old = value := by
  rw [patchedTo, if_neg h, diff_of_new_isObject_eq_false old hValue, if_neg h,
    merge_of_isObject_eq_false old hValue]

/-- The patch from nothing to an object is the object. -/
theorem diffObjects_nil (new : Object) : diffObjects .nil new = new := by
  apply Members.ext
  intro key
  rw [get?_diffObjects]
  cases new.get? key <;> rfl

/-- The patch to an object, from whatever there is. -/
theorem diff_object (old : Json) (new : Object) :
    diff old (.object new) = .object (diffObjects old.members new) := by
  cases hOld : old.isObject with
  | false =>
      rw [diff_of_isObject_eq_false new hOld, members_of_isObject_eq_false hOld, diffObjects_nil]
  | true =>
      obtain ⟨old, rfl⟩ : ∃ members, old = .object members := ⟨_, eq_object_of_isObject hOld⟩
      rw [diff_object_object, members_object]

/-- Anything else is merged with the value, if that is an object. -/
theorem patchedTo_object {new : Object} (h : ¬old.Agree (.object new)) :
    patchedTo (.object new) old =
      .object (mergeMembers old.members (diffObjects old.members new)) := by
  rw [patchedTo, if_neg h, diff_object, merge_object]

/-- A member that is not there is patched as null would be. -/
theorem get?_mergeMembers_diffObjects_self {members new : Object} {key : String}
    (hNew : new.get? key = some value) (hNull : value ≠ .null) :
    (mergeMembers members (diffObjects members new)).get? key =
      some (patchedTo value ((members.get? key).getD .null)) := by
  rw [get?_mergeMembers_diffObjects_of_ne_null hNew hNull]
  cases members.get? key with
  | none =>
      have hAgree : ¬Agree .null value := fun h => hNull (plain_eq_null_iff.1 h.symm)
      rw [Option.getD_none, patchedTo, if_neg hAgree, diff_eq_of_isObject_eq_false rfl hAgree]
  | some was => by_cases hAgree : was.Agree value <;> simp [patchedTo, hAgree]

end

/-- A second patch to a value changes nothing more, whether the first has led there or not. -/
theorem patchedTo_patchedTo (value old : Json) :
    patchedTo value (patchedTo value old) = patchedTo value old := by
  induction value using members_induction generalizing old with
  | leaf value hValue =>
      by_cases hAgree : old.Agree value
      · rw [patchedTo_of_agree hAgree, patchedTo_of_agree hAgree]
      · rw [patchedTo_of_leaf hValue hAgree, patchedTo_of_agree (.refl value)]
  | object new ih =>
      by_cases hAgree : old.Agree (.object new)
      · rw [patchedTo_of_agree hAgree, patchedTo_of_agree hAgree]
      rw [patchedTo_object hAgree]
      by_cases hAgain : Agree (.object (mergeMembers old.members (diffObjects old.members new)))
          (.object new)
      · exact patchedTo_of_agree hAgain
      rw [patchedTo_object hAgain, members_object]
      congr 1
      apply Members.ext
      intro key
      cases hNew : new.get? key with
      | none =>
          have hGone :
              (mergeMembers old.members (diffObjects old.members new)).get? key = none := by
            rw [get?_mergeMembers_diffObjects, hNew]
            cases old.members.get? key <;> rfl
          rw [get?_mergeMembers_diffObjects, hNew, hGone]
      | some value =>
          by_cases hNull : value = .null
          · -- A null stays if it was there, and never comes in.
            subst hNull
            rw [get?_mergeMembers_diffObjects_of_null hNew,
              get?_mergeMembers_diffObjects_of_null hNew]
            split <;> simp_all
          · rw [get?_mergeMembers_diffObjects_self hNew hNull,
              get?_mergeMembers_diffObjects_self hNew hNull, Option.getD_some, ih key value hNew]

/-- The patch leads to the value if and only if nothing null is in the way. -/
theorem patchedTo_agree_iff {old value : Json} (h : value ≠ .null ∨ old.Agree value) :
    (patchedTo value old).Agree value ↔ MemberReaches (some old) value := by
  by_cases hAgree : old.Agree value
  · rw [patchedTo_of_agree hAgree]
    exact ⟨.kept, fun _ => hAgree⟩
  · have hNull : value ≠ .null := h.resolve_right hAgree
    rw [memberReaches_some_iff hNull hAgree, patchedTo, if_neg hAgree]
    exact merge_diff_agree_iff old value

/-- A value without nulls can be patched to from everywhere. -/
theorem patchedTo_agree_of_hasNull_eq_false {value : Json} (old : Json)
    (hNull : value.hasNull = false) : (patchedTo value old).Agree value := by
  by_cases hAgree : old.Agree value
  · rwa [patchedTo_of_agree hAgree]
  · rw [patchedTo, if_neg hAgree]
    exact merge_diff_of_not_agree hAgree hNull

end Reconciliation.Json
