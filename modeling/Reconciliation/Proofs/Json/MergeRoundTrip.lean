import Reconciliation.Json.MergePatch

/-!
What a patch from `old` to `new` makes of a document. A null member of a patch means removal, so the
patch leads to `new` if no member of `new`, at any depth that is reached through objects, is null:
`merge_diff_object`. For a target other than `old`, `get?_mergeMembers_diffObjects` says what
becomes of each member.
-/
namespace Reconciliation

mutual

/-- Whether some member that is reached through objects is null. Arrays are not looked into. -/
def Json.hasNull : Json → Bool
  | .object members => members.hasNull
  | _ => false

/-- Whether some member is null, or has a null member inside. -/
def Members.hasNull : {low : Option String} → Members low → Bool
  | _, .nil => false
  | _, .cons _ _ value rest => decide (value = .null) || value.hasNull || rest.hasNull

end

namespace Members

/-- There is no null among the members if none is null and none has one inside. -/
theorem hasNull_eq_false_iff {low : Option String} (members : Members low) :
    members.hasNull = false ↔
      ∀ key value, members.get? key = some value → value ≠ .null ∧ value.hasNull = false := by
  match members with
  | .nil => simp [hasNull]
  | .cons key' after value' rest =>
      have ih := hasNull_eq_false_iff rest
      simp only [hasNull, Bool.or_eq_false_iff, decide_eq_false_iff_not, ih]
      constructor
      · rintro ⟨hHead, hRest⟩ key value hGet
        simp only [get?] at hGet
        split at hGet
        · cases hGet
          exact hHead
        · exact hRest key value hGet
      · intro h
        refine ⟨h key' value' (by simp [get?]), fun key value hGet => ?_⟩
        have hNe : key ≠ key' := by
          rintro rfl
          rw [get?_self_eq_none] at hGet
          cases hGet
        exact h key value (by simpa [get?, hNe] using hGet)

end Members

namespace Json

theorem hasNull_object_eq_false_iff {object : Object} :
    (Json.object object).hasNull = false ↔
      ∀ key value, object.get? key = some value → value ≠ .null ∧ value.hasNull = false :=
  Members.hasNull_eq_false_iff object

/-- Neither null, which removes what it is merged into, nor an object, which is merged member by
member. -/
def IsLeaf (document : Json) : Prop :=
  document ≠ .null ∧ document.isObject = false

theorem isLeaf_of_map_eq_some {α : Type} {value : Option α} {write : α → Json} {leaf : Json}
    (hWrite : ∀ inner, (write inner).IsLeaf) (h : value.map write = some leaf) : leaf.IsLeaf := by
  obtain ⟨inner, -, rfl⟩ := Option.map_eq_some_iff.1 h
  exact hWrite inner

/-- Whether all members are leaves. -/
def Object.Leaves (object : Object) : Prop :=
  ∀ key value, object.get? key = some value → value.IsLeaf

theorem Object.Leaves.insert? {object : Object} (h : object.Leaves) (key : String)
    {value : Option Json} (hValue : ∀ leaf, value = some leaf → leaf.IsLeaf) :
    (object.insert? key value).Leaves := by
  intro key' leaf hLeaf
  rw [get?_insert?] at hLeaf
  split at hLeaf
  · rcases Option.or_eq_some_iff.1 hLeaf with hNew | ⟨-, hOld⟩
    · exact hValue leaf hNew
    · exact h key' leaf hOld
  · exact h key' leaf hLeaf

/-- Where documents differ, the patch is null only if it leads to null. -/
theorem diff_eq_null_iff {old new : Json} (h : ¬old.Agree new) :
    diff old new = .null ↔ new = .null := by
  cases hObject : new.isObject with
  | false => rw [diff_of_new_isObject_eq_false _ hObject, if_neg h]
  | true =>
      obtain ⟨new, rfl⟩ : ∃ o, new = .object o := ⟨_, eq_object_of_isObject hObject⟩
      cases old <;> simp [diff]

theorem diff_eq_of_isObject_eq_false {old new : Json} (h : old.isObject = false)
    (hAgree : ¬old.Agree new) : diff old new = new := by
  cases hNew : new.isObject with
  | false => rw [diff_of_new_isObject_eq_false _ hNew, if_neg hAgree]
  | true =>
      obtain ⟨new, rfl⟩ : ∃ o, new = .object o := ⟨_, eq_object_of_isObject hNew⟩
      rw [diff_of_isObject_eq_false _ h]

/-- What a patch between two objects makes of a third one, member by member. -/
theorem get?_mergeMembers_diffObjects (target old new : Object) (key : String) :
    (mergeMembers target (diffObjects old new)).get? key =
      match old.get? key, new.get? key with
      | none, none => target.get? key
      | some _, none => none
      | _, some .null =>
        if (old.get? key).map plain = some .null then target.get? key else none
      | none, some value => some (merge ((target.get? key).getD .null) value)
      | some was, some value =>
        if was.Agree value then target.get? key
        else some (merge ((target.get? key).getD .null) (diff was value)) := by
  rw [get?_mergeMembers, get?_diffObjects]
  cases hOld : old.get? key with
  | none =>
      cases hNew : new.get? key with
      | none => rfl
      | some value => cases value <;> rfl
  | some was =>
      cases hNew : new.get? key with
      | none => rfl
      | some value =>
          by_cases hAgree : was.Agree value
          · have hPlain : was.plain = value.plain := hAgree
            cases value <;> simp_all [plain]
          · by_cases hNull : value = .null
            · subst hNull
              have hPlain : was.plain ≠ .null := hAgree
              have hDiff : diff was .null = .null := (diff_eq_null_iff hAgree).2 rfl
              simp [hAgree, hDiff, hPlain]
            · have hDiff : diff was value ≠ .null := mt (diff_eq_null_iff hAgree).1 hNull
              cases hPatch : diff was value with
              | null => exact absurd hPatch hDiff
              | _ => cases value <;> simp_all

/-- A member that is not changed is left as it is. -/
theorem get?_mergeMembers_diffObjects_of_eq {target old new : Object} {key : String}
    (h : new.get? key = old.get? key) :
    (mergeMembers target (diffObjects old new)).get? key = target.get? key := by
  rw [get?_mergeMembers_diffObjects, h]
  cases old.get? key with
  | none => rfl
  | some value => cases value <;> simp [Agree, plain]

/-- A null member comes of a patch only where nothing is patched. -/
theorem get?_mergeMembers_diffObjects_of_null {target old new : Object} {key : String}
    (hNew : new.get? key = some .null) :
    (mergeMembers target (diffObjects old new)).get? key =
      if (old.get? key).map plain = some .null then target.get? key else none := by
  rw [get?_mergeMembers_diffObjects, hNew]
  cases old.get? key <;> rfl

/-- A member that is patched is merged with the patch between its old and its new value. -/
theorem get?_mergeMembers_diffObjects_of_ne_null {target old new : Object} {key : String}
    {value : Json} (hNew : new.get? key = some value) (hNull : value ≠ .null) :
    (mergeMembers target (diffObjects old new)).get? key =
      match old.get? key with
      | none => some (merge ((target.get? key).getD .null) value)
      | some was =>
        if was.Agree value then target.get? key
        else some (merge ((target.get? key).getD .null) (diff was value)) := by
  rw [get?_mergeMembers_diffObjects, hNew]
  cases old.get? key <;> cases value <;> first | rfl | exact absurd rfl hNull

/-- Where a patch leads to a leaf or to nothing, it leaves what is there or puts that in its place.
-/
theorem get?_mergeMembers_diffObjects_of_leaf {target old new : Object} {key : String}
    (hNew : ∀ value, new.get? key = some value → value.IsLeaf) :
    (mergeMembers target (diffObjects old new)).get? key = target.get? key ∨
      (mergeMembers target (diffObjects old new)).get? key = new.get? key := by
  cases hValue : new.get? key with
  | none =>
      rw [get?_mergeMembers_diffObjects, hValue]
      cases old.get? key with
      | none => exact .inl rfl
      | some was => exact .inr rfl
  | some value =>
      obtain ⟨hNull, hLeaf⟩ := hNew value hValue
      have hMerge : ∀ target, merge target value = value := fun target =>
        merge_of_isObject_eq_false target hLeaf
      rw [get?_mergeMembers_diffObjects_of_ne_null hValue hNull]
      cases old.get? key with
      | none => exact .inr (congrArg some (hMerge _))
      | some was =>
          by_cases hAgree : was.Agree value
          · exact .inl (if_pos hAgree)
          · refine .inr ((if_neg hAgree).trans ?_)
            rw [diff_of_new_isObject_eq_false _ hLeaf, if_neg hAgree, hMerge]

/-- A patch between objects that agree changes nothing. -/
theorem mergeMembers_diffObjects_of_agree (target : Object) {old new : Object}
    (h : (Json.object old).Agree (.object new)) :
    mergeMembers target (diffObjects old new) = target := by
  have hPlain := agree_object_iff.1 h
  apply Members.ext
  intro key
  rw [get?_mergeMembers_diffObjects]
  have hKey := hPlain key
  cases hOld : old.get? key with
  | none =>
      cases hNew : new.get? key with
      | none => rfl
      | some value => simp [hOld, hNew] at hKey
  | some was =>
      cases hNew : new.get? key with
      | none => simp [hOld, hNew] at hKey
      | some value =>
          rw [hOld, hNew] at hKey
          have hAgree : was.Agree value := Option.some.inj hKey
          have hPlain : was.plain = value.plain := hAgree
          cases value <;> simp_all [plain]

/-- An object among the members of an object is patched as it would be on its own. -/
theorem get?_mergeMembers_object {target old new inner oldInner newInner : Object} {key : String}
    (hTarget : target.get? key = some (.object inner))
    (hOld : old.get? key = some (.object oldInner))
    (hNew : new.get? key = some (.object newInner)) :
    (mergeMembers target (diffObjects old new)).get? key =
      some (.object (mergeMembers inner (diffObjects oldInner newInner))) := by
  rw [get?_mergeMembers_diffObjects, hOld, hNew]
  by_cases hAgree : (Json.object oldInner).Agree (.object newInner)
  · simp [hAgree, hTarget, mergeMembers_diffObjects_of_agree]
  · simp [hAgree, hTarget]

/-- Where there is no object to merge into, a patch without nulls is what comes of it. -/
theorem merge_eq_of_hasNull_eq_false {target patch : Json} (hTarget : target.isObject = false)
    (h : patch.hasNull = false) : merge target patch = patch := by
  induction patch using members_induction generalizing target with
  | leaf patch hLeaf => exact merge_of_isObject_eq_false _ hLeaf
  | object patch ih =>
      have hMembers := hasNull_object_eq_false_iff.1 h
      rw [merge_object, members_of_isObject_eq_false hTarget]
      congr 1
      apply Members.ext
      intro key
      rw [get?_mergeMembers]
      cases hGet : patch.get? key with
      | none => rfl
      | some value =>
          obtain ⟨hNull, hValue⟩ := hMembers key value hGet
          have hMerge : merge .null value = value := ih key value hGet rfl hValue
          cases value <;> simp_all

/-- One member after a patch, if the patch was made for what the target has there and patches
between unlike values work. -/
theorem map_plain_get?_of_merge_diff {target old new : Object} {key : String}
    (hTarget : target.get? key = old.get? key)
    (hNull : ∀ value, new.get? key = some value → value ≠ .null ∧ value.hasNull = false)
    (hMerge : ∀ was value, new.get? key = some value → ¬was.Agree value →
      (merge was (diff was value)).Agree value) :
    ((mergeMembers target (diffObjects old new)).get? key).map plain =
      (new.get? key).map plain := by
  cases hNew : new.get? key with
  | none =>
      rw [get?_mergeMembers_diffObjects, hTarget, hNew]
      cases old.get? key <;> rfl
  | some value =>
      obtain ⟨hValue, hInside⟩ := hNull value hNew
      rw [get?_mergeMembers_diffObjects_of_ne_null hNew hValue, hTarget]
      cases hGet : old.get? key with
      | none =>
          have hFresh : merge .null value = value := merge_eq_of_hasNull_eq_false rfl hInside
          exact congrArg (fun found => some (plain found)) hFresh
      | some was =>
          by_cases hSame : was.Agree value
          · simp only [hSame, if_true]
            exact congrArg some hSame
          · simp only [hSame, if_false]
            exact congrArg some (hMerge was value hNew hSame)

/-- A patch leads to its second document, where that has no null members. Two documents that agree
have an empty patch, which would make an object of anything else. -/
theorem merge_diff_of_not_agree {old new : Json} (hAgree : ¬old.Agree new)
    (h : new.hasNull = false) : (merge old (diff old new)).Agree new := by
  induction new using members_induction generalizing old with
  | leaf new hLeaf =>
      rw [diff_of_new_isObject_eq_false _ hLeaf, if_neg hAgree,
        merge_of_isObject_eq_false _ hLeaf]
  | object new ih =>
      have hMembers := hasNull_object_eq_false_iff.1 h
      cases hOld : old.isObject with
      | false =>
          rw [diff_of_isObject_eq_false _ hOld, merge_eq_of_hasNull_eq_false hOld h]
      | true =>
          obtain ⟨old, rfl⟩ : ∃ o, old = .object o := ⟨_, eq_object_of_isObject hOld⟩
          rw [diff_object_object, merge_object, members_object, agree_object_iff]
          intro key
          exact map_plain_get?_of_merge_diff rfl (hMembers key) fun was value hNew hSame =>
            ih key value hNew hSame (hMembers key value hNew).2

/-- One member after a patch that was made for what the target has there. -/
theorem map_plain_get?_mergeMembers {target old new : Object} {key : String}
    (hTarget : target.get? key = old.get? key)
    (hNull : ∀ value, new.get? key = some value → value ≠ .null ∧ value.hasNull = false) :
    ((mergeMembers target (diffObjects old new)).get? key).map plain = (new.get? key).map plain :=
  map_plain_get?_of_merge_diff hTarget hNull fun _ value hNew hSame =>
    merge_diff_of_not_agree hSame (hNull value hNew).2

/-- The patch between two objects leads from the first to the second, if that has no null members.
-/
theorem merge_diff_object (old : Object) {new : Object} (h : (Json.object new).hasNull = false) :
    (merge (.object old) (diff (.object old) (.object new))).Agree (.object new) := by
  rw [diff_object_object, merge_object, members_object, agree_object_iff]
  exact fun key => map_plain_get?_mergeMembers rfl (hasNull_object_eq_false_iff.1 h key)

end Json

end Reconciliation
