import Reconciliation.Proofs.Json.MergeRoundTrip

/-!
When the patch from one document to another leads there. `Reaches` says so by cases on the two
documents, without a patch in sight, and `merge_diff_reaches` says that it does so exactly. Only two
things are in the way: what null stands for in a patch, and that the empty patch makes an object of
everything.
-/
namespace Reconciliation.Json

mutual

/-- The patch from one document to another leads there. -/
inductive Reaches : Json → Json → Prop where
  | replaced {old new : Json} (hNew : new.isObject = false) (h : ¬old.Agree new) : Reaches old new
  | fresh {old : Json} {new : Object} (hOld : old.isObject = false)
    (h : (Json.object new).hasNull = false) : Reaches old (.object new)
  | members {old new : Object}
    (h : ∀ key value, new.get? key = some value → MemberReaches (old.get? key) value) :
    Reaches (.object old) (.object new)

/-- The patch between two objects leads to a value under a key, from what was there, if anything. -/
inductive MemberReaches : Option Json → Json → Prop where
  | kept {was value : Json} (h : was.Agree value) : MemberReaches (some was) value
  | replaced {was : Option Json} {value : Json} (hNull : value ≠ .null)
    (hValue : value.isObject = false) : MemberReaches was value
  | merged {was value : Object} (h : Reaches (.object was) (.object value)) :
    MemberReaches (some (.object was)) (.object value)
  | fresh {was : Option Json} {value : Object}
    (hWas : ∀ document, was = some document → document.isObject = false)
    (h : (Json.object value).hasNull = false) : MemberReaches was (.object value)

end

theorem hasNull_of_isObject_eq_false {document : Json} (h : document.isObject = false) :
    document.hasNull = false := by
  cases document <;> simp_all [hasNull, isObject]

theorem Agree.isObject_eq {a b : Json} (h : a.Agree b) : a.isObject = b.isObject := by
  rw [← isObject_plain a, ← isObject_plain b, h]

section

variable {old new was value : Json}

/-- What is no object is reached from everything that does not agree with it. -/
theorem reaches_leaf_iff (hNew : new.isObject = false) : Reaches old new ↔ ¬old.Agree new := by
  refine ⟨fun h => ?_, .replaced hNew⟩
  cases h with
  | replaced _ h => exact h
  | fresh | members => cases hNew

/-- An object is reached from something else if it has no null. -/
theorem reaches_fresh_iff {new : Object} (hOld : old.isObject = false) :
    Reaches old (.object new) ↔ (Json.object new).hasNull = false := by
  refine ⟨fun h => ?_, .fresh hOld⟩
  cases h with
  | replaced hNew => cases hNew
  | fresh _ h => exact h
  | members => cases hOld

/-- An object is reached from another one if each of its members is. -/
theorem reaches_members_iff {old new : Object} :
    Reaches (.object old) (.object new) ↔
      ∀ key value, new.get? key = some value → MemberReaches (old.get? key) value := by
  refine ⟨fun h => ?_, .members⟩
  cases h with
  | replaced hNew => cases hNew
  | fresh hOld => cases hOld
  | members h => exact h

/-- A null member is there only if it was there before. -/
theorem memberReaches_null_iff {was : Option Json} :
    MemberReaches was .null ↔ was.map plain = some .null := by
  constructor
  · intro h
    cases h with
    | kept hAgree => exact congrArg some hAgree
    | replaced hNull => exact absurd rfl hNull
  · intro h
    obtain ⟨document, rfl, hPlain⟩ := Option.map_eq_some_iff.1 h
    exact .kept hPlain

theorem memberReaches_none_iff (hNull : value ≠ .null) :
    MemberReaches none value ↔ value.hasNull = false := by
  constructor
  · intro h
    cases h with
    | replaced _ hValue => exact hasNull_of_isObject_eq_false hValue
    | fresh _ hValue => exact hValue
  · intro h
    cases hObject : value.isObject with
    | false => exact .replaced hNull hObject
    | true =>
        rw [eq_object_of_isObject hObject] at h ⊢
        exact .fresh nofun h

theorem memberReaches_some_iff (hNull : value ≠ .null) (hAgree : ¬was.Agree value) :
    MemberReaches (some was) value ↔ Reaches was value := by
  constructor
  · intro h
    cases h with
    | kept h => exact absurd h hAgree
    | replaced _ hValue => exact .replaced hValue hAgree
    | merged h => exact h
    | fresh hWas h => exact .fresh (hWas was rfl) h
  · intro h
    cases h with
    | replaced hNew _ => exact .replaced hNull hNew
    | fresh hOld h => exact .fresh (fun _ hWas => Option.some.inj hWas ▸ hOld) h
    | members h => exact .merged (.members h)

end

/-- Where there is no object to merge into, a patch comes out as it is exactly if it has no nulls.
-/
theorem merge_agree_iff_hasNull {target patch : Json} (hTarget : target.isObject = false) :
    (merge target patch).Agree patch ↔ patch.hasNull = false := by
  refine ⟨fun h => ?_, fun h => by rw [merge_eq_of_hasNull_eq_false hTarget h]⟩
  induction patch using members_induction generalizing target with
  | leaf patch hLeaf => exact hasNull_of_isObject_eq_false hLeaf
  | object patch ih =>
      rw [merge_object, members_of_isObject_eq_false hTarget, agree_object_iff] at h
      refine hasNull_object_eq_false_iff.2 fun key value hGet => ?_
      have hKey := h key
      rw [get?_mergeMembers, hGet] at hKey
      have hNull : value ≠ .null := by
        rintro rfl
        cases hKey
      have hMerged : (merge .null value).Agree value := by
        cases value with
        | null => exact absurd rfl hNull
        | _ => exact Option.some.inj hKey
      exact ⟨hNull, ih key value hGet rfl hMerged⟩

/-- One member after a patch, if `hMerge` tells where the patches between values lead. -/
theorem map_plain_get?_iff_memberReaches {old new : Object} {key : String} {value : Json}
    (hNew : new.get? key = some value)
    (hMerge : ∀ was, (merge was (diff was value)).Agree value ↔ Reaches was value) :
    ((mergeMembers old (diffObjects old new)).get? key).map plain = some value.plain ↔
      MemberReaches (old.get? key) value := by
  by_cases hNull : value = .null
  · subst hNull
    rw [get?_mergeMembers_diffObjects_of_null hNew, memberReaches_null_iff]
    split
    · rfl
    · rename_i hWas
      exact ⟨nofun, fun h => absurd h hWas⟩
  · rw [get?_mergeMembers_diffObjects_of_ne_null hNew hNull]
    cases hOld : old.get? key with
    | none =>
        rw [memberReaches_none_iff hNull]
        exact Option.some_inj.trans (merge_agree_iff_hasNull rfl)
    | some was =>
        by_cases hAgree : was.Agree value
        · simp only [hAgree, if_true]
          exact ⟨fun _ => .kept hAgree, fun _ => congrArg some hAgree⟩
        · simp only [hAgree, if_false]
          rw [memberReaches_some_iff hNull hAgree]
          exact Option.some_inj.trans (hMerge was)

/-- The patch between two documents leads to the new one exactly where it is reached. -/
theorem merge_diff_agree_iff (old new : Json) :
    (merge old (diff old new)).Agree new ↔ Reaches old new := by
  induction new using members_induction generalizing old with
  | leaf new hLeaf =>
      rw [diff_of_new_isObject_eq_false _ hLeaf, reaches_leaf_iff hLeaf]
      by_cases hAgree : old.Agree new
      · -- The patch is empty and makes an object of what should be none.
        rw [if_pos hAgree, merge_object]
        exact ⟨fun h => absurd (h.isObject_eq.trans hLeaf) nofun, absurd hAgree⟩
      · rw [if_neg hAgree, merge_of_isObject_eq_false _ hLeaf]
        exact ⟨fun _ => hAgree, fun _ => rfl⟩
  | object new ih =>
      cases hOld : old.isObject with
      | false =>
          rw [diff_of_isObject_eq_false _ hOld, reaches_fresh_iff hOld]
          exact merge_agree_iff_hasNull hOld
      | true =>
          obtain ⟨old, rfl⟩ : ∃ o, old = .object o := ⟨_, eq_object_of_isObject hOld⟩
          rw [diff_object_object, merge_object, members_object, agree_object_iff,
            reaches_members_iff]
          refine forall_congr' fun key => ?_
          cases hNew : new.get? key with
          | none =>
              rw [get?_mergeMembers_diffObjects, hNew]
              cases old.get? key <;> exact ⟨nofun, fun _ => rfl⟩
          | some value =>
              refine (map_plain_get?_iff_memberReaches hNew fun was => ih key value hNew was).trans ?_
              exact ⟨fun h _ hValue => Option.some.inj hValue ▸ h, fun h => h value rfl⟩

/-- The patch from one document to another leads there exactly if `Reaches` says so, up to the signs
of zeros that count as equal, and leads to the very document where there are none. From an object to
an object without nulls it always leads. -/
theorem merge_diff_reaches :
    (∀ old new : Json, (merge old (diff old new)).Agree new ↔ Reaches old new) ∧
      (∀ old new : Json, old.plain = old → new.plain = new →
        (merge old (diff old new) = new ↔ Reaches old new)) ∧
      ∀ old new : Object, (Json.object new).hasNull = false →
        (merge (.object old) (diff (.object old) (.object new))).Agree (.object new) := by
  refine ⟨merge_diff_agree_iff, fun old new hOld hNew => ?_, fun old _ => merge_diff_object old⟩
  have hPlain : (merge old (diff old new)).plain = merge old (diff old new) := by
    rw [plain_merge, plain_diff, hOld, hNew]
  rw [← merge_diff_agree_iff, Agree, hPlain, hNew]

/-- A null member that was there before is no obstacle, and the patch brings it nowhere else. -/
theorem merge_diff_reaches_of_kept_null :
    let old := Json.object (Object.ofList [("a", .null), ("b", .bool true)])
    let new := Json.object (Object.ofList [("a", .null), ("b", .bool false)])
    Reaches old new ∧ merge old (diff old new) = new ∧ ¬Reaches (.object .nil) new :=
  ⟨(merge_diff_reaches.2.1 _ _ (by decide) (by decide)).1 (by decide), by decide,
    fun h => absurd ((merge_diff_reaches.1 _ _).2 h) (by decide)⟩

end Reconciliation.Json
