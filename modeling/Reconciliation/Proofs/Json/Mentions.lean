import Reconciliation.Proofs.Json.Assignment
import Reconciliation.Proofs.Json.Disjoint

/-!
What a patch mentions. The patch from one document to another mentions a place only if they differ
there, so that nothing can be left out of it: `agree_of_subPatch`. The empty patch mentions nothing,
and still makes an object of what is none.
-/
namespace Reconciliation.Json

/-- One patch is what is left of another one when members are taken out, at any depth. -/
inductive SubPatch : Json → Json → Prop where
  | same {part whole : Json} (h : part.Agree whole) : SubPatch part whole
  | object {part whole : Object} (hKeys : ∀ key, whole.get? key = none → part.get? key = none)
    (h : ∀ key value value', part.get? key = some value → whole.get? key = some value' →
      SubPatch value value') :
    SubPatch (.object part) (.object whole)

section

variable {part whole : Json}

/-- What is no object has no other part but itself. -/
theorem subPatch_leaf_iff (hWhole : whole.isObject = false) :
    SubPatch part whole ↔ part.Agree whole := by
  refine ⟨fun h => ?_, .same⟩
  cases h with
  | same h => exact h
  | object => cases hWhole

/-- A part of an object is an object, and a part of it under each key. -/
theorem SubPatch.exists_members {whole : Object} (h : SubPatch part (.object whole)) :
    ∃ members, part = .object members ∧
      (∀ key, whole.get? key = none → members.get? key = none) ∧
      ∀ key value value', members.get? key = some value → whole.get? key = some value' →
        SubPatch value value' := by
  cases h with
  | object hKeys h => exact ⟨_, rfl, hKeys, h⟩
  | same hAgree =>
      obtain ⟨members, rfl⟩ : ∃ members, part = .object members :=
        ⟨_, eq_object_of_isObject hAgree.isObject_eq⟩
      rw [agree_object_iff] at hAgree
      refine ⟨members, rfl, fun key hNone => ?_, fun key value value' hValue hValue' => ?_⟩
      · simpa [hNone] using hAgree key
      · have hKey := hAgree key
        rw [hValue, hValue'] at hKey
        exact .same (Option.some.inj hKey)

/-- Nothing can be taken out of the empty patch. -/
theorem SubPatch.agree_nil (h : SubPatch part (.object .nil)) : part.Agree (.object .nil) := by
  obtain ⟨members, rfl, hKeys, -⟩ := h.exists_members
  exact agree_object_iff.2 fun key => congrArg _ (hKeys key rfl)

end

/-- What the patch between two objects says of a key, where the one object has `old` under the key
and the other one has `new`. -/
inductive Says : (old new change : Option Json) → Prop where
  | alike {old new : Option Json} (h : old.map plain = new.map plain) : Says old new none
  | removed (was : Json) : Says (some was) none (some .null)
  | added (value : Json) : Says none (some value) (some value)
  | changed {was value : Json} (h : ¬was.Agree value) :
    Says (some was) (some value) (some (diff was value))

/-- The patch between two objects says of each key what has become of it. -/
theorem says_diffObjects (old new : Object) (key : String) :
    Says (old.get? key) (new.get? key) ((diffObjects old new).get? key) := by
  rw [get?_diffObjects]
  cases old.get? key with
  | none =>
      cases new.get? key with
      | none => exact .alike rfl
      | some value => exact .added value
  | some was =>
      cases new.get? key with
      | none => exact .removed was
      | some value =>
          by_cases hAgree : was.Agree value
          · simp only [if_pos hAgree]
            exact .alike (congrArg some hAgree)
          · simp only [if_neg hAgree]
            exact .changed hAgree

/-- A patch says nothing of what agrees, and something of everything else. -/
theorem Says.eq_none_iff {old new change : Option Json} (h : Says old new change) :
    change = none ↔ old.map plain = new.map plain := by
  cases h with
  | alike hPlain => exact ⟨fun _ => hPlain, fun _ => rfl⟩
  | removed | added => exact ⟨nofun, nofun⟩
  | changed hAgree => exact ⟨nofun, fun hPlain => absurd (Option.some.inj hPlain) hAgree⟩

/-- Of a key that a patch mentions, a part of the patch says the same if it leads to what is to be
there. That this holds of the patches between values is `hInside`. -/
theorem Says.map_plain_of_subPatch {old new part : Option Json} {change : Json}
    (h : Says old new (some change))
    (hPart : ∀ value, part = some value → SubPatch value change)
    (hMerge : (patchMember part old).map plain = new.map plain)
    (hInside : ∀ after, new = some after → after ≠ .null ∧
      ∀ was value, SubPatch value (diff was after) → (merge was value).Agree after →
        value.Agree (diff was after)) :
    part.map plain = some change.plain := by
  cases part with
  | none => cases h.eq_none_iff.2 hMerge
  | some value =>
      refine congrArg some ?_
      have hSub := hPart value rfl
      have hLeads : ∀ after, new = some after → (merge (old.getD .null) value).Agree after := by
        rintro after rfl
        have hNull : value ≠ .null := by
          rintro rfl
          cases hMerge
        rw [patchMember_some hNull] at hMerge
        exact Option.some.inj hMerge
      cases h with
      | removed was => exact (subPatch_leaf_iff rfl).1 hSub
      | added =>
          -- Nothing is patched as null would be.
          obtain ⟨hNull, hDiffs⟩ := hInside change rfl
          have hDiff : diff .null change = change :=
            diff_eq_of_isObject_eq_false rfl fun h => hNull (plain_eq_null_iff.1 h.symm)
          rw [← hDiff] at hSub ⊢
          exact hDiffs .null value hSub (hLeads change rfl)
      | @changed was after =>
          exact (hInside after rfl).2 was value hSub (hLeads after rfl)

/-- No other part of a patch leads to a document without nulls. -/
theorem agree_of_subPatch {old new part : Json} (hNew : new.hasNull = false)
    (hPart : SubPatch part (diff old new)) (hMerge : (merge old part).Agree new) :
    part.Agree (diff old new) := by
  induction new using members_induction generalizing old part with
  | leaf new hLeaf =>
      rw [diff_of_new_isObject_eq_false _ hLeaf] at hPart ⊢
      by_cases hAgree : old.Agree new
      · rw [if_pos hAgree] at hPart ⊢
        exact hPart.agree_nil
      · rw [if_neg hAgree] at hPart ⊢
        exact (subPatch_leaf_iff hLeaf).1 hPart
  | object new ih =>
      rw [diff_object] at hPart ⊢
      obtain ⟨part, rfl, hKeys, hMembers⟩ := hPart.exists_members
      rw [merge_object, agree_object_iff] at hMerge
      rw [agree_object_iff]
      intro key
      cases hChange : (diffObjects old.members new).get? key with
      | none => rw [hKeys key hChange]
      | some change =>
          have hSays := says_diffObjects old.members new key
          rw [hChange] at hSays
          have hKey := hMerge key
          rw [get?_mergeMembers] at hKey
          refine hSays.map_plain_of_subPatch
            (fun value hGet => hMembers key value change hGet hChange) hKey fun after hAfter => ?_
          obtain ⟨hNull, hInside⟩ := hasNull_object_eq_false_iff.1 hNew key after hAfter
          exact ⟨hNull, fun _ _ hSub hLeads => ih key after hAfter hInside hSub hLeads⟩

/-- The value at a path of keys, which leads through objects only. -/
def memberAt? : (path : List String) → (document : Json) → Option Json
  | [], document => some document
  | key :: path, document => (document.members.get? key).bind (memberAt? path)

/-- Only the patch to an object has members. -/
theorem says_of_get?_diff {old new change : Json} {key : String}
    (h : (diff old new).members.get? key = some change) :
    Says (old.members.get? key) (new.members.get? key) (some change) := by
  cases hNew : new.isObject with
  | true =>
      rw [eq_object_of_isObject hNew, diff_object, members_object] at h
      exact h ▸ says_diffObjects old.members new.members key
  | false =>
      rw [diff_of_new_isObject_eq_false old hNew] at h
      split at h
      · cases h
      · rw [members_of_isObject_eq_false hNew] at h
        cases h

/-- What a patch mentions, at any depth, is different in the two documents. -/
theorem memberAt?_ne_of_memberAt?_diff {old new mentioned : Json} {key : String}
    {path : List String} (h : memberAt? (key :: path) (diff old new) = some mentioned) :
    (memberAt? (key :: path) old).map plain ≠ (memberAt? (key :: path) new).map plain := by
  obtain ⟨change, hChange, hRest⟩ := Option.bind_eq_some_iff.1 h
  have hSays := says_of_get?_diff hChange
  rw [memberAt?, memberAt?]
  generalize old.members.get? key = was, new.members.get? key = after at hSays
  induction path generalizing key old new change was after with
  | nil =>
      rw [show memberAt? [] = some from rfl, Option.bind_fun_some, Option.bind_fun_some]
      exact mt hSays.eq_none_iff.2 nofun
  | cons next path ih =>
      obtain ⟨inner, hInner, hBelow⟩ := Option.bind_eq_some_iff.1 hRest
      cases hSays with
      | removed => cases hInner
      | added =>
          rw [Option.bind_none, Option.bind_some, hRest]
          exact nofun
      | @changed was after =>
          rw [Option.bind_some, Option.bind_some]
          exact ih hRest inner hInner hBelow _ _ (says_of_get?_diff hInner)

/-- The patch between two documents leads from the one to the other, no other part of it does, and
whatever it mentions is different there. -/
structure Least (old new patch : Json) : Prop where
  leads : (merge old patch).Agree new
  agree : ∀ part, SubPatch part patch → (merge old part).Agree new → part.Agree patch
  differ : ∀ key path mentioned, memberAt? (key :: path) patch = some mentioned →
    (memberAt? (key :: path) old).map plain ≠ (memberAt? (key :: path) new).map plain

/-- From an object to an object without nulls there is nothing superfluous in the patch. -/
theorem least_diff_object (old : Object) {new : Object}
    (hNull : (Json.object new).hasNull = false) :
    Least (.object old) (.object new) (diff (.object old) (.object new)) where
  leads := merge_diff_object old hNull
  agree _ := agree_of_subPatch hNull
  differ _ _ _ := memberAt?_ne_of_memberAt?_diff

/-- One member of an inner object is removed, another one is added, a whole object goes and another
one comes with an empty object in it. -/
theorem least_diff_object_of_movedPlan :
    let inner (members : List (String × Json)) := Json.object (Object.ofList members)
    let old := inner [("a", inner [("x", .bool true), ("y", .null)]), ("b", inner [("x", .null)])]
    let new := inner [("a", inner [("x", .bool true), ("z", .array [.null])]),
      ("c", inner [("d", inner [])])]
    let patch := inner [("a", inner [("y", .null), ("z", .array [.null])]), ("b", .null),
      ("c", inner [("d", inner [])])]
    diff old new = patch ∧ Least old new patch := by
  intro inner old new patch
  have hDiff : diff old new = patch := by decide
  refine ⟨hDiff, ?_⟩
  rw [← hDiff]
  exact least_diff_object _ (by decide)

/-- Only the empty object is an empty patch. -/
theorem isEmptyPatch_iff {patch : Json} : isEmptyPatch patch = true ↔ patch = .object .nil :=
  decide_eq_true_iff

theorem isEmptyPatch_object_iff {patch : Object} :
    isEmptyPatch (.object patch) = true ↔ ∀ key, patch.get? key = none := by
  rw [isEmptyPatch_iff, Json.object.injEq]
  exact ⟨fun h key => h ▸ rfl, fun h => Members.ext h⟩

/-- A patch is empty between documents that agree, and from what is no object to the empty one. -/
theorem isEmptyPatch_diff_iff (old new : Json) :
    isEmptyPatch (diff old new) = true ↔
      old.Agree new ∨ old.isObject = false ∧ new = .object .nil := by
  cases hNew : new.isObject with
  | false =>
      have hEmpty : new ≠ .object .nil := by
        rintro rfl
        cases hNew
      rw [diff_of_new_isObject_eq_false old hNew]
      by_cases hAgree : old.Agree new
      · simp [hAgree, isEmptyPatch]
      · simp [hAgree, isEmptyPatch, hEmpty]
  | true =>
      obtain ⟨new, rfl⟩ : ∃ members, new = .object members := ⟨_, eq_object_of_isObject hNew⟩
      cases hOld : old.isObject with
      | true =>
          obtain ⟨old, rfl⟩ : ∃ members, old = .object members := ⟨_, eq_object_of_isObject hOld⟩
          rw [diff_object_object, isEmptyPatch_object_iff, agree_object_iff]
          simp only [(says_diffObjects old new _).eq_none_iff, Bool.true_eq_false, false_and,
            or_false]
      | false =>
          have hAgree : ¬old.Agree (.object new) := fun h => by
            rw [h.isObject_eq] at hOld
            cases hOld
          rw [diff_of_isObject_eq_false new hOld, isEmptyPatch_iff]
          simp [hAgree]

/-- What adds nothing where there is nothing, and leaves itself as it is, is not there. -/
theorem eq_none_of_patchMember {change : Option Json} (hFresh : patchMember change none = none)
    (hSelf : patchMember change change = change) : change = none := by
  cases change with
  | none => rfl
  | some value =>
      by_cases hNull : value = .null
      · subst hNull
        cases hSelf
      · rw [patchMember_some hNull] at hFresh
        cases hFresh

/-- The empty patch leaves every object as it is, and makes the empty object of everything else. No
other patch does that. -/
theorem isEmptyPatch_iff_merge (patch : Json) :
    isEmptyPatch patch = true ↔
      ∀ target, merge target patch = if target.isObject then target else .object .nil := by
  constructor
  · intro h target
    obtain rfl := isEmptyPatch_iff.1 h
    cases target <;> rfl
  · intro h
    have hFresh : merge .null patch = .object .nil := h .null
    cases hPatch : patch.isObject with
    | false =>
        rw [merge_of_isObject_eq_false _ hPatch] at hFresh
        exact isEmptyPatch_iff.2 hFresh
    | true =>
        obtain ⟨members, rfl⟩ : ∃ members, patch = .object members :=
          ⟨_, eq_object_of_isObject hPatch⟩
        have hSelf : merge (.object members) (.object members) = .object members :=
          h (.object members)
        refine isEmptyPatch_object_iff.2 fun key => eq_none_of_patchMember ?_ ?_
        · have hKey := get?_merge_object .null members key
          rwa [hFresh, eq_comm] at hKey
        · have hKey := get?_merge_object (.object members) members key
          rwa [hSelf, eq_comm] at hKey

/-- What it means that a patch is empty: for the documents that it was made for, and for those that
it is applied to. -/
theorem isEmptyPatch_diff_iff_and_iff_merge :
    (∀ old new : Json, isEmptyPatch (diff old new) = true ↔
        old.Agree new ∨ old.isObject = false ∧ new = .object .nil) ∧
      ∀ patch : Json, isEmptyPatch patch = true ↔
        ∀ target, merge target patch = if target.isObject then target else .object .nil :=
  ⟨isEmptyPatch_diff_iff, isEmptyPatch_iff_merge⟩

/-- The patch from a number to the empty object is empty, and makes that of the number. -/
theorem not_agree_of_isEmptyPatch :
    let one := Json.number (.integer 1)
    let empty := Json.object .nil
    isEmptyPatch (diff one empty) = true ∧ ¬one.Agree empty ∧
      isEmptyPatch empty = true ∧ merge one empty ≠ one := by
  decide

end Reconciliation.Json
