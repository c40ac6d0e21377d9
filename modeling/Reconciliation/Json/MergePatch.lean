import Reconciliation.Json.Agreement

/-!
Merge patches. A patch that is an object describes changes member by member: `null` removes a member
and anything else is merged into it. Any other patch replaces the document. `diff` computes a patch
that leads from one document to another, and `merge` applies one. Arrays are replaced as a whole.

`get?_mergeMembers` and `get?_diffObjects` say what becomes of each member. `Agree.merge` and
`Agree.diff` say that both respect agreement.
-/
namespace Reconciliation.Json

mutual

/-- Applies a patch to a document. A target that is no object counts as an empty one. -/
def merge (target : Json) : (patch : Json) → Json
  | .object patch => .object (mergeMembers target.members patch)
  | patch => patch

def mergeMembers (target : Object) : {low : Option String} → (patch : Members low) → Object
  | _, .nil => target
  | _, .cons key _ value rest =>
    let target' :=
      if value = .null then target.erase key
      else target.insert key (merge ((target.get? key).getD .null) value)
    mergeMembers target' rest

end

/-- The patch that removes those members of `old` that `new` does not have. -/
def removals (new : Object) : {low : Option String} → (old : Members low) → Object
  | _, .nil => .nil
  | _, .cons key _ _ rest =>
    let patch := removals new rest
    if new.contains key then patch else patch.insert key .null

mutual

/-- The patch that leads from `old` to `new`: what agrees with its counterpart is left out, members
that vanish become `null`, and objects are compared member by member. -/
def diff (old : Json) : (new : Json) → Json
  | .object new =>
    match old with
    | .object old => .object (diffMembers old (removals new old) new)
    | _ => .object new
  | new => if old.Agree new then .object .nil else new

/-- Adds to `patch` the changes that lead from the members of `old` to those of `new`. -/
def diffMembers (old patch : Object) : {low : Option String} → (new : Members low) → Object
  | _, .nil => patch
  | _, .cons key _ value rest =>
    let patch' :=
      match old.get? key with
      | none => patch.insert key value
      | some was => if was.Agree value then patch else patch.insert key (diff was value)
    diffMembers old patch' rest

end

def isEmptyPatch (patch : Json) : Bool :=
  decide (patch = .object .nil)

@[simp] theorem merge_object (target : Json) (patch : Object) :
    merge target (.object patch) = .object (mergeMembers target.members patch) := by
  rw [merge]

/-- A patch that is no object takes the place of the document. -/
theorem merge_of_isObject_eq_false (target : Json) {patch : Json} (h : patch.isObject = false) :
    merge target patch = patch := by
  cases patch <;> simp_all [merge, isObject]

/-- What a patch makes of the member under one key. -/
theorem get?_mergeMembers {low : Option String} (target : Object) (patch : Members low)
    (key : String) :
    (mergeMembers target patch).get? key =
      match patch.get? key with
      | none => target.get? key
      | some .null => none
      | some value => some (merge ((target.get? key).getD .null) value) := by
  match patch with
  | .nil => simp [mergeMembers]
  | .cons key' after value rest =>
    rw [mergeMembers, get?_mergeMembers _ rest key]
    by_cases h : key = key'
    · subst h
      rw [Members.get?_self_eq_none rest]
      by_cases hnull : value = .null
      · subst hnull
        simp [Members.get?, Members.get?_erase]
      · rw [if_neg hnull]
        simp only [Members.get?, if_pos, Object.get?_insert]
    · have hget : (Members.cons key' after value rest).get? key = rest.get? key := by
        simp [Members.get?, h]
      rw [hget]
      by_cases hnull : value = .null <;> simp [hnull, Members.get?_erase, h]

/-- Null stands under the keys that are there no more. -/
theorem get?_removals {low : Option String} (new : Object) (old : Members low) (key : String) :
    (removals new old).get? key =
      if (old.get? key).isSome ∧ new.get? key = none then some .null else none := by
  match old with
  | .nil => simp [removals]
  | .cons key' after value rest =>
    have ih := get?_removals new rest key
    rw [removals]
    by_cases h : key = key'
    · subst h
      rw [Members.get?_self_eq_none] at ih
      by_cases hm : new.contains key = true
      · have : new.get? key ≠ none := by
          simpa [Members.contains, Option.isSome_iff_ne_none] using hm
        simp [hm, ih, this]
      · have : new.get? key = none := by
          simpa [Members.contains] using hm
        simp [hm, Members.get?, this]
    · have hget : (Members.cons key' after value rest).get? key = rest.get? key := by
        simp [Members.get?, h]
      rw [hget, ← ih]
      by_cases hm : new.contains key' = true <;> simp [hm, h]

/-- What is new or different is patched, and what agrees is let alone. -/
theorem get?_diffMembers {low : Option String} (old patch : Object) (new : Members low)
    (key : String) :
    (diffMembers old patch new).get? key =
      match new.get? key with
      | none => patch.get? key
      | some value =>
        match old.get? key with
        | none => some value
        | some was => if was.Agree value then patch.get? key else some (diff was value) := by
  match new with
  | .nil => simp [diffMembers]
  | .cons key' after value rest =>
    rw [diffMembers, get?_diffMembers _ _ rest key]
    by_cases h : key = key'
    · subst h
      rw [Members.get?_self_eq_none rest]
      simp only [Members.get?, if_pos]
      cases hget : old.get? key with
      | none => simp
      | some was => by_cases heq : was.Agree value <;> simp [heq]
    · have hget : (Members.cons key' after value rest).get? key = rest.get? key := by
        simp [Members.get?, h]
      have hpatch : (match old.get? key' with
          | none => patch.insert key' value
          | some was =>
            if was.Agree value then patch else patch.insert key' (diff was value)).get? key =
          patch.get? key := by
        cases old.get? key' with
        | none => simp [h]
        | some was => by_cases heq : was.Agree value <;> simp [heq, h]
      rw [hget, hpatch]

/-- The patch between two objects, member by member. -/
def diffObjects (old new : Object) : Object :=
  diffMembers old (removals new old) new

@[simp] theorem diff_object_object (old new : Object) :
    diff (.object old) (.object new) = .object (diffObjects old new) := by
  rw [diff]; rfl

theorem diff_of_isObject_eq_false {old : Json} (new : Object) (h : old.isObject = false) :
    diff old (.object new) = .object new := by
  cases old <;> simp_all [diff, isObject]

theorem diff_of_new_isObject_eq_false (old : Json) {new : Json} (h : new.isObject = false) :
    diff old new = if old.Agree new then .object .nil else new := by
  cases new <;> simp_all [diff, isObject]

/-- What the patch between two objects says of the member under one key. -/
theorem get?_diffObjects (old new : Object) (key : String) :
    (diffObjects old new).get? key =
      match old.get? key, new.get? key with
      | none, none => none
      | some _, none => some .null
      | none, some value => some value
      | some was, some value => if was.Agree value then none else some (diff was value) := by
  rw [diffObjects, get?_diffMembers, get?_removals]
  cases ho : old.get? key <;> cases hm : new.get? key <;> simp

mutual

/-- Induction over documents with the members of an object in view. -/
theorem members_induction {motive : Json → Prop}
    (leaf : ∀ document : Json, document.isObject = false → motive document)
    (object : ∀ o : Object, (∀ key value, o.get? key = some value → motive value) →
      motive (.object o)) :
    (document : Json) → motive document
  | .null => leaf _ rfl
  | .bool _ => leaf _ rfl
  | .number _ => leaf _ rfl
  | .string _ => leaf _ rfl
  | .array _ => leaf _ rfl
  | .object o => object o (members_induction_get? leaf object o)

/-- What holds of all documents by induction holds of the values of members. -/
theorem members_induction_get? {motive : Json → Prop}
    (leaf : ∀ document : Json, document.isObject = false → motive document)
    (object : ∀ o : Object, (∀ key value, o.get? key = some value → motive value) →
      motive (.object o)) :
    {low : Option String} → (members : Members low) →
      ∀ key value, members.get? key = some value → motive value
  | _, .nil => fun _ _ h => by simp at h
  | _, .cons key' _ value' rest => fun key value h => by
    simp only [Members.get?] at h
    split at h
    · obtain rfl := Option.some.inj h
      exact members_induction leaf object value'
    · exact members_induction_get? leaf object rest key value h

end

theorem plain_eq_null_iff {document : Json} : document.plain = .null ↔ document = .null := by
  cases document <;> simp [plain]

theorem agree_plain_iff {a b : Json} : a.plain.Agree b.plain ↔ a.Agree b := by
  simp [Agree]

/-- The signs of zeros make no difference to where a patch leads, apart from themselves. -/
theorem plain_merge (target patch : Json) :
    (merge target patch).plain = merge target.plain patch.plain := by
  induction patch using members_induction generalizing target with
  | leaf patch h =>
    rw [merge_of_isObject_eq_false _ h, merge_of_isObject_eq_false _ (by simpa using h)]
  | object patch ih =>
    rw [merge_object, plain, plain, merge_object, members_plain]
    congr 1
    apply Members.ext
    intro key
    rw [Members.get?_plain, get?_mergeMembers, get?_mergeMembers, Members.get?_plain,
      Members.get?_plain]
    cases hget : patch.get? key with
    | none => rfl
    | some value =>
      by_cases hnull : value = .null
      · subst hnull
        rfl
      · have hplain : value.plain ≠ .null := mt plain_eq_null_iff.1 hnull
        simp only [Option.map_some]
        rw [ih key value hget]
        cases target.members.get? key <;> simp [plain]

/-- They make none to the patch between two documents either. -/
theorem plain_diff (old new : Json) : (diff old new).plain = diff old.plain new.plain := by
  induction new using members_induction generalizing old with
  | leaf new h =>
    rw [diff_of_new_isObject_eq_false _ h, diff_of_new_isObject_eq_false _ (by simpa using h)]
    simp only [agree_plain_iff]
    split <;> rfl
  | object new ih =>
    cases hold : old.isObject with
    | false =>
      rw [diff_of_isObject_eq_false _ hold, plain,
        diff_of_isObject_eq_false _ (by simpa using hold)]
    | true =>
      obtain ⟨old, rfl⟩ : ∃ o, old = .object o := by
        cases old <;> simp_all [isObject]
      rw [diff_object_object, plain, plain, plain, diff_object_object]
      congr 1
      apply Members.ext
      intro key
      rw [Members.get?_plain, get?_diffObjects, get?_diffObjects, Members.get?_plain,
        Members.get?_plain]
      cases hnew : new.get? key with
      | none => cases old.get? key <;> rfl
      | some value =>
        cases old.get? key with
        | none => rfl
        | some was =>
          simp only [Option.map_some, agree_plain_iff]
          by_cases hagree : was.Agree value
          · simp [hagree]
          · simp [hagree, ih key value hnew]

theorem Agree.merge {target target' patch patch' : Json} (htarget : target.Agree target')
    (hpatch : patch.Agree patch') : (merge target patch).Agree (merge target' patch') := by
  rw [Agree] at *
  rw [plain_merge, plain_merge, htarget, hpatch]

theorem Agree.diff {old old' new new' : Json} (hold : old.Agree old') (hnew : new.Agree new') :
    (diff old new).Agree (diff old' new') := by
  rw [Agree] at *
  rw [plain_diff, plain_diff, hold, hnew]

end Reconciliation.Json
