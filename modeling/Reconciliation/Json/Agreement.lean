import Reconciliation.Json.Members

/-!
Agreement of documents. Two documents agree if they are equal but for the signs of zeros. What is
patched and what is written back is decided by agreement, while a document keeps the signs it has.

`agree_object_iff` says that objects agree exactly if they do so under every key.
-/
namespace Reconciliation

mutual

/-- The document without the signs of zeros. -/
def Json.plain : Json → Json
  | .null => .null
  | .bool value => .bool value
  | .number value => .number value.plain
  | .string value => .string value
  | .array items => .array (Json.plainItems items)
  | .object members => .object members.plain

def Json.plainItems : List Json → List Json
  | [] => []
  | item :: rest => item.plain :: Json.plainItems rest

def Members.plain : {low : Option String} → Members low → Members low
  | _, .nil => .nil
  | _, .cons key after value rest => .cons key after value.plain rest.plain

end

namespace Json

mutual

@[simp] theorem plain_plain : (document : Json) → document.plain.plain = document.plain
  | .null | .bool _ | .string _ => rfl
  | .number value => by simp [plain]
  | .array items => by simp [plain, plainItems_plainItems items]
  | .object members => by simp [plain, plain_plainMembers members]

@[simp] theorem plainItems_plainItems : (items : List Json) →
    plainItems (plainItems items) = plainItems items
  | [] => rfl
  | item :: rest => by simp [plainItems, plain_plain item, plainItems_plainItems rest]

@[simp] theorem plain_plainMembers : {low : Option String} → (members : Members low) →
    members.plain.plain = members.plain
  | _, .nil => rfl
  | _, .cons key after value rest => by
    simp [Members.plain, plain_plain value, plain_plainMembers rest]

end

/-- Items are made plain one by one. -/
theorem plainItems_eq_map (items : List Json) : plainItems items = items.map plain := by
  induction items with
  | nil => rfl
  | cons item rest ih => rw [plainItems, ih, List.map_cons]

@[simp] theorem isObject_plain (document : Json) : document.plain.isObject = document.isObject := by
  cases document <;> rfl

@[simp] theorem members_plain (document : Json) :
    document.plain.members = document.members.plain := by
  cases document <;> rfl

end Json

namespace Members

variable {low : Option String}

@[simp] theorem get?_plain : {low : Option String} → (members : Members low) → (key : String) →
    members.plain.get? key = (members.get? key).map Json.plain
  | _, .nil, _ => rfl
  | _, .cons key' _ value rest, key => by
    simp only [plain, get?, get?_plain rest key]
    split <;> rfl

end Members

namespace Json

/-- Two documents agree if they are equal but for the signs of zeros. -/
def Agree (a b : Json) : Prop :=
  a.plain = b.plain

instance Agree.decidable (a b : Json) : Decidable (Agree a b) :=
  inferInstanceAs (Decidable (a.plain = b.plain))

@[refl] theorem Agree.refl (a : Json) : Agree a a :=
  rfl

@[symm] theorem Agree.symm {a b : Json} (h : Agree a b) : Agree b a :=
  Eq.symm h

theorem Agree.trans {a b c : Json} (h : Agree a b) (h' : Agree b c) : Agree a c :=
  Eq.trans h h'

/-- Objects agree if and only if they have the same keys, with values that agree. -/
theorem agree_object_iff {a b : Object} :
    Agree (.object a) (.object b) ↔
      ∀ key, (a.get? key).map plain = (b.get? key).map plain := by
  rw [Agree, plain, plain, Json.object.injEq, Members.ext_iff]
  simp

end Json

end Reconciliation
