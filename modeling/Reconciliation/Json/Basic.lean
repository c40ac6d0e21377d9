import Reconciliation.Json.Number

/-!
Documents. The members of an object stand in ascending order of their keys, and the type admits no
other order and no repeated key, so two documents are equal exactly if they have the same content.
-/
namespace Reconciliation

/-- `After low key` says that a member with this key may follow a member with key `low`. The first
member of an object may have any key. -/
def After : Option String → String → Prop
  | none, _ => True
  | some low, key => low < key

instance After.decidable : (low : Option String) → (key : String) → Decidable (After low key)
  | none, _ => isTrue trivial
  | some low, key => inferInstanceAs (Decidable (low < key))

mutual

/-- A document. -/
inductive Json where
  | null
  | bool (value : Bool)
  | number (value : Number)
  | string (value : String)
  | array (items : List Json)
  | object (members : Members none)

/-- Members of an object in ascending order of their keys, all of them after the key `low`. -/
inductive Members : Option String → Type where
  | nil {low : Option String} : Members low
  | cons {low : Option String} (key : String) (after : After low key) (value : Json)
      (rest : Members (some key)) : Members low

end

instance Json.inhabited : Inhabited Json := ⟨.null⟩

instance Members.inhabited {low : Option String} : Inhabited (Members low) := ⟨.nil⟩

namespace Json

/-- The content of an object. -/
abbrev Object := Members none

mutual

def decEq : (a b : Json) → Decidable (a = b)
  | .null, b => by
    cases b
    case null => exact isTrue rfl
    all_goals exact isFalse nofun
  | .bool x, b => by
    cases b
    case bool y => exact decidable_of_iff (x = y) (by simp)
    all_goals exact isFalse nofun
  | .number x, b => by
    cases b
    case number y => exact decidable_of_iff (x = y) (by simp)
    all_goals exact isFalse nofun
  | .string x, b => by
    cases b
    case string y => exact decidable_of_iff (x = y) (by simp)
    all_goals exact isFalse nofun
  | .array x, b => by
    cases b
    case array y => exact @decidable_of_iff _ (x = y) (by simp) (decEqItems x y)
    all_goals exact isFalse nofun
  | .object x, b => by
    cases b
    case object y => exact @decidable_of_iff _ (x = y) (by simp) (decEqMembers x y)
    all_goals exact isFalse nofun

def decEqItems : (a b : List Json) → Decidable (a = b)
  | [], [] => isTrue rfl
  | [], _ :: _ => isFalse nofun
  | _ :: _, [] => isFalse nofun
  | x :: xs, y :: ys =>
    match decEq x y, decEqItems xs ys with
    | isTrue h, isTrue h' => isTrue (by rw [h, h'])
    | isFalse h, _ => isFalse (by simp [h])
    | _, isFalse h => isFalse (by simp [h])

def decEqMembers : {low : Option String} → (a b : Members low) → Decidable (a = b)
  | _, .nil, .nil => isTrue rfl
  | _, .nil, .cons .. => isFalse nofun
  | _, .cons .., .nil => isFalse nofun
  | _, .cons key _ value rest, .cons key' _ value' rest' =>
    if h : key = key' then by
      subst h
      exact match decEq value value', decEqMembers rest rest' with
        | isTrue h, isTrue h' => isTrue (by rw [h, h'])
        | isFalse h, _ => isFalse (by simp [h])
        | _, isFalse h => isFalse (by simp [h])
    else isFalse (by simp [h])

end

instance decidableEq : DecidableEq Json := decEq

instance decidableEqMembers {low : Option String} : DecidableEq (Members low) := decEqMembers

/-- The members of an object; other documents have none. -/
def members : Json → Object
  | .object members => members
  | _ => .nil

def isObject : Json → Bool
  | .object _ => true
  | _ => false

@[simp] theorem members_object (o : Object) : (Json.object o).members = o := rfl

theorem members_of_isObject_eq_false {document : Json} (h : document.isObject = false) :
    document.members = .nil := by
  cases document <;> simp_all [isObject, members]

theorem eq_object_of_isObject {document : Json} (h : document.isObject = true) :
    document = .object document.members := by
  cases document <;> simp_all [isObject, members]

end Json

end Reconciliation
