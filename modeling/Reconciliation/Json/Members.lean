import Reconciliation.Json.Basic

/-!
The members of an object as a finite map from keys to documents. Each operation is described by what
it does to `get?`, and members that agree under `get?` are equal.
-/
namespace Reconciliation.Members

variable {low : Option String}

theorem lt_of_not_lt_of_ne {key key' : String} (h : ¬key < key') (hne : ¬key = key') :
    key' < key := by
  rcases String.le_total key' key with hle | hle
  · exact String.not_le.1 fun h' => hne (String.le_antisymm h' hle)
  · exact absurd (String.le_antisymm hle (String.not_lt.1 h)) hne

theorem after_trans {key key' : String} (h : After low key) (h' : key < key') : After low key' := by
  cases low with
  | none => trivial
  | some _ => exact String.lt_trans h h'

def get? (key : String) : {low : Option String} → Members low → Option Json
  | _, .nil => none
  | _, .cons key' _ value rest => if key = key' then some value else rest.get? key

def contains (key : String) (members : Members low) : Bool :=
  (members.get? key).isSome

/-- Members after one key are members after any earlier key. -/
def raise {key : String} (after : After low key) : Members (some key) → Members low
  | .nil => .nil
  | .cons key' after' value rest => .cons key' (after_trans after after') value rest

/-- Puts a value under a key, in place of the value that is there. -/
def put (key : String) (value : Json) :
    {low : Option String} → After low key → Members low → Members low
  | _, after, .nil => .cons key after value .nil
  | _, after, .cons key' after' value' rest =>
    if hlt : key < key' then .cons key after value (.cons key' hlt value' rest)
    else if heq : key = key' then .cons key' after' value rest
    else .cons key' after' value' (put key value (lt_of_not_lt_of_ne hlt heq) rest)

def erase (key : String) : {low : Option String} → Members low → Members low
  | _, .nil => .nil
  | _, .cons key' after value rest =>
    if key = key' then rest.raise after else .cons key' after value (rest.erase key)

def toList : {low : Option String} → Members low → List (String × Json)
  | _, .nil => []
  | _, .cons key _ value rest => (key, value) :: rest.toList

@[simp] theorem get?_nil (key : String) : (nil : Members low).get? key = none := rfl

/-- There is nothing under a key that is not after the bound. -/
theorem get?_eq_none_of_not_after {low : Option String} (members : Members low) {key : String}
    (h : ¬After low key) : members.get? key = none := by
  match members with
  | .nil => rfl
  | .cons key' after value rest =>
    have hne : key ≠ key' := fun e => h (e ▸ after)
    have hrest : ¬After (some key') key := fun h' => h (after_trans after h')
    simp only [get?, if_neg hne]
    exact get?_eq_none_of_not_after rest hrest

theorem get?_self_eq_none {key : String} (members : Members (some key)) : members.get? key = none :=
  get?_eq_none_of_not_after members (String.lt_irrefl key)

@[simp] theorem get?_raise {key key' : String} (after : After low key)
    (members : Members (some key)) : (members.raise after).get? key' = members.get? key' := by
  cases members <;> rfl

/-- Putting a value under a key changes what is there, and nothing else. -/
theorem get?_put {low : Option String} (key key' : String) (value : Json) (after : After low key)
    (members : Members low) :
    (members.put key value after).get? key' =
      if key' = key then some value else members.get? key' := by
  match members with
  | .nil => rfl
  | .cons key₁ after₁ value₁ rest =>
    unfold put
    split
    · rfl
    · split
      · rename_i _ heq
        subst heq
        simp only [get?]
        split <;> rfl
      · rename_i hlt hne
        have ih := get?_put key key' value
          (show After (some key₁) key from lt_of_not_lt_of_ne hlt hne) rest
        simp only [get?, ih]
        by_cases h : key' = key₁
        · subst h
          rw [if_pos rfl, if_neg (Ne.symm hne)]
          simp
        · rw [if_neg h, if_neg h]

/-- Erasing a key takes out what is there, and nothing else. -/
theorem get?_erase {low : Option String} (key key' : String) (members : Members low) :
    (members.erase key).get? key' = if key' = key then none else members.get? key' := by
  match members with
  | .nil => simp [erase]
  | .cons key₁ after₁ value₁ rest =>
    unfold erase
    split
    · rename_i heq
      subst heq
      rw [get?_raise]
      by_cases h : key' = key
      · subst h
        rw [if_pos rfl, get?_self_eq_none]
      · simp [get?, h]
    · rename_i hne
      simp only [get?, get?_erase key key' rest]
      by_cases h : key' = key₁
      · subst h
        rw [if_pos rfl, if_neg (Ne.symm hne)]
        simp
      · rw [if_neg h, if_neg h]

/-- Members that agree under every key are equal. -/
theorem ext {low : Option String} {a b : Members low} (h : ∀ key, a.get? key = b.get? key) :
    a = b := by
  match a, b with
  | .nil, .nil => rfl
  | .nil, .cons key _ value _ => simpa [get?] using h key
  | .cons key _ value _, .nil => simpa [get?] using h key
  | .cons key after value rest, .cons key' after' value' rest' =>
    have hkey : key = key' := by
      by_cases hlt : key < key'
      · have hnone : rest'.get? key = none :=
          get?_eq_none_of_not_after rest' fun h' => String.lt_asymm hlt h'
        have hk := h key
        by_cases heq : key = key'
        · exact heq
        · simp [get?, heq, hnone] at hk
      · by_cases heq : key = key'
        · exact heq
        · have hlt' := lt_of_not_lt_of_ne hlt heq
          have hnone : rest.get? key' = none :=
            get?_eq_none_of_not_after rest fun h' => String.lt_asymm hlt' h'
          have hk := h key'
          simp [get?, Ne.symm heq, hnone] at hk
    subst hkey
    have hvalue : value = value' := by simpa [get?] using h key
    have hrest : rest = rest' := by
      apply ext
      intro key₁
      by_cases heq : key₁ = key
      · subst heq
        rw [get?_self_eq_none, get?_self_eq_none]
      · simpa [get?, heq] using h key₁
    rw [hvalue, hrest]

/-- Members are equal if and only if they have the same under every key. -/
theorem ext_iff {a b : Members low} : a = b ↔ ∀ key, a.get? key = b.get? key :=
  ⟨fun h _ => h ▸ rfl, ext⟩

end Reconciliation.Members

namespace Reconciliation.Json.Object

/-- Puts a value under a key, in place of the value that is there. -/
def insert (key : String) (value : Json) (object : Object) : Object :=
  Members.put key value trivial object

/-- Puts a value under a key if there is one. -/
def insert? (key : String) (value : Option Json) (object : Object) : Object :=
  match value with
  | some value => object.insert key value
  | none => object

/-- The object with these members; of two members with one key the later one counts. -/
def ofList (pairs : List (String × Json)) : Object :=
  pairs.foldl (fun object pair => object.insert pair.1 pair.2) .nil

@[simp] theorem get?_insert (key key' : String) (value : Json) (object : Object) :
    (object.insert key value).get? key' = if key' = key then some value else object.get? key' :=
  Members.get?_put key key' value (show After none key from trivial) object

@[simp] theorem get?_insert? (key key' : String) (value : Option Json) (object : Object) :
    (object.insert? key value).get? key' =
      if key' = key then value.or (object.get? key') else object.get? key' := by
  cases value with
  | none => simp [insert?]
  | some value =>
    rw [insert?, get?_insert, Option.some_or]

end Reconciliation.Json.Object
