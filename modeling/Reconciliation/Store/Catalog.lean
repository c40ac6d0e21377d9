import Reconciliation.Resource.Metadata

namespace Reconciliation

/-- A finite map from keys to documents; of two entries with one key the first one counts. -/
structure Catalog where
  entries : List (Key × Json) := []
deriving DecidableEq, Inhabited

namespace Catalog

def get? (catalog : Catalog) (key : Key) : Option Json :=
  catalog.entries.lookup key

/-- Puts a document in place of the first entry with its key, else at the end. -/
def putIn (key : Key) (document : Json) : List (Key × Json) → List (Key × Json)
  | [] => [(key, document)]
  | entry :: rest =>
    if entry.1 = key then (key, document) :: rest else entry :: putIn key document rest

def put (key : Key) (document : Json) (catalog : Catalog) : Catalog :=
  ⟨putIn key document catalog.entries⟩

def drop (key : Key) (catalog : Catalog) : Catalog :=
  ⟨catalog.entries.filter fun entry => entry.1 ≠ key⟩

theorem lookup_putIn (key key' : Key) (document : Json) (entries : List (Key × Json)) :
    (putIn key document entries).lookup key' =
      if key' = key then some document else entries.lookup key' := by
  induction entries with
  | nil =>
    by_cases h : key' = key
    · simp [putIn, h]
    · have hbeq : (key' == key) = false := by simpa using h
      simp [putIn, List.lookup_cons, hbeq, h]
  | cons entry rest ih =>
    obtain ⟨key₁, document₁⟩ := entry
    by_cases h₁ : key₁ = key
    · subst h₁
      by_cases h : key' = key₁
      · simp [putIn, h]
      · have hbeq : (key' == key₁) = false := by simpa using h
        simp [putIn, List.lookup_cons, hbeq, h]
    · by_cases h : key' = key₁
      · subst h
        simp [putIn, h₁]
      · have hbeq : (key' == key₁) = false := by simpa using h
        simp [putIn, h₁, List.lookup_cons, hbeq, ih]

/-- Putting a document under a key changes what is there, and nothing else. -/
@[simp] theorem get?_put (key key' : Key) (document : Json) (catalog : Catalog) :
    (catalog.put key document).get? key' =
      if key' = key then some document else catalog.get? key' :=
  lookup_putIn key key' document catalog.entries

theorem lookup_filter (key key' : Key) (entries : List (Key × Json)) :
    (entries.filter fun entry => entry.1 ≠ key).lookup key' =
      if key' = key then none else entries.lookup key' := by
  induction entries with
  | nil => simp
  | cons entry rest ih =>
    obtain ⟨key₁, document₁⟩ := entry
    by_cases h₁ : key₁ = key
    · subst h₁
      by_cases h : key' = key₁
      · simpa [h] using ih
      · have hbeq : (key' == key₁) = false := by simpa using h
        simpa [h, List.lookup_cons, hbeq] using ih
    · by_cases h : key' = key₁
      · subst h
        simp [h₁]
      · have hbeq : (key' == key₁) = false := by simpa using h
        simpa [h₁, List.lookup_cons, hbeq] using ih

/-- Dropping a key takes out what is there, and nothing else. -/
@[simp] theorem get?_drop (key key' : Key) (catalog : Catalog) :
    (catalog.drop key).get? key' = if key' = key then none else catalog.get? key' :=
  lookup_filter key key' catalog.entries

end Catalog

end Reconciliation
