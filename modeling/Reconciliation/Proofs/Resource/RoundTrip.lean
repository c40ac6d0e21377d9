import Reconciliation.Proofs.Resource.Reading

/-!
Standings and metadata that stand on their own, read back as they were written. Reading them
normalizes once and for all: what is read from any document is read again from the document written
for it.

The rigor makes no difference for what was written, since a status is written as a word, and what is
read strictly is read leniently as well. So both follow from the fields of the lenient form.
-/
namespace Reconciliation

/-- Whatever one reader gives, another one gives as well. -/
def ReadsAsMuch {α : Type} (read read' : Json → Except ReadError α) : Prop :=
  ∀ ⦃document value⦄, read document = .ok value → read' document = .ok value

namespace ReadsAsMuch

variable {α : Type} {read read' : Json → Except ReadError α}

theorem ifPresent (h : ReadsAsMuch read read') {document : Option Json} {value : Option α}
    (hRead : Json.ifPresent read document = .ok value) :
    Json.ifPresent read' document = .ok value := by
  cases document with
  | none => exact hRead
  | some document =>
      obtain ⟨inner, hInner, hValue⟩ := Except.map_eq_ok_iff.1 hRead
      exact Except.map_eq_ok_iff.2 ⟨inner, h hInner, hValue⟩

theorem requireItem (h : ReadsAsMuch read read') {items : List Json} {index : Nat}
    {expected : String} {value : α}
    (hRead : Json.requireItem items index expected read = .ok value) :
    Json.requireItem items index expected read' = .ok value := by
  unfold Json.requireItem at hRead ⊢
  cases hItem : items[index]? with
  | none => simp [hItem] at hRead
  | some document =>
      rw [hItem] at hRead
      exact h hRead

theorem asList (h : ReadsAsMuch read read') : ReadsAsMuch (Json.asList read) (Json.asList read') := by
  intro document values hRead
  cases document with
  | array items =>
      rw [Json.asList] at hRead ⊢
      induction items generalizing values with
      | nil => exact hRead
      | cons document documents ih =>
          simp only [List.mapM_cons, Except.bind_eq_ok_iff, Except.pure_eq_ok_iff] at hRead ⊢
          obtain ⟨head, hHead, rest, hRest, hValues⟩ := hRead
          exact ⟨head, h hHead, rest, ih hRest, hValues⟩
  | _ => cases hRead

end ReadsAsMuch

/-- What stands for nothing strictly does so leniently. -/
theorem Rigor.isNothing_lenient {rigor : Rigor} {document : Json}
    (h : rigor.isNothing document = true) : Rigor.lenient.isNothing document = true := by
  match rigor, document with
  | .lenient, _ => exact h
  | .strict, .null => rfl
  | .strict, .bool _ | .strict, .number _ | .strict, .string _ | .strict, .array _
  | .strict, .object _ => simp [isNothing] at h

namespace Verity

/-- Leniently everything is read that is read strictly. -/
theorem readsAsMuch_lenient (rigor : Rigor) : ReadsAsMuch (ofJson rigor) (ofJson .lenient) := by
  intro document verity h
  match document with
  | .object (.cons word _ inner .nil) =>
      simp only [ofJson, Except.bind_eq_ok_iff] at h ⊢
      obtain ⟨found, hFound, hRest⟩ := h
      refine ⟨found, hFound, ?_⟩
      by_cases hNothing : rigor.isNothing inner = true
      · rw [if_pos (Rigor.isNothing_lenient hNothing)]
        rwa [if_pos hNothing] at hRest
      · rw [if_neg hNothing] at hRest
        cases hRest
  | .string _ => exact h
  | .object .nil | .object (.cons _ _ _ (.cons ..)) => cases h
  | .null | .bool _ | .number _ | .array _ => cases h

end Verity

namespace Condition

/-- The same holds of conditions. -/
theorem readsAsMuch_lenient (rigor : Rigor) : ReadsAsMuch (ofJson rigor) (ofJson .lenient) := by
  have hVerity := Verity.readsAsMuch_lenient rigor
  intro document condition h
  cases document with
  | object object =>
      simp only [ofJson, ofObject, Except.bind_eq_ok_iff] at h ⊢
      obtain ⟨since, hSince, message, hMessage, generation, hGeneration, reason, hReason,
        status, hStatus, hRest⟩ := h
      exact ⟨since, hSince, message, hMessage, generation, hGeneration, reason, hReason,
        status, hVerity.ifPresent hStatus, hRest⟩
  | array items =>
      simp only [ofJson, ofItems, Except.bind_eq_ok_iff] at h ⊢
      obtain ⟨type, hType, status, hStatus, reason, hReason, message, hMessage, since, hSince,
        generation, hGeneration, _, hCount, hCondition⟩ := h
      -- Only the words for too many items depend on the rigor.
      have hCount : Json.atMost 6 (Rigor.lenient.excess 6) items = .ok () :=
        atMost_eq_ok_iff.2 (atMost_eq_ok_iff.1 hCount)
      exact ⟨type, hType, status, hVerity.requireItem hStatus, reason, hReason, message, hMessage,
        since, hSince, generation, hGeneration, (), hCount, hCondition⟩
  | _ => cases h

/-- The status of a written condition is a word, so the rigor of reading does not matter. -/
theorem ofJson_toJson_eq_lenient (rigor : Rigor) (condition : Condition) :
    ofJson rigor condition.toJson = ofJson .lenient condition.toJson := by
  obtain ⟨-, hStatus, -⟩ := condition.get?_toObject
  have hWord : Json.ifPresent (Verity.ofJson rigor) (condition.toObject.get? "status") =
      Json.ifPresent (Verity.ofJson .lenient) (condition.toObject.get? "status") := by
    rw [hStatus]
    rfl
  rw [toJson, ofJson, ofJson, ofObject, ofObject, hWord]

end Condition

namespace Standing

theorem ofFields_lenient_of_ofFields {rigor : Rigor} {conditions phase : Option Json}
    {standing : Standing} (h : ofFields rigor conditions phase = .ok standing) :
    ofFields .lenient conditions phase = .ok standing := by
  have hList : ReadsAsMuch (readConditions rigor) (readConditions .lenient) :=
    (Condition.readsAsMuch_lenient rigor).asList
  simp only [ofFields, Except.bind_eq_ok_iff] at h ⊢
  obtain ⟨conditions, hConditions, hRest⟩ := h
  exact ⟨conditions, hList.ifPresent hConditions, hRest⟩

theorem sound_of_ofFields {rigor : Rigor} {conditions phase : Option Json} {standing : Standing}
    (h : ofFields rigor conditions phase = .ok standing) : standing.Sound :=
  conditionsField.sound_of_read (ofFields_eq_ok_iff.1 (ofFields_lenient_of_ofFields h)).1

/-- A standing that is read is sound. -/
theorem sound_of_ofJson {rigor : Rigor} {document : Json} {standing : Standing}
    (h : ofJson rigor document = .ok standing) : standing.Sound := by
  cases document with
  | object object => exact sound_of_ofFields h
  | array items =>
      simp only [ofJson, Except.bind_eq_ok_iff, Except.pure_eq_ok_iff] at h
      obtain ⟨_, hFields, -, -, rfl⟩ := h
      exact sound_of_ofFields hFields
  | _ => cases h

theorem ofJson_toJson_eq_lenient (rigor : Rigor) (standing : Standing) :
    ofJson rigor standing.toJson = ofJson .lenient standing.toJson := by
  have hItems (conditions : List Condition) :
      (conditions.map Condition.toJson).mapM (Condition.ofJson rigor) =
        (conditions.map Condition.toJson).mapM (Condition.ofJson .lenient) := by
    induction conditions with
    | nil => rfl
    | cons condition conditions ih =>
        simp only [List.map_cons, List.mapM_cons, condition.ofJson_toJson_eq_lenient rigor, ih]
  have hConditions : Json.ifPresent (readConditions rigor) (standing.toObject.get? "conditions") =
      Json.ifPresent (readConditions .lenient) (standing.toObject.get? "conditions") := by
    have hWritten : conditionsField.write standing.conditions =
        if standing.conditions.isEmpty then none
        else some (.array (standing.conditions.map Condition.toJson)) := rfl
    rw [get?_toObject, if_pos rfl, hWritten]
    split
    · rfl
    · exact congrArg (Except.map some) (hItems standing.conditions)
  rw [toJson, ofJson, ofJson, ofObject, ofObject, ofFields, ofFields, hConditions]

/-- A sound standing is read back, with either rigor. -/
theorem ofJson_toJson_of_sound {standing : Standing} (h : standing.Sound) (rigor : Rigor) :
    ofJson rigor standing.toJson = .ok standing := by
  rw [ofJson_toJson_eq_lenient, toJson, ofJson, ofObject_eq_ok_iff, get?_toObject, get?_toObject,
    if_pos rfl, if_neg (by decide), if_pos rfl]
  exact ⟨conditionsField.read_write h, phaseField.read_write fun _ => trivial⟩

end Standing

namespace Metadata

theorem sound_of_ofJson {document : Json} {metadata : Metadata}
    (h : ofJson document = .ok metadata) : metadata.Sound := by
  cases document with
  | object object => exact (ofObject_eq_ok_iff.1 h).sound
  | array items =>
      simp only [ofJson, ofItems, Except.bind_eq_ok_iff, Except.pure_eq_ok_iff] at h
      obtain ⟨_, -, _, -, _, -, _, -, _, -, deletion, hDeletion, _, -, rfl⟩ := h
      exact deletionField.sound_of_read (Except.map_eq_ok_iff.2 ⟨deletion, hDeletion, rfl⟩)
  | _ => cases h

/-- Sound metadata are read back. -/
theorem ofJson_toJson_of_sound {metadata : Metadata} (h : metadata.Sound) :
    ofJson metadata.toJson = .ok metadata :=
  ofObject_eq_ok_iff.2 (readFrom_toObject h)

end Metadata

/-- The year of an instant is one of those that instants can have. -/
def Timestamp.InCalendar (t : Timestamp) : Prop :=
  -262143 ≤ t.date.year ∧ t.date.year ≤ 262142

/-- The instants of the calendar are those that can be read back. -/
theorem Timestamp.inCalendar_iff_sound {t : Timestamp} : t.InCalendar ↔ Codec.timestamp.Sound t :=
  Rfc3339.seconds_mem_iff_year.symm

/-- All conditions changed in the years of the calendar. -/
def Standing.InCalendar (standing : Standing) : Prop :=
  ∀ condition ∈ standing.conditions, ∀ t ∈ condition.since, t.InCalendar

/-- The deletion was asked for in a year of the calendar. -/
def Metadata.InCalendar (metadata : Metadata) : Prop :=
  ∀ t ∈ metadata.deletion, t.InCalendar

theorem Standing.InCalendar.sound {standing : Standing} (h : standing.InCalendar) :
    standing.Sound :=
  fun _ condition hMem t hSince => Timestamp.inCalendar_iff_sound.1 (h condition hMem t hSince)

theorem Metadata.InCalendar.sound {metadata : Metadata} (h : metadata.InCalendar) :
    metadata.Sound :=
  fun t hDeletion => Timestamp.inCalendar_iff_sound.1 (h t hDeletion)

/-- Reading gives back what was written, and reading what was written for a value that has been read
gives this value. -/
structure RoundTrips {α : Type} (read : Json → Except ReadError α) (write : α → Json)
    (Writable : α → Prop) : Prop where
  read_write : ∀ value, Writable value → read (write value) = .ok value
  normalizes : ∀ document value, read document = .ok value → read (write value) = .ok value

/-- What a document leaves out is restored, and no form of a document is lost on a second reading,
for standings read with either rigor and for metadata. -/
theorem standing_and_metadata_roundTrip :
    (∀ rigor, RoundTrips (Standing.ofJson rigor) Standing.toJson Standing.InCalendar) ∧
      RoundTrips Metadata.ofJson Metadata.toJson Metadata.InCalendar := by
  constructor
  · intro rigor
    exact {
      read_write := fun _ h => Standing.ofJson_toJson_of_sound h.sound rigor
      normalizes := fun _ _ h => Standing.ofJson_toJson_of_sound (Standing.sound_of_ofJson h) rigor }
  · exact {
      read_write := fun _ h => Metadata.ofJson_toJson_of_sound h.sound
      normalizes := fun _ _ h => Metadata.ofJson_toJson_of_sound (Metadata.sound_of_ofJson h) }

end Reconciliation
