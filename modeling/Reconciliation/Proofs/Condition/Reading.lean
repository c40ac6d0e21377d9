import Reconciliation.Proofs.Json.Codec

namespace Reconciliation

namespace Condition

def typeField : Field String := .required .text "type"

def statusField : Field Verity := .required .verity "status"

def reasonField : Field String := .required .text "reason"

def messageField : Field String := .withDefault .text "" trivial (fun _ => false) nofun

def sinceField : Field (Option Timestamp) := .optional .timestamp

def generationField : Field (Option Int64) := .optional .int64

/-- The documents that may stand for the fields of a condition, and the condition. -/
structure ReadFrom (type status reason message since generation : Option Json)
    (condition : Condition) : Prop where
  type : typeField.read type = .ok condition.type
  status : statusField.read status = .ok condition.status
  reason : reasonField.read reason = .ok condition.reason
  message : messageField.read message = .ok condition.message
  since : sinceField.read since = .ok condition.since
  generation : generationField.read generation = .ok condition.generation

/-- A condition is read from an object if and only if each of its fields is read. -/
theorem ofObject_eq_ok_iff {object : Json.Object} {condition : Condition} :
    ofObject .lenient object = .ok condition ↔
      ReadFrom (object.get? "type") (object.get? "status") (object.get? "reason")
        (object.get? "message") (object.get? "lastTransitionTime")
        (object.get? "observedGeneration") condition := by
  constructor
  · intro h
    simp only [ofObject, Except.bind_eq_ok_iff, Except.pure_eq_ok_iff] at h
    obtain ⟨since, hSince, message, hMessage, generation, hGeneration, reason, hReason,
      status, hStatus, type, hType, type', hType', status', hStatus', reason', hReason', rfl⟩ := h
    exact {
      type := Except.bind_eq_ok_iff.2 ⟨type, hType, hType'⟩
      status := Except.bind_eq_ok_iff.2 ⟨status, hStatus, hStatus'⟩
      reason := Except.bind_eq_ok_iff.2 ⟨reason, hReason, hReason'⟩
      message := Except.map_eq_ok_iff.2 ⟨message, hMessage, rfl⟩
      since := Except.map_eq_ok_iff.2 ⟨since, hSince, rfl⟩
      generation := Except.map_eq_ok_iff.2 ⟨generation, hGeneration, rfl⟩ }
  · intro h
    obtain ⟨type, hType, hType'⟩ := Except.bind_eq_ok_iff.1 h.type
    obtain ⟨status, hStatus, hStatus'⟩ := Except.bind_eq_ok_iff.1 h.status
    obtain ⟨reason, hReason, hReason'⟩ := Except.bind_eq_ok_iff.1 h.reason
    obtain ⟨message, hMessage, hMessage'⟩ := Except.map_eq_ok_iff.1 h.message
    obtain ⟨since, hSince, hSince'⟩ := Except.map_eq_ok_iff.1 h.since
    obtain ⟨generation, hGeneration, hGeneration'⟩ := Except.map_eq_ok_iff.1 h.generation
    simp only [ofObject, Except.bind_eq_ok_iff, Except.pure_eq_ok_iff]
    refine ⟨since, hSince, message, hMessage, generation, hGeneration, reason, hReason,
      status, hStatus, type, hType, _, hType', _, hStatus', _, hReason', ?_⟩
    rw [hMessage', hSince', hGeneration']

theorem requireItem_eq_ok_iff {α : Type} (codec : Codec α) {items : List Json} {index : Nat}
    {expected name : String} {value : α} :
    Json.requireItem items index expected codec.read = .ok value ↔
      (Field.required codec name).read items[index]? = .ok value := by
  refine Iff.trans ?_ Field.requireField_ifPresent_eq_ok_iff.symm
  cases h : items[index]? <;> simp [Json.requireItem, h]

theorem atMost_eq_ok_iff {count : Nat} {expected : String} {items : List Json} :
    Json.atMost count expected items = .ok () ↔ items.length ≤ count := by
  unfold Json.atMost
  split <;> simp_all

/-- A condition is read from an array if and only if each of its fields is read, and nothing comes
after them. -/
theorem ofItems_eq_ok_iff {items : List Json} {condition : Condition} :
    ofItems .lenient items = .ok condition ↔
      ReadFrom items[0]? items[1]? items[2]? items[3]? items[4]? items[5]? condition ∧
        items.length ≤ 6 := by
  constructor
  · intro h
    simp only [ofItems, Except.bind_eq_ok_iff, Except.pure_eq_ok_iff] at h
    obtain ⟨type, hType, status, hStatus, reason, hReason, message, hMessage, since, hSince,
      generation, hGeneration, _, hCount, rfl⟩ := h
    refine ⟨?_, atMost_eq_ok_iff.1 hCount⟩
    exact {
      type := (requireItem_eq_ok_iff .text).1 hType
      status := (requireItem_eq_ok_iff .verity).1 hStatus
      reason := (requireItem_eq_ok_iff .text).1 hReason
      message := Except.map_eq_ok_iff.2 ⟨message, hMessage, rfl⟩
      since := Except.map_eq_ok_iff.2 ⟨since, hSince, rfl⟩
      generation := Except.map_eq_ok_iff.2 ⟨generation, hGeneration, rfl⟩ }
  · rintro ⟨h, hCount⟩
    obtain ⟨message, hMessage, hMessage'⟩ := Except.map_eq_ok_iff.1 h.message
    obtain ⟨since, hSince, hSince'⟩ := Except.map_eq_ok_iff.1 h.since
    obtain ⟨generation, hGeneration, hGeneration'⟩ := Except.map_eq_ok_iff.1 h.generation
    simp only [ofItems, Except.bind_eq_ok_iff, Except.pure_eq_ok_iff]
    refine ⟨_, (requireItem_eq_ok_iff .text).2 h.type,
      _, (requireItem_eq_ok_iff .verity).2 h.status,
      _, (requireItem_eq_ok_iff .text).2 h.reason,
      message, hMessage, since, hSince, generation, hGeneration,
      (), atMost_eq_ok_iff.2 hCount, ?_⟩
    rw [hMessage', hSince', hGeneration']

/-- The signs of zeros are not part of any field. -/
theorem readFrom_plain_iff {type status reason message since generation : Option Json}
    {condition : Condition} :
    ReadFrom (type.map Json.plain) (status.map Json.plain) (reason.map Json.plain)
        (message.map Json.plain) (since.map Json.plain) (generation.map Json.plain) condition ↔
      ReadFrom type status reason message since generation condition := by
  constructor
  · intro h
    exact {
      type := typeField.read_plain.1 h.type
      status := statusField.read_plain.1 h.status
      reason := reasonField.read_plain.1 h.reason
      message := messageField.read_plain.1 h.message
      since := sinceField.read_plain.1 h.since
      generation := generationField.read_plain.1 h.generation }
  · intro h
    exact {
      type := typeField.read_plain.2 h.type
      status := statusField.read_plain.2 h.status
      reason := reasonField.read_plain.2 h.reason
      message := messageField.read_plain.2 h.message
      since := sinceField.read_plain.2 h.since
      generation := generationField.read_plain.2 h.generation }

theorem ofJson_plain {document : Json} {condition : Condition} :
    ofJson .lenient document.plain = .ok condition ↔ ofJson .lenient document = .ok condition := by
  cases document with
  | object members =>
      rw [Json.plain, ofJson, ofJson, ofObject_eq_ok_iff, ofObject_eq_ok_iff]
      simp only [Members.get?_plain]
      exact readFrom_plain_iff
  | array items =>
      rw [Json.plain, Json.plainItems_eq_map, ofJson, ofJson, ofItems_eq_ok_iff, ofItems_eq_ok_iff,
        List.length_map]
      simp only [List.getElem?_map]
      exact and_congr_left fun _ => readFrom_plain_iff
  | _ => simp [Json.plain, ofJson]

/-- What stands under the keys of a written condition. -/
theorem get?_toObject (condition : Condition) :
    condition.toObject.get? "type" = typeField.write condition.type ∧
      condition.toObject.get? "status" = statusField.write condition.status ∧
      condition.toObject.get? "reason" = reasonField.write condition.reason ∧
      condition.toObject.get? "message" = messageField.write condition.message ∧
      condition.toObject.get? "lastTransitionTime" = sinceField.write condition.since ∧
      condition.toObject.get? "observedGeneration" =
        generationField.write condition.generation := by
  simp [toObject, Json.Object.ofList, typeField, statusField, reasonField, messageField, sinceField,
    generationField, Field.required, Field.withDefault, Field.optional, Codec.text, Codec.verity,
    Codec.timestamp, Codec.int64]

/-- The values that can be read back. -/
def Sound (condition : Condition) : Prop :=
  sinceField.Sound condition.since

/-- A written condition is read if and only if what was written of each field is read. -/
theorem ofJson_toJson_eq_ok_iff {condition condition' : Condition} :
    ofJson .lenient condition.toJson = .ok condition' ↔
      ReadFrom (typeField.write condition.type) (statusField.write condition.status)
        (reasonField.write condition.reason) (messageField.write condition.message)
        (sinceField.write condition.since) (generationField.write condition.generation)
        condition' := by
  obtain ⟨hType, hStatus, hReason, hMessage, hSince, hGeneration⟩ := condition.get?_toObject
  rw [toJson, ofJson, ofObject_eq_ok_iff, hType, hStatus, hReason, hMessage, hSince, hGeneration]

def codec : Codec Condition where
  read := ofJson .lenient
  write := toJson
  Sound := Sound
  read_write {condition} h := ofJson_toJson_eq_ok_iff.2 {
    type := typeField.read_write trivial
    status := statusField.read_write trivial
    reason := reasonField.read_write trivial
    message := messageField.read_write fun _ => trivial
    since := sinceField.read_write h
    generation := generationField.read_write fun _ _ => trivial }
  eq_of_read_write {condition condition'} h := by
    have hRead := ofJson_toJson_eq_ok_iff.1 h
    obtain ⟨type, status, reason, message, since, generation⟩ := condition
    obtain ⟨type', status', reason', message', since', generation'⟩ := condition'
    rw [mk.injEq]
    exact ⟨typeField.eq_of_read_write hRead.type, statusField.eq_of_read_write hRead.status,
      reasonField.eq_of_read_write hRead.reason, messageField.eq_of_read_write hRead.message,
      sinceField.eq_of_read_write hRead.since, generationField.eq_of_read_write hRead.generation⟩
  sound_of_read {document condition} h := by
    cases document with
    | object object => exact sinceField.sound_of_read (ofObject_eq_ok_iff.1 h).since
    | array items => exact sinceField.sound_of_read (ofItems_eq_ok_iff.1 h).1.since
    | _ => cases h
  read_plain := ofJson_plain
  write_ne_null _ := nofun

end Condition

namespace Standing

theorem eq_empty_of_decide (text : String) (h : decide (text = "") = true) : text = "" :=
  of_decide_eq_true h

theorem isEmpty_imp {α : Type} (values : List α) (h : values.isEmpty = true) : values = [] :=
  List.isEmpty_iff.1 h

def conditionsField : Field (List Condition) :=
  .withDefault (.list Condition.codec) [] nofun List.isEmpty isEmpty_imp

def phaseField : Field String :=
  .withDefault .text "" trivial (decide <| · = "") eq_empty_of_decide

/-- The values that can be read back. -/
def Sound (standing : Standing) : Prop :=
  conditionsField.Sound standing.conditions

/-- A standing is read if and only if both of its fields are read. -/
theorem ofFields_eq_ok_iff {conditions phase : Option Json} {standing : Standing} :
    ofFields .lenient conditions phase = .ok standing ↔
      conditionsField.read conditions = .ok standing.conditions ∧
        phaseField.read phase = .ok standing.phase.text := by
  constructor
  · intro h
    simp only [ofFields, Except.bind_eq_ok_iff, Except.pure_eq_ok_iff] at h
    obtain ⟨conditions, hConditions, phase, hPhase, rfl⟩ := h
    exact ⟨Except.map_eq_ok_iff.2 ⟨conditions, hConditions, rfl⟩,
      Except.map_eq_ok_iff.2 ⟨phase, hPhase, rfl⟩⟩
  · rintro ⟨h, h'⟩
    obtain ⟨conditions, hConditions, hEq⟩ := Except.map_eq_ok_iff.1 h
    obtain ⟨phase, hPhase, hEq'⟩ := Except.map_eq_ok_iff.1 h'
    simp only [ofFields, Except.bind_eq_ok_iff, Except.pure_eq_ok_iff]
    exact ⟨conditions, hConditions, phase, hPhase, by rw [hEq, hEq']⟩

theorem ofObject_eq_ok_iff {object : Json.Object} {standing : Standing} :
    ofObject .lenient object = .ok standing ↔
      conditionsField.read (object.get? "conditions") = .ok standing.conditions ∧
        phaseField.read (object.get? "phase") = .ok standing.phase.text :=
  ofFields_eq_ok_iff

theorem get?_toObject (standing : Standing) (key : String) :
    standing.toObject.get? key =
      if key = "conditions" then conditionsField.write standing.conditions
      else if key = "phase" then phaseField.write standing.phase.text
      else none := by
  have hPhase : standing.phase = Phase.blank ↔ standing.phase.text = "" := by
    obtain ⟨conditions, ⟨text⟩⟩ := standing
    simp [Phase.blank]
  by_cases h : key = "conditions"
  · simp [toObject, h, conditionsField, Field.withDefault, conditionsJson?, Codec.list,
      Condition.codec, Json.Object.ofList]
  · by_cases h' : key = "phase"
    · simp [toObject, h', phaseField, Field.withDefault, phaseJson?, Codec.text, hPhase,
        Json.Object.ofList]
    · simp [toObject, h, h', Json.Object.ofList]

end Standing

end Reconciliation
