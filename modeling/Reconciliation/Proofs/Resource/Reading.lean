import Reconciliation.Proofs.Condition.Reading
import Reconciliation.Resource.Snapshot

namespace Reconciliation

namespace Metadata

def nameField : Field String := .required .text "name"

def spaceField : Field String :=
  .withDefault .text "" trivial (decide <| · = "") Standing.eq_empty_of_decide

def versionField : Field (Option String) := .optional .text

def generationField : Field (Option Int64) := .optional .int64

def finalizersField : Field (List String) :=
  .withDefault (.list .text) [] nofun List.isEmpty Standing.isEmpty_imp

def deletionField : Field (Option Timestamp) := .optional .timestamp

/-- What an object says of metadata. -/
structure ReadFrom (object : Json.Object) (metadata : Metadata) : Prop where
  name : nameField.read (object.get? "name") = .ok metadata.name
  space : spaceField.read (object.get? "namespace") = .ok metadata.space
  version : versionField.read (object.get? "resourceVersion") = .ok metadata.version
  generation : generationField.read (object.get? "generation") = .ok metadata.generation
  finalizers : finalizersField.read (object.get? "finalizers") = .ok metadata.finalizers
  deletion : deletionField.read (object.get? "deletionTimestamp") = .ok metadata.deletion

/-- Metadata are read from an object if and only if each of their fields is read. -/
theorem ofObject_eq_ok_iff {object : Json.Object} {metadata : Metadata} :
    ofObject object = .ok metadata ↔ ReadFrom object metadata := by
  constructor
  · intro h
    simp only [ofObject, Except.bind_eq_ok_iff, Except.pure_eq_ok_iff] at h
    obtain ⟨deletion, hDeletion, finalizers, hFinalizers, generation, hGeneration, name, hName,
      space, hSpace, version, hVersion, name', hName', rfl⟩ := h
    exact {
      name := Except.bind_eq_ok_iff.2 ⟨name, hName, hName'⟩
      space := Except.map_eq_ok_iff.2 ⟨space, hSpace, rfl⟩
      version := Except.map_eq_ok_iff.2 ⟨version, hVersion, rfl⟩
      generation := Except.map_eq_ok_iff.2 ⟨generation, hGeneration, rfl⟩
      finalizers := Except.map_eq_ok_iff.2 ⟨finalizers, hFinalizers, rfl⟩
      deletion := Except.map_eq_ok_iff.2 ⟨deletion, hDeletion, rfl⟩ }
  · intro h
    obtain ⟨name, hName, hName'⟩ := Except.bind_eq_ok_iff.1 h.name
    obtain ⟨space, hSpace, hSpace'⟩ := Except.map_eq_ok_iff.1 h.space
    obtain ⟨version, hVersion, hVersion'⟩ := Except.map_eq_ok_iff.1 h.version
    obtain ⟨generation, hGeneration, hGeneration'⟩ := Except.map_eq_ok_iff.1 h.generation
    obtain ⟨finalizers, hFinalizers, hFinalizers'⟩ := Except.map_eq_ok_iff.1 h.finalizers
    obtain ⟨deletion, hDeletion, hDeletion'⟩ := Except.map_eq_ok_iff.1 h.deletion
    simp only [ofObject, Except.bind_eq_ok_iff, Except.pure_eq_ok_iff]
    refine ⟨deletion, hDeletion, finalizers, hFinalizers, generation, hGeneration, name, hName,
      space, hSpace, version, hVersion, _, hName', ?_⟩
    rw [hSpace', hVersion', hGeneration', hFinalizers', hDeletion']

/-- The members of written metadata. -/
structure WrittenTo (object : Json.Object) (metadata : Metadata) : Prop where
  name : object.get? "name" = nameField.write metadata.name
  space : object.get? "namespace" = spaceField.write metadata.space
  version : object.get? "resourceVersion" = versionField.write metadata.version
  generation : object.get? "generation" = generationField.write metadata.generation
  finalizers : object.get? "finalizers" = finalizersField.write metadata.finalizers
  deletion : object.get? "deletionTimestamp" = deletionField.write metadata.deletion

/-- What stands under the keys of written metadata. -/
theorem writtenTo_toObject (metadata : Metadata) : WrittenTo metadata.toObject metadata := by
  constructor <;>
    simp [toObject, Json.Object.ofList, nameField, spaceField, versionField, generationField,
      finalizersField, deletionField, Field.required, Field.withDefault, Field.optional,
      Codec.text, Codec.int64, Codec.timestamp, Codec.list, spaceJson?, finalizersJson?]

/-- The values that can be read back. -/
def Sound (metadata : Metadata) : Prop :=
  deletionField.Sound metadata.deletion

/-- Metadata that are read are sound. -/
theorem ReadFrom.sound {object : Json.Object} {metadata : Metadata}
    (h : ReadFrom object metadata) : metadata.Sound :=
  deletionField.sound_of_read h.deletion

/-- Sound metadata are read back. -/
theorem readFrom_toObject {metadata : Metadata} (h : metadata.Sound) :
    ReadFrom metadata.toObject metadata := by
  have hWritten := metadata.writtenTo_toObject
  exact {
    name := hWritten.name ▸ nameField.read_write trivial
    space := hWritten.space ▸ spaceField.read_write fun _ => trivial
    version := hWritten.version ▸ versionField.read_write fun _ _ => trivial
    generation := hWritten.generation ▸ generationField.read_write fun _ _ => trivial
    finalizers := hWritten.finalizers ▸ finalizersField.read_write fun _ _ _ => trivial
    deletion := hWritten.deletion ▸ deletionField.read_write h }

/-- Metadata is read as it was written. -/
theorem ReadFrom.eq_of_writtenTo {object : Json.Object} {metadata metadata' : Metadata}
    (h : ReadFrom object metadata') (hWritten : WrittenTo object metadata) :
    metadata' = metadata := by
  obtain ⟨name, space, version, generation, finalizers, deletion⟩ := metadata
  obtain ⟨name', space', version', generation', finalizers', deletion'⟩ := metadata'
  rw [mk.injEq]
  exact ⟨nameField.eq_of_read_write (hWritten.name ▸ h.name),
    spaceField.eq_of_read_write (hWritten.space ▸ h.space),
    versionField.eq_of_read_write (hWritten.version ▸ h.version),
    generationField.eq_of_read_write (hWritten.generation ▸ h.generation),
    finalizersField.eq_of_read_write (hWritten.finalizers ▸ h.finalizers),
    deletionField.eq_of_read_write (hWritten.deletion ▸ h.deletion)⟩

theorem ReadFrom.of_agree {object object' : Json.Object} {metadata : Metadata}
    (h : ReadFrom object metadata) (hAgree : (Json.object object).Agree (.object object')) :
    ReadFrom object' metadata := by
  have hPlain := Json.agree_object_iff.1 hAgree
  exact {
    name := nameField.read_of_plain_eq h.name (hPlain _)
    space := spaceField.read_of_plain_eq h.space (hPlain _)
    version := versionField.read_of_plain_eq h.version (hPlain _)
    generation := generationField.read_of_plain_eq h.generation (hPlain _)
    finalizers := finalizersField.read_of_plain_eq h.finalizers (hPlain _)
    deletion := deletionField.read_of_plain_eq h.deletion (hPlain _) }

end Metadata

namespace Status

/-- The members that are laid over others hide them. -/
@[simp] theorem get?_overlay (object : Json.Object) {low : Option String} (extra : Members low)
    (key : String) : (overlay object extra).get? key = (extra.get? key).or (object.get? key) := by
  match extra with
  | .nil => simp [overlay]
  | .cons key' after value rest =>
      rw [overlay, get?_overlay _ rest key]
      by_cases h : key = key'
      · subst h
        simp [Members.get?, Members.get?_self_eq_none]
      · simp [Members.get?, h]

def toObject (status : Status) : Json.Object :=
  overlay status.standing.toObject status.extra

/-- Whether further members stand where the standing belongs. -/
def Shadows (status : Status) : Prop :=
  status.extra.contains "conditions" = true ∨ status.extra.contains "phase" = true

instance Shadows.decidable (status : Status) : Decidable status.Shadows :=
  inferInstanceAs (Decidable (_ ∨ _))

theorem not_shadows_iff {status : Status} :
    ¬status.Shadows ↔
      status.extra.get? "conditions" = none ∧ status.extra.get? "phase" = none := by
  simp [Shadows, Members.contains]

theorem get?_toObject (status : Status) (key : String) :
    status.toObject.get? key = (status.extra.get? key).or (status.standing.toObject.get? key) :=
  get?_overlay _ _ _

/-- The members that do not belong to the standing. -/
def further (object : Json.Object) : Json.Object :=
  (object.erase "conditions").erase "phase"

theorem get?_further (object : Json.Object) (key : String) :
    (further object).get? key =
      if key = "conditions" ∨ key = "phase" then none else object.get? key := by
  rw [further, Members.get?_erase, Members.get?_erase]
  by_cases h : key = "conditions" <;> by_cases h' : key = "phase" <;> simp [h, h']

/-- What an object says of a status. -/
structure ReadFrom (object : Json.Object) (status : Status) : Prop where
  conditions : Standing.conditionsField.read (object.get? "conditions") =
    .ok status.standing.conditions
  phase : Standing.phaseField.read (object.get? "phase") = .ok status.standing.phase.text
  extra : status.extra = further object

/-- A status is read from an object if and only if its standing and its further members are. -/
theorem ofJson_eq_ok_iff {document : Json} {status : Status} :
    ofJson document = .ok status ↔
      ∃ object, document = .object object ∧ ReadFrom object status := by
  constructor
  · intro h
    cases document with
    | object object =>
        simp only [ofJson, Except.bind_eq_ok_iff, Except.pure_eq_ok_iff] at h
        obtain ⟨standing, hStanding, rfl⟩ := h
        obtain ⟨hConditions, hPhase⟩ := Standing.ofObject_eq_ok_iff.1 hStanding
        exact ⟨object, rfl, hConditions, hPhase, rfl⟩
    | _ => cases h
  · rintro ⟨object, rfl, h⟩
    simp only [ofJson, Except.bind_eq_ok_iff, Except.pure_eq_ok_iff]
    refine ⟨status.standing, Standing.ofObject_eq_ok_iff.2 ⟨h.conditions, h.phase⟩, ?_⟩
    rw [← further, ← h.extra]

/-- The same standing, and further members that agree. -/
structure Agree (a b : Status) : Prop where
  standing : a.standing = b.standing
  extra : (Json.object a.extra).Agree (.object b.extra)

theorem ReadFrom.not_shadows {object : Json.Object} {status : Status}
    (h : ReadFrom object status) : ¬status.Shadows := by
  rw [not_shadows_iff, h.extra, get?_further, get?_further]
  simp

theorem ReadFrom.sound {object : Json.Object} {status : Status} (h : ReadFrom object status) :
    status.standing.Sound :=
  Standing.conditionsField.sound_of_read h.conditions

theorem get?_toObject_conditions {status : Status} (h : status.extra.get? "conditions" = none) :
    status.toObject.get? "conditions" =
      Standing.conditionsField.write status.standing.conditions := by
  rw [get?_toObject, h, Standing.get?_toObject, if_pos rfl, Option.none_or]

theorem get?_toObject_phase {status : Status} (h : status.extra.get? "phase" = none) :
    status.toObject.get? "phase" = Standing.phaseField.write status.standing.phase.text := by
  rw [get?_toObject, h, Standing.get?_toObject, if_neg (by decide), if_pos rfl, Option.none_or]

theorem further_toObject {status : Status} (h : ¬status.Shadows) :
    further status.toObject = status.extra := by
  obtain ⟨hConditions, hPhase⟩ := not_shadows_iff.1 h
  apply Members.ext
  intro key
  rw [get?_further, get?_toObject, Standing.get?_toObject]
  by_cases hKey : key = "conditions"
  · simp [hKey, hConditions]
  · by_cases hKey' : key = "phase"
    · simp [hKey', hPhase]
    · simp [hKey, hKey']

/-- A sound status is read back, unless further members shadow its standing. -/
theorem readFrom_toObject {status : Status} (hSound : status.standing.Sound)
    (h : ¬status.Shadows) : ReadFrom status.toObject status where
  conditions := get?_toObject_conditions (not_shadows_iff.1 h).1 ▸
    Standing.conditionsField.read_write hSound
  phase := get?_toObject_phase (not_shadows_iff.1 h).2 ▸
    Standing.phaseField.read_write fun _ => trivial
  extra := (further_toObject h).symm

/-- A status is read as it was written, if no further members are in the way of its standing. -/
theorem ReadFrom.eq_of_toObject {status status' : Status} (h : ReadFrom status.toObject status')
    (hShadows : ¬status.Shadows) : status' = status := by
  have hConditions := h.conditions
  have hPhase := h.phase
  have hExtra := h.extra
  rw [get?_toObject_conditions (not_shadows_iff.1 hShadows).1] at hConditions
  rw [get?_toObject_phase (not_shadows_iff.1 hShadows).2] at hPhase
  rw [further_toObject hShadows] at hExtra
  obtain ⟨⟨conditions, ⟨phase⟩⟩, extra⟩ := status
  obtain ⟨⟨conditions', ⟨phase'⟩⟩, extra'⟩ := status'
  obtain rfl := Standing.conditionsField.eq_of_read_write hConditions
  obtain rfl := Standing.phaseField.eq_of_read_write hPhase
  obtain rfl := hExtra
  rfl

theorem ReadFrom.of_agree {object object' : Json.Object} {status : Status}
    (h : ReadFrom object status) (hAgree : (Json.object object).Agree (.object object')) :
    ∃ status', ReadFrom object' status' ∧ status.Agree status' := by
  have hPlain := Json.agree_object_iff.1 hAgree
  refine ⟨{ standing := status.standing, extra := further object' }, ?_, ?_⟩
  · exact {
      conditions := Standing.conditionsField.read_of_plain_eq h.conditions (hPlain _)
      phase := Standing.phaseField.read_of_plain_eq h.phase (hPlain _)
      extra := rfl }
  · refine ⟨rfl, Json.agree_object_iff.2 fun key => ?_⟩
    rw [h.extra, get?_further, get?_further]
    split
    · rfl
    · exact hPlain key

/-- What a member says of a status, where null says that there is none. -/
inductive MayReadFrom : Option Json → Option Status → Prop where
  | absent : MayReadFrom none none
  | null : MayReadFrom (some .null) none
  | object {object : Json.Object} {status : Status} (h : ReadFrom object status) :
    MayReadFrom (some (.object object)) (some status)

/-- Reading what may stand for a status is one of the three cases. -/
theorem mayReadFrom_iff {document : Option Json} {status : Option Status} :
    (Json.ifPresent (Json.asOption ofJson) document).map Option.join = .ok status ↔
      MayReadFrom document status := by
  constructor
  · intro h
    rw [Except.map_eq_ok_iff] at h
    obtain ⟨read, hRead, rfl⟩ := h
    cases document with
    | none =>
        cases hRead
        exact .absent
    | some document =>
        obtain ⟨inner, hInner, rfl⟩ := Except.map_eq_ok_iff.1 hRead
        by_cases hNull : document = .null
        · subst hNull
          cases hInner
          exact .null
        · obtain ⟨status, hStatus, rfl⟩ := (Field.asOption_eq_ok_iff hNull).1 hInner
          obtain ⟨object, rfl, hObject⟩ := ofJson_eq_ok_iff.1 hStatus
          exact .object hObject
  · intro h
    cases h with
    | absent => rfl
    | null => rfl
    | @object object status h =>
        have hRead : ofJson (.object object) = .ok status := ofJson_eq_ok_iff.2 ⟨object, rfl, h⟩
        simp [Json.ifPresent, Json.asOption, hRead, Except.map]

end Status

/-- The parts of a document that has metadata, as all documents in a store have. -/
structure Json.Parts (document : Json) (metadata : Json.Object) (spec status : Option Json) :
    Prop where
  isObject : document.isObject = true
  metadata : document.members.get? "metadata" = some (.object metadata)
  spec : document.members.get? "spec" = spec
  status : document.status? = status

namespace Resource

/-- What the parts of a document say of a resource. -/
structure ReadFrom (metadata : Json.Object) (spec status : Option Json) (resource : Resource) :
    Prop where
  metadata : Metadata.ReadFrom metadata resource.metadata
  spec : spec = some resource.spec
  status : Status.MayReadFrom status resource.status
  writable : resource.unwritable = none

theorem requireField_eq_ok_iff {α : Type} {name : String} {found : Option α} {value : α} :
    Json.requireField name found = .ok value ↔ found = some value := by
  cases found <;> simp [Json.requireField]

/-- A resource is read if and only if its three parts are. -/
theorem ofJson_eq_ok_iff {document : Json} {metadata : Json.Object} {spec status : Option Json}
    (h : document.Parts metadata spec status) {resource : Resource} :
    ofJson document = .ok resource ↔ ReadFrom metadata spec status resource := by
  obtain ⟨hObject, hMetadata, rfl, rfl⟩ := h
  obtain ⟨content, rfl⟩ : ∃ content, document = .object content :=
    ⟨_, Json.eq_object_of_isObject hObject⟩
  rw [ofJson, Except.mapError_eq_ok_iff]
  constructor
  · intro h
    simp only [Json.members_object] at hMetadata
    simp only [ofObject, hMetadata, Except.bind_eq_ok_iff, Except.pure_eq_ok_iff] at h
    obtain ⟨found, hFound, status, hStatus, given, hGiven, spec, hSpec, rfl⟩ := h
    obtain ⟨read, hRead, rfl⟩ := Except.map_eq_ok_iff.1 hFound
    cases hGiven
    exact {
      metadata := Metadata.ofObject_eq_ok_iff.1 hRead
      spec := requireField_eq_ok_iff.1 hSpec
      status := Status.mayReadFrom_iff.1 (Except.map_eq_ok_iff.2 ⟨status, hStatus, rfl⟩)
      writable := rfl }
  · intro h
    have hRead : Metadata.ofObject metadata = .ok resource.metadata :=
      Metadata.ofObject_eq_ok_iff.2 h.metadata
    obtain ⟨status, hStatus, hStatus'⟩ :=
      Except.map_eq_ok_iff.1 (Status.mayReadFrom_iff.2 h.status)
    simp only [Json.members_object] at hMetadata
    simp only [ofObject, hMetadata, Except.bind_eq_ok_iff, Except.pure_eq_ok_iff]
    refine ⟨some resource.metadata, Except.map_eq_ok_iff.2 ⟨_, hRead, rfl⟩, status, hStatus,
      resource.metadata, rfl, resource.spec, requireField_eq_ok_iff.2 h.spec, ?_⟩
    rw [hStatus', ← h.writable]

end Resource

end Reconciliation
