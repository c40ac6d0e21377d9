import Reconciliation.Condition.Codec
import Reconciliation.Json.MergePatch
import Reconciliation.Proofs.Results
import Reconciliation.Proofs.Time.Writing

/-!
Writing values and reading them back. A `Codec` is for values that stand in a document of their own,
a `Field` for those that stand under a key of an object, where they may be absent. The values that
are read are the sound ones, and these are read back as they were. No value at all is read back as
another one, and the signs of zeros make no difference to what is read.
-/
namespace Reconciliation

/-- A way to write values as documents and to read them. -/
structure Codec (α : Type) where
  read : Json → Except ReadError α
  write : α → Json
  /-- The values that can be read. -/
  Sound : α → Prop
  read_write : ∀ {value}, Sound value → read (write value) = .ok value
  eq_of_read_write : ∀ {value value'}, read (write value) = .ok value' → value' = value
  sound_of_read : ∀ {document value}, read document = .ok value → Sound value
  read_plain : ∀ {document value}, read document.plain = .ok value ↔ read document = .ok value
  write_ne_null : ∀ value, write value ≠ .null

/-- Nothing is read from objects. -/
def Codec.Flat {α : Type} (codec : Codec α) : Prop :=
  ∀ {document value}, codec.read document = .ok value → document.isObject = false

namespace Codec

variable {α : Type}

theorem string_ne_null (value : String) : Json.string value ≠ .null := by
  intro h
  cases h

theorem array_ne_null (items : List Json) : Json.array items ≠ .null := by
  intro h
  cases h

def text : Codec String where
  read := Json.asText
  write := .string
  Sound _ := True
  read_write _ := rfl
  eq_of_read_write h := (Except.ok.inj h).symm
  sound_of_read _ := trivial
  read_plain {document value} := by cases document <;> simp [Json.plain, Json.asText]
  write_ne_null := string_ne_null

theorem asInt64_ofInt64 (value : Int64) : Json.asInt64 (Json.ofInt64 value) = .ok value := by
  have hRange : Int64.minValue.toInt ≤ value.toInt ∧ value.toInt ≤ Int64.maxValue.toInt :=
    ⟨value.minValue_le_toInt, value.toInt_le⟩
  rw [Json.ofInt64, Json.asInt64, if_pos hRange, Int64.ofInt_toInt]

def int64 : Codec Int64 where
  read := Json.asInt64
  write := Json.ofInt64
  Sound _ := True
  read_write _ := asInt64_ofInt64 _
  eq_of_read_write h := Except.ok.inj (h.symm.trans (asInt64_ofInt64 _))
  sound_of_read _ := trivial
  read_plain {document value} := by
    cases document with
    | number number => cases number <;> simp [Json.plain, Number.plain, Json.asInt64]
    | _ => simp [Json.plain, Json.asInt64]
  write_ne_null _ := nofun

theorem asTimestamp_string_eq_ok_iff {text : String} {t : Timestamp} :
    Json.asTimestamp (.string text) = .ok t ↔ Rfc3339.read text = .ok t :=
  Except.mapError_eq_ok_iff

def timestamp : Codec Timestamp where
  read := Json.asTimestamp
  write := Json.ofTimestamp
  Sound t := Rfc3339.secondsRange.1 ≤ t.seconds ∧ t.seconds ≤ Rfc3339.secondsRange.2
  read_write h := asTimestamp_string_eq_ok_iff.2 (Rfc3339.read_write h)
  eq_of_read_write h := Rfc3339.eq_of_read_write (asTimestamp_string_eq_ok_iff.1 h)
  sound_of_read {document t} h := by
    cases document with
    | string text => exact Rfc3339.seconds_mem_of_read (asTimestamp_string_eq_ok_iff.1 h)
    | _ => cases h
  read_plain {document value} := by cases document <;> simp [Json.plain, Json.asTimestamp]
  write_ne_null _ := nofun

theorem ofJson_lenient_plain {document : Json} {value : Verity} :
    Verity.ofJson .lenient document.plain = .ok value ↔
      Verity.ofJson .lenient document = .ok value := by
  match document with
  | .object (.cons word _ inner .nil) =>
      have hNothing : Rigor.lenient.isNothing inner.plain = Rigor.lenient.isNothing inner := by
        match inner with
        | .object .nil => rfl
        | .object (.cons ..) => rfl
        | .null | .bool _ | .number _ | .string _ | .array _ => rfl
      simp only [Json.plain, Members.plain, Verity.ofJson, hNothing, Except.bind_eq_ok_iff]
      refine exists_congr fun verity => and_congr_right fun _ => ?_
      split
      · rfl
      · exact ⟨nofun, nofun⟩
  | .object .nil => simp [Json.plain, Members.plain, Verity.ofJson]
  | .object (.cons _ _ _ (.cons ..)) => simp [Json.plain, Members.plain, Verity.ofJson]
  | .null | .bool _ | .number _ | .string _ | .array _ => simp [Json.plain, Verity.ofJson]

/-- The words for a status, read leniently. -/
def verity : Codec Verity where
  read := Verity.ofJson .lenient
  write := Verity.toJson
  Sound _ := True
  read_write {value} _ := by rw [Verity.toJson, Verity.ofJson, Verity.readWord, Verity.ofWord?_word]
  eq_of_read_write {value value'} h := by
    rw [Verity.toJson, Verity.ofJson, Verity.readWord, Verity.ofWord?_word] at h
    exact (Except.ok.inj h).symm
  sound_of_read _ := trivial
  read_plain := ofJson_lenient_plain
  write_ne_null _ := nofun

section List

variable (codec : Codec α)

/-- Lists of sound values are read back. -/
theorem mapM_map_write {values : List α} (h : ∀ value ∈ values, codec.Sound value) :
    (values.map codec.write).mapM codec.read = .ok values := by
  induction values with
  | nil => rfl
  | cons value values ih =>
      have hHead := codec.read_write (h value (by simp))
      have hRest := ih fun value hValue => h value (by simp [hValue])
      simp [hHead, hRest, bind, Except.bind, pure, Except.pure]

/-- No list is read back as another one. -/
theorem eq_of_mapM_map_write {values values' : List α}
    (h : (values.map codec.write).mapM codec.read = .ok values') : values' = values := by
  induction values generalizing values' with
  | nil => exact (Except.ok.inj h).symm
  | cons value values ih =>
      simp only [List.map_cons, List.mapM_cons, Except.bind_eq_ok_iff, Except.pure_eq_ok_iff] at h
      obtain ⟨head, hHead, rest, hRest, rfl⟩ := h
      rw [codec.eq_of_read_write hHead, ih hRest]

/-- What is read from a list is sound. -/
theorem sound_of_mapM {documents : List Json} {values : List α}
    (h : documents.mapM codec.read = .ok values) : ∀ value ∈ values, codec.Sound value := by
  induction documents generalizing values with
  | nil =>
      cases h
      simp
  | cons document documents ih =>
      simp only [List.mapM_cons, Except.bind_eq_ok_iff, Except.pure_eq_ok_iff] at h
      obtain ⟨head, hHead, rest, hRest, rfl⟩ := h
      simpa using ⟨codec.sound_of_read hHead, ih hRest⟩

theorem mapM_map_plain {documents : List Json} {values : List α} :
    (documents.map Json.plain).mapM codec.read = .ok values ↔
      documents.mapM codec.read = .ok values := by
  induction documents generalizing values with
  | nil => rfl
  | cons document documents ih =>
      simp only [List.map_cons, List.mapM_cons, Except.bind_eq_ok_iff, codec.read_plain, ih]

end List

end Codec

def Codec.list {α : Type} (codec : Codec α) : Codec (List α) where
  read := Json.asList codec.read
  write values := .array (values.map codec.write)
  Sound values := ∀ value ∈ values, codec.Sound value
  read_write := codec.mapM_map_write
  eq_of_read_write := codec.eq_of_mapM_map_write
  sound_of_read {document values} h := by
    cases document with
    | array items => exact codec.sound_of_mapM h
    | _ => cases h
  read_plain {document values} := by
    cases document with
    | array items =>
        rw [Json.plain, Json.plainItems_eq_map]
        exact codec.mapM_map_plain
    | _ => simp [Json.plain, Json.asList]
  write_ne_null _ := nofun

/-- A part of a record that stands under a key of its own, or is left out. -/
structure Field (α : Type) where
  read : Option Json → Except ReadError α
  write : α → Option Json
  /-- The values that can be read. -/
  Sound : α → Prop
  read_write : ∀ {value}, Sound value → read (write value) = .ok value
  eq_of_read_write : ∀ {value value'}, read (write value) = .ok value' → value' = value
  sound_of_read : ∀ {document value}, read document = .ok value → Sound value
  read_plain : ∀ {document value},
    read (document.map Json.plain) = .ok value ↔ read document = .ok value
  write_ne_null : ∀ value, write value ≠ some .null

/-- Nothing is read from objects. -/
def Field.Flat {α : Type} (field : Field α) : Prop :=
  ∀ {document value}, field.read (some document) = .ok value → document.isObject = false

namespace Codec

theorem flat_text : text.Flat := by
  intro document value h
  cases document <;> first | rfl | cases h

theorem flat_int64 : int64.Flat := by
  intro document value h
  cases document <;> first | rfl | cases h

theorem flat_timestamp : timestamp.Flat := by
  intro document value h
  cases document <;> first | rfl | cases h

theorem flat_list {α : Type} (codec : Codec α) : codec.list.Flat := by
  intro document value h
  cases document <;> first | rfl | cases h

end Codec

namespace Field

variable {α : Type}

/-- The signs of zeros make no difference to a field. -/
theorem read_of_plain_eq (field : Field α) {document document' : Option Json} {value : α}
    (h : field.read document = .ok value)
    (hPlain : document.map Json.plain = document'.map Json.plain) :
    field.read document' = .ok value :=
  field.read_plain.1 (hPlain ▸ field.read_plain.2 h)

theorem requireField_ifPresent_eq_ok_iff {read : Json → Except ReadError α} {name : String}
    {document : Option Json} {value : α} :
    (Json.ifPresent read document >>= Json.requireField name) = .ok value ↔
      ∃ inner, document = some inner ∧ read inner = .ok value := by
  cases document with
  | none => exact ⟨nofun, nofun⟩
  | some inner =>
      cases h : read inner with
      | error => simp [Json.ifPresent, Except.map, h, bind, Except.bind]
      | ok found => simp [Json.ifPresent, Except.map, h, bind, Except.bind, Json.requireField]

/-- A part that has to be there. -/
def required (codec : Codec α) (name : String) : Field α where
  read document := Json.ifPresent codec.read document >>= Json.requireField name
  write value := some (codec.write value)
  Sound := codec.Sound
  read_write h := requireField_ifPresent_eq_ok_iff.2 ⟨_, rfl, codec.read_write h⟩
  eq_of_read_write {value value'} h := by
    obtain ⟨_, hWritten, hRead⟩ := requireField_ifPresent_eq_ok_iff.1 h
    cases hWritten
    exact codec.eq_of_read_write hRead
  sound_of_read {document value} h := by
    obtain ⟨_, -, hRead⟩ := requireField_ifPresent_eq_ok_iff.1 h
    exact codec.sound_of_read hRead
  read_plain {document value} := by
    rw [requireField_ifPresent_eq_ok_iff, requireField_ifPresent_eq_ok_iff]
    cases document <;> simp [codec.read_plain]
  write_ne_null value h := codec.write_ne_null value (Option.some.inj h)

theorem flat_required {codec : Codec α} (name : String) (h : codec.Flat) :
    (required codec name).Flat := by
  intro document value hRead
  obtain ⟨_, hDocument, hInner⟩ := requireField_ifPresent_eq_ok_iff.1 hRead
  cases hDocument
  exact h hInner

theorem asOption_eq_ok_iff {read : Json → Except ReadError α} {document : Json}
    (h : document ≠ .null) {value : Option α} :
    Json.asOption read document = .ok value ↔
      ∃ inner, read document = .ok inner ∧ some inner = value := by
  rw [← Except.map_eq_ok_iff]
  cases document <;> first | rfl | exact absurd rfl h

/-- A part that may be null, and is left out if there is none. -/
def optional (codec : Codec α) : Field (Option α) where
  read document := (Json.ifPresent (Json.asOption codec.read) document).map Option.join
  write value := value.map codec.write
  Sound value := ∀ inner ∈ value, codec.Sound inner
  read_write {value} h := by
    cases value with
    | none => rfl
    | some inner =>
        have hRead : Json.asOption codec.read (codec.write inner) = .ok (some inner) :=
          (asOption_eq_ok_iff (codec.write_ne_null inner)).2
            ⟨inner, codec.read_write (h inner rfl), rfl⟩
        simp [Json.ifPresent, hRead, Except.map]
  eq_of_read_write {value value'} h := by
    cases value with
    | none => exact (Except.ok.inj h).symm
    | some inner =>
        simp only [Option.map_some, Json.ifPresent, Except.map_eq_ok_iff,
          asOption_eq_ok_iff (codec.write_ne_null inner)] at h
        obtain ⟨_, ⟨_, ⟨read, hRead, rfl⟩, rfl⟩, rfl⟩ := h
        simp [codec.eq_of_read_write hRead]
  sound_of_read {document value} h := by
    cases document with
    | none =>
        cases h
        simp
    | some document =>
        by_cases hNull : document = .null
        · subst hNull
          cases h
          simp
        · simp only [Json.ifPresent, Except.map_eq_ok_iff, asOption_eq_ok_iff hNull] at h
          obtain ⟨_, ⟨_, ⟨read, hRead, rfl⟩, rfl⟩, rfl⟩ := h
          simpa using codec.sound_of_read hRead
  read_plain {document value} := by
    cases document with
    | none => rfl
    | some document =>
        by_cases hNull : document = .null
        · subst hNull
          rfl
        · simp [Json.ifPresent, Except.map_eq_ok_iff, asOption_eq_ok_iff hNull,
            asOption_eq_ok_iff (mt Json.plain_eq_null_iff.1 hNull), codec.read_plain]
  write_ne_null value h := by
    obtain ⟨inner, -, hInner⟩ := Option.map_eq_some_iff.1 h
    exact codec.write_ne_null inner hInner

theorem read_optional_eq_ok_iff {codec : Codec α} {document : Json} (h : document ≠ .null)
    {value : Option α} :
    (optional codec).read (some document) = .ok value ↔
      ∃ inner, codec.read document = .ok inner ∧ some inner = value := by
  simp only [optional, Json.ifPresent, Except.map_eq_ok_iff, asOption_eq_ok_iff h]
  constructor
  · rintro ⟨_, ⟨_, ⟨inner, hInner, rfl⟩, rfl⟩, hJoin⟩
    exact ⟨inner, hInner, hJoin⟩
  · rintro ⟨inner, hInner, rfl⟩
    exact ⟨_, ⟨_, ⟨inner, hInner, rfl⟩, rfl⟩, rfl⟩

theorem flat_optional {codec : Codec α} (h : codec.Flat) : (optional codec).Flat := by
  intro document value hRead
  by_cases hNull : document = .null
  · rw [hNull]
    rfl
  · obtain ⟨_, hInner, -⟩ := (read_optional_eq_ok_iff hNull).1 hRead
    exact h hInner

/-- A part that counts as `default` if it is absent. No value but this one is left out. -/
def withDefault (codec : Codec α) (default : α) (sound_default : codec.Sound default)
    (omits : α → Bool) (eq_of_omits : ∀ value, omits value = true → value = default) :
    Field α where
  read document := (Json.ifPresent codec.read document).map (Option.getD · default)
  write value := if omits value then none else some (codec.write value)
  Sound value := omits value = false → codec.Sound value
  read_write {value} h := by
    cases hOmits : omits value with
    | true =>
        simp [Json.ifPresent, Except.map, eq_of_omits value hOmits]
    | false => simp [Json.ifPresent, Except.map, codec.read_write (h hOmits)]
  eq_of_read_write {value value'} h := by
    cases hOmits : omits value with
    | true =>
        rw [hOmits] at h
        rw [eq_of_omits value hOmits]
        exact (Except.ok.inj h).symm
    | false =>
        simp only [hOmits, Bool.false_eq_true, if_false, Json.ifPresent,
          Except.map_eq_ok_iff] at h
        obtain ⟨_, ⟨read, hRead, rfl⟩, rfl⟩ := h
        exact codec.eq_of_read_write hRead
  sound_of_read {document value} h _ := by
    cases document with
    | none =>
        cases h
        exact sound_default
    | some document =>
        simp only [Json.ifPresent, Except.map_eq_ok_iff] at h
        obtain ⟨_, ⟨read, hRead, rfl⟩, rfl⟩ := h
        exact codec.sound_of_read hRead
  read_plain {document value} := by
    cases document with
    | none => rfl
    | some document => simp [Json.ifPresent, Except.map_eq_ok_iff, codec.read_plain]
  write_ne_null value h := by
    split at h
    · cases h
    · exact codec.write_ne_null value (Option.some.inj h)

theorem flat_withDefault {codec : Codec α} {default : α} {sound_default : codec.Sound default}
    {omits : α → Bool} {eq_of_omits : ∀ value, omits value = true → value = default}
    (h : codec.Flat) : (withDefault codec default sound_default omits eq_of_omits).Flat := by
  intro document value hRead
  simp only [withDefault, Json.ifPresent, Except.map_eq_ok_iff] at hRead
  obtain ⟨_, ⟨inner, hInner, -⟩, -⟩ := hRead
  exact h hInner

end Field

end Reconciliation
