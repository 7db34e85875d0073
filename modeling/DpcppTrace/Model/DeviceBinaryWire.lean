import DpcppTrace.Model.ApiCallWire
import DpcppTrace.Model.DeviceBinary

/-! # Descriptors on the wire

The schema of `tools/schemas/device_binary.proto` over the tag-length-value format. Numbers that can
be negative are written with the sign extended to 64 bits. Reading the fields back gives the message,
so different messages have different texts.
-/

namespace DpcppTrace.Model

open Foundation Wire

/-- A `string` or `bytes` field; proto3 does not write the empty one. -/
def textField (number : ℕ) (value : Bytes) : List Field :=
  if value = [] then [] else [⟨number, .bytes value⟩]

/-- A signed 32-bit field. -/
def signedField (number : ℕ) (value : Int32) : List Field := scalar number value.toInt64.toUInt64.toNat

def readSigned (value : ℕ) : Int32 := (UInt64.ofNat value).toInt64.toInt32

private theorem readSigned_toNat (value : Int32) : readSigned value.toInt64.toUInt64.toNat = value := by
  rw [readSigned, UInt64.ofNat_toNat]
  exact Int32.toInt32_toInt64 value

private theorem eq_zero_of_toNat (value : Int32) (zero : value.toInt64.toUInt64.toNat = 0) : value = 0 := by
  rw [← readSigned_toNat value, zero]
  rfl

theorem textField_positive {number : ℕ} {value : Bytes} (positive : 0 < number) :
    ∀ field ∈ textField number value, 0 < field.number := by
  intro field member
  unfold textField at member
  split at member
  · simp at member
  · obtain rfl := List.mem_singleton.mp member
    exact positive

section Merge

variable {μ : Type} (merge : μ → Field → μ) (message : μ)

private theorem foldl_scalar_field (number value : ℕ) : (scalar number value).foldl merge message =
    if value = 0 then message else merge message ⟨number, .number value⟩ := by
  unfold scalar
  split <;> rfl

private theorem foldl_textField (number : ℕ) (value : Bytes) : (textField number value).foldl merge message =
    if value = [] then message else merge message ⟨number, .bytes value⟩ := by
  unfold textField
  split <;> rfl

/-- A number merges to `final` where writing it does, and an unwritten one leaves `final`. -/
theorem foldl_scalar_eq (number value : ℕ) (final : μ)
    (written : merge message ⟨number, .number value⟩ = final) (unwritten : value = 0 → message = final) :
    (scalar number value).foldl merge message = final := by
  rw [foldl_scalar_field]
  split
  · exact unwritten ‹_›
  · exact written

theorem foldl_text_eq (number : ℕ) (value : Bytes) (final : μ)
    (written : merge message ⟨number, .bytes value⟩ = final) (unwritten : value = [] → message = final) :
    (textField number value).foldl merge message = final := by
  rw [foldl_textField]
  split
  · exact unwritten ‹_›
  · exact written

/-- Merging the fields of embedded messages appends the messages. -/
theorem foldl_embedded {α : Type} (field : α → Field) (append : μ → List α → μ)
    (one : ∀ message value, merge message (field value) = append message [value])
    (nil : ∀ message, append message [] = message)
    (assoc : ∀ message first second,
      append (append message first) second = append message (first ++ second))
    (values : List α) : (values.map field).foldl merge message = append message values := by
  induction values generalizing message with
  | nil => exact (nil message).symm
  | cons value values ih => rw [List.map_cons, List.foldl_cons, ih, one, assoc, List.singleton_append]

theorem foldl_parseMessage {fields : List Field} (positive : ∀ field ∈ fields, 0 < field.number)
    {final : μ} (merged : fields.foldl merge message = final) :
    (parseMessage (encodeFields fields)).foldl merge message = final := by
  have read := parseMessage_encodeFields fields positive [] trivial
  rw [List.append_nil] at read
  rw [read, merged]

end Merge

namespace OffloadEntry

def fields (entry : OffloadEntry) : List Field :=
  scalar 1 entry.address.toNat ++ textField 2 entry.name ++ scalar 3 entry.size.toNat ++
    signedField 4 entry.flags

def merge (entry : OffloadEntry) (field : Field) : OffloadEntry :=
  match field.number, field.payload with
  | 1, .number value => { entry with address := UInt64.ofNat value }
  | 2, .bytes value => { entry with name := value }
  | 3, .number value => { entry with size := UInt64.ofNat value }
  | 4, .number value => { entry with flags := readSigned value }
  | _, _ => entry

def parse (input : Bytes) : OffloadEntry := (parseMessage input).foldl merge {}

theorem fields_positive (entry : OffloadEntry) : ∀ field ∈ entry.fields, 0 < field.number := by
  intro field member
  simp only [fields, signedField, List.mem_append] at member
  rcases member with ((h | h) | h) | h
  · exact scalar_positive (by decide) field h
  · exact textField_positive (by decide) field h
  · exact scalar_positive (by decide) field h
  · exact scalar_positive (by decide) field h

theorem foldl_fields (entry : OffloadEntry) : entry.fields.foldl merge {} = entry := by
  obtain ⟨address, name, size, flags⟩ := entry
  have negative := eq_zero_of_toNat flags
  have zero64 (value : UInt64) : value.toNat = 0 ↔ value = 0 := by
    rw [← UInt64.toNat_inj]; rfl
  simp only [fields, signedField, List.foldl_append, foldl_scalar_field, foldl_textField, zero64]
  split_ifs <;> simp_all [merge, readSigned_toNat]

theorem parse_encode (entry : OffloadEntry) : parse (encodeFields entry.fields) = entry :=
  foldl_parseMessage merge {} entry.fields_positive entry.foldl_fields

end OffloadEntry

namespace Property

def fields (prop : Property) : List Field :=
  textField 1 prop.name ++ signedField 2 prop.type ++ textField 3 prop.data

def merge (prop : Property) (field : Field) : Property :=
  match field.number, field.payload with
  | 1, .bytes value => { prop with name := value }
  | 2, .number value => { prop with type := readSigned value }
  | 3, .bytes value => { prop with data := value }
  | _, _ => prop

def parse (input : Bytes) : Property := (parseMessage input).foldl merge {}

theorem fields_positive (prop : Property) : ∀ field ∈ prop.fields, 0 < field.number := by
  intro field member
  simp only [fields, signedField, List.mem_append] at member
  rcases member with (h | h) | h
  · exact textField_positive (by decide) field h
  · exact scalar_positive (by decide) field h
  · exact textField_positive (by decide) field h

theorem foldl_fields (prop : Property) : prop.fields.foldl merge {} = prop := by
  obtain ⟨name, type, data⟩ := prop
  have negative := eq_zero_of_toNat type
  simp only [fields, signedField, List.foldl_append, foldl_scalar_field, foldl_textField]
  split_ifs <;> simp_all [merge, readSigned_toNat]

theorem parse_encode (prop : Property) : parse (encodeFields prop.fields) = prop :=
  foldl_parseMessage merge {} prop.fields_positive prop.foldl_fields

end Property

namespace PropertySet

def fields (propSet : PropertySet) : List Field :=
  textField 1 propSet.name ++
    propSet.properties.map fun prop => ⟨2, .bytes (encodeFields prop.fields)⟩

def merge (propSet : PropertySet) (field : Field) : PropertySet :=
  match field.number, field.payload with
  | 1, .bytes value => { propSet with name := value }
  | 2, .bytes value => { propSet with properties := propSet.properties ++ [.parse value] }
  | _, _ => propSet

def parse (input : Bytes) : PropertySet := (parseMessage input).foldl merge {}

theorem fields_positive (propSet : PropertySet) : ∀ field ∈ propSet.fields, 0 < field.number := by
  intro field member
  rcases List.mem_append.mp member with name | prop
  · exact textField_positive (by decide) field name
  · obtain ⟨prop, -, rfl⟩ := List.mem_map.mp prop
    exact Nat.succ_pos 1

theorem foldl_fields (propSet : PropertySet) : propSet.fields.foldl merge {} = propSet := by
  obtain ⟨name, properties⟩ := propSet
  rw [fields, List.foldl_append, foldl_textField,
    foldl_embedded merge _ (fun prop => ⟨2, .bytes (encodeFields prop.fields)⟩)
      (fun propSet values => { propSet with properties := propSet.properties ++ values })
      (fun propSet prop => by simp [merge, Property.parse_encode]) (by simp) (by simp)]
  split_ifs <;> simp_all [merge]

theorem parse_encode (propSet : PropertySet) : parse (encodeFields propSet.fields) = propSet :=
  foldl_parseMessage merge {} propSet.fields_positive propSet.foldl_fields

end PropertySet

namespace DeviceBinary

def fields (dump : DeviceBinary) : List Field :=
  scalar 1 dump.version.toNat ++ scalar 2 dump.kind.toNat ++ scalar 3 dump.format.toNat ++
    textField 4 dump.device_target_spec ++ textField 5 dump.compile_options ++
    textField 6 dump.link_options ++
    (dump.offload_entries.map fun entry => ⟨7, .bytes (encodeFields entry.fields)⟩) ++
    (dump.property_sets.map fun propSet => ⟨8, .bytes (encodeFields propSet.fields)⟩) ++
    textField 9 dump.manifest

def merge (dump : DeviceBinary) (field : Field) : DeviceBinary :=
  match field.number, field.payload with
  | 1, .number value => { dump with version := UInt32.ofNat value }
  | 2, .number value => { dump with kind := UInt32.ofNat value }
  | 3, .number value => { dump with format := UInt32.ofNat value }
  | 4, .bytes value => { dump with device_target_spec := value }
  | 5, .bytes value => { dump with compile_options := value }
  | 6, .bytes value => { dump with link_options := value }
  | 7, .bytes value => { dump with offload_entries := dump.offload_entries ++ [.parse value] }
  | 8, .bytes value => { dump with property_sets := dump.property_sets ++ [.parse value] }
  | 9, .bytes value => { dump with manifest := value }
  | _, _ => dump

def parse (input : Bytes) : DeviceBinary := (parseMessage input).foldl merge {}

theorem fields_positive (dump : DeviceBinary) : ∀ field ∈ dump.fields, 0 < field.number := by
  intro field member
  simp only [fields, List.mem_append, List.mem_map] at member
  rcases member with (((((((h | h) | h) | h) | h) | h) | ⟨_, -, rfl⟩) | ⟨_, -, rfl⟩) | h
  all_goals first
    | exact scalar_positive (by decide) field h
    | exact textField_positive (by decide) field h
    | exact Nat.succ_pos _

theorem foldl_fields (dump : DeviceBinary) : dump.fields.foldl merge {} = dump := by
  obtain ⟨version, kind, format, target, compile, link, entries, sets, manifest⟩ := dump
  have zero32 (value : UInt32) (zero : value.toNat = 0) : value = 0 := UInt32.toNat_inj.mp zero
  simp only [fields, List.foldl_append]
  rw [foldl_scalar_eq merge {} 1 _ { version } (by simp [merge])
      (fun zero => by rw [zero32 version zero]),
    foldl_scalar_eq merge _ 2 _ { version, kind } (by simp [merge])
      (fun zero => by rw [zero32 kind zero]),
    foldl_scalar_eq merge _ 3 _ { version, kind, format } (by simp [merge])
      (fun zero => by rw [zero32 format zero]),
    foldl_text_eq merge _ 4 _ { version, kind, format, device_target_spec := target } rfl
      (fun empty => by rw [empty]),
    foldl_text_eq merge _ 5 _
      { version, kind, format, device_target_spec := target, compile_options := compile } rfl
      (fun empty => by rw [empty]),
    foldl_text_eq merge _ 6 _
      { version, kind, format, device_target_spec := target, compile_options := compile,
        link_options := link } rfl
      (fun empty => by rw [empty]),
    foldl_embedded merge _ (fun entry => ⟨7, .bytes (encodeFields entry.fields)⟩)
      (fun dump values => { dump with offload_entries := dump.offload_entries ++ values })
      (fun dump entry => by simp [merge, OffloadEntry.parse_encode]) (by simp) (by simp),
    foldl_embedded merge _ (fun propSet => ⟨8, .bytes (encodeFields propSet.fields)⟩)
      (fun dump values => { dump with property_sets := dump.property_sets ++ values })
      (fun dump propSet => by simp [merge, PropertySet.parse_encode]) (by simp) (by simp)]
  exact foldl_text_eq merge _ 9 _ _ (by simp [merge]) (fun empty => by simp [empty])

theorem parse_encode (dump : DeviceBinary) : parse (encodeFields dump.fields) = dump :=
  foldl_parseMessage merge {} dump.fields_positive dump.foldl_fields

end DeviceBinary

/-- The wire format as a serialiser of descriptors. -/
def binaryWire : BinaryProtobuf where
  SerializeToString dump := encodeFields dump.fields
  injective := Function.LeftInverse.injective DeviceBinary.parse_encode

end DpcppTrace.Model
