import DpcppTrace.Model.DeviceBinaryWire
import DpcppTrace.Model.GraphDump
import DpcppTrace.Model.PrintImages

/-! # The file of the task graph

When the stream ends, the subscriber writes the events it has collected, each behind its size in 32
bits. The serialiser is a parameter of the model; the schema of `tools/schemas/graph.proto` over the
tag-length-value format, where an `optional` field is written whenever it is set, is one.
-/

namespace DpcppTrace.Model

open Foundation Wire

/-- Protobuf's serialiser for events of the graph. -/
structure GraphProtobuf where
  SerializeToString : GraphEvent → Bytes
  injective : Function.Injective SerializeToString

/-- The frame of one event. -/
def eventFrame (pb : GraphProtobuf) (event : GraphEvent) : Bytes :=
  let out := pb.SerializeToString event
  let size := out.length % 2 ^ 32
  leBytes 4 size ++ out.take size

/-- `dumpGraph`: the name and the content of the file it writes. -/
def dumpGraph (pb : GraphProtobuf) (outDir : Bytes) (data : GraphGlobalData) : Bytes × Bytes :=
  (appendName outDir (str "sycl.graph_trace"), data.graph.flatMap (eventFrame pb))

/-! ## The schema -/

namespace EventType

def number : EventType → ℕ
  | .NODE => 0
  | .EDGE => 1

def ofNumber : ℕ → EventType
  | 1 => .EDGE
  | _ => .NODE

end EventType

/-- A field with a presence of its own. -/
def optionalField (number : ℕ) (value : Option ℕ) : List Field :=
  (value.map fun value => ⟨number, .number value⟩).toList

private theorem optionalField_positive {number : ℕ} {value : Option ℕ} (positive : 0 < number) :
    ∀ field ∈ optionalField number value, 0 < field.number := by
  intro field member
  obtain ⟨value, -, rfl⟩ := Option.map_eq_some_iff.mp (Option.mem_toList.mp member)
  exact positive

/-- A signed 64-bit number as it is written. -/
def signed64 (value : Int64) : ℕ := value.toUInt64.toNat

def readSigned64 (value : ℕ) : Int64 := (UInt64.ofNat value).toInt64

private theorem readSigned64_signed64 (value : Int64) : readSigned64 (signed64 value) = value := by
  rw [readSigned64, signed64, UInt64.ofNat_toNat]
  rfl

private theorem eq_zero_of_signed64 {value : Int64} (zero : signed64 value = 0) : value = 0 := by
  rw [← readSigned64_signed64 value, zero]
  rfl

namespace Metadata

/-- The fields of a `Metadata`, a name and a value. -/
def fields (item : Bytes × Bytes) : List Field := textField 1 item.1 ++ textField 2 item.2

def merge (item : Bytes × Bytes) (field : Field) : Bytes × Bytes :=
  match field.number, field.payload with
  | 1, .bytes value => (value, item.2)
  | 2, .bytes value => (item.1, value)
  | _, _ => item

def parse (input : Bytes) : Bytes × Bytes := (parseMessage input).foldl merge ([], [])

theorem fields_positive (item : Bytes × Bytes) : ∀ field ∈ fields item, 0 < field.number := by
  intro field member
  rcases List.mem_append.mp member with name | value
  · exact textField_positive (by decide) field name
  · exact textField_positive (by decide) field value

theorem parse_encode (item : Bytes × Bytes) : parse (encodeFields (fields item)) = item := by
  apply foldl_parseMessage merge ([], []) (fields_positive item)
  obtain ⟨name, value⟩ := item
  rw [fields, List.foldl_append,
    foldl_text_eq merge ([], []) 1 name (name, []) rfl (fun empty => by rw [empty])]
  exact foldl_text_eq merge _ 2 value (name, value) rfl (fun empty => by rw [empty])

end Metadata

namespace GraphEvent

def fields (event : GraphEvent) : List Field :=
  scalar 1 event.type.number ++ scalar 2 (signed64 event.id) ++ scalar 3 event.time_create.toNat ++
    optionalField 4 (event.time_start.map UInt64.toNat) ++
    optionalField 5 (event.time_end.map UInt64.toNat) ++
    optionalField 6 (event.start_node.map signed64) ++
    optionalField 7 (event.end_node.map signed64) ++
    event.metadata.map fun item => ⟨8, .bytes (encodeFields (Metadata.fields item))⟩

def merge (event : GraphEvent) (field : Field) : GraphEvent :=
  match field.number, field.payload with
  | 1, .number value => { event with type := .ofNumber value }
  | 2, .number value => { event with id := readSigned64 value }
  | 3, .number value => { event with time_create := UInt64.ofNat value }
  | 4, .number value => { event with time_start := some (UInt64.ofNat value) }
  | 5, .number value => { event with time_end := some (UInt64.ofNat value) }
  | 6, .number value => { event with start_node := some (readSigned64 value) }
  | 7, .number value => { event with end_node := some (readSigned64 value) }
  | 8, .bytes value => { event with metadata := event.metadata ++ [Metadata.parse value] }
  | _, _ => event

def parse (input : Bytes) : GraphEvent := (parseMessage input).foldl merge {}

theorem fields_positive (event : GraphEvent) : ∀ field ∈ event.fields, 0 < field.number := by
  intro field member
  simp only [fields, List.mem_append, List.mem_map] at member
  rcases member with ((((((h | h) | h) | h) | h) | h) | h) | ⟨_, -, rfl⟩
  all_goals first
    | exact scalar_positive (by decide) field h
    | exact optionalField_positive (by decide) field h
    | exact Nat.succ_pos _

/-- Merging an optional field sets what it carries. -/
theorem foldl_optionalField {α : Type} (number : ℕ) (value : Option α) (write : α → ℕ)
    (message : GraphEvent) (set : Option α → GraphEvent) (absent : set none = message)
    (present : ∀ value, merge message ⟨number, .number (write value)⟩ = set (some value)) :
    (optionalField number (value.map write)).foldl merge message = set value := by
  cases value with
  | none => exact absent.symm
  | some value => exact present value

theorem foldl_fields (event : GraphEvent) : event.fields.foldl merge {} = event := by
  obtain ⟨type, id, time_create, time_start, time_end, start_node, end_node, metadata⟩ := event
  have zero64 (value : UInt64) (zero : value.toNat = 0) : value = 0 := UInt64.toNat_inj.mp zero
  simp only [fields, List.foldl_append]
  rw [foldl_scalar_eq merge {} 1 _ { type } (by cases type <;> rfl)
      (fun zero => by cases type <;> first | rfl | cases zero),
    foldl_scalar_eq merge _ 2 _ { type, id } (by simp [merge, readSigned64_signed64])
      (fun zero => by rw [eq_zero_of_signed64 zero]),
    foldl_scalar_eq merge _ 3 _ { type, id, time_create } (by simp [merge])
      (fun zero => by rw [zero64 time_create zero]),
    foldl_optionalField 4 time_start UInt64.toNat _
      (fun time_start => { type, id, time_create, time_start }) rfl (by simp [merge]),
    foldl_optionalField 5 time_end UInt64.toNat _
      (fun time_end => { type, id, time_create, time_start, time_end }) rfl (by simp [merge]),
    foldl_optionalField 6 start_node signed64 _
      (fun start_node => { type, id, time_create, time_start, time_end, start_node }) rfl
      (by simp [merge, readSigned64_signed64]),
    foldl_optionalField 7 end_node signed64 _
      (fun end_node => { type, id, time_create, time_start, time_end, start_node, end_node }) rfl
      (by simp [merge, readSigned64_signed64]),
    foldl_embedded merge _ (fun item => ⟨8, .bytes (encodeFields (Metadata.fields item))⟩)
      (fun event items => { event with metadata := event.metadata ++ items })
      (fun event item => by simp [merge, Metadata.parse_encode]) (by simp) (by simp),
    List.nil_append]

theorem parse_encode (event : GraphEvent) : parse (encodeFields event.fields) = event :=
  foldl_parseMessage merge {} event.fields_positive event.foldl_fields

end GraphEvent

/-- The wire format as a serialiser of events. -/
def graphWire : GraphProtobuf where
  SerializeToString event := encodeFields event.fields
  injective := Function.LeftInverse.injective GraphEvent.parse_encode

end DpcppTrace.Model
