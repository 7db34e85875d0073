import DpcppTrace.Foundation.Wire
import DpcppTrace.Model.ApiCall

/-! # Recorded calls on the wire

The schema of `tools/schemas/api_call.proto` over the tag-length-value format: fields in number
order, proto3 defaults omitted, a set `oneof` member always written, repeated fields one after
another. Parsing merges fields into the default message in the order they appear. This is a
serialiser and parser with the property both trace readers rely on.
-/

namespace DpcppTrace.Model

open Foundation Wire

namespace ArgType

def number : ArgType → ℕ
  | .INT32 => 0
  | .INT64 => 1
  | .UINT32 => 2
  | .UINT64 => 3
  | .POINTER => 4
  | .STRING => 5

def ofNumber : ℕ → ArgType
  | 1 => .INT64
  | 2 => .UINT32
  | 3 => .UINT64
  | 4 => .POINTER
  | 5 => .STRING
  | _ => .INT32

end ArgType

/-- A scalar field; proto3 does not write zero. -/
def scalar (number value : ℕ) : List Field :=
  if value = 0 then [] else [⟨number, .number value⟩]

/-- Repeated `bytes` and `string` fields. -/
def repeatedBytes (number : ℕ) (values : List Bytes) : List Field :=
  values.map fun value => ⟨number, .bytes value⟩

theorem scalar_positive {number value : ℕ} (positive : 0 < number) :
    ∀ field ∈ scalar number value, 0 < field.number := by
  intro field member
  unfold scalar at member
  split at member
  · simp at member
  · obtain rfl := List.mem_singleton.mp member
    exact positive

private theorem repeatedBytes_positive {number : ℕ} {values : List Bytes} (positive : 0 < number) :
    ∀ field ∈ repeatedBytes number values, 0 < field.number := by
  intro field member
  obtain ⟨value, _, rfl⟩ := List.mem_map.mp member
  exact positive

namespace ArgData

def dataFields : Option ArgValue → List Field
  | none => []
  | some (.int_val value) => [⟨2, .number value.toNat⟩]
  | some (.str_val value) => [⟨3, .bytes value⟩]

def fields (arg : ArgData) : List Field := scalar 1 arg.type.number ++ dataFields arg.data

def merge (arg : ArgData) (field : Field) : ArgData :=
  match field.number, field.payload with
  | 1, .number value => { arg with type := .ofNumber value }
  | 2, .number value => { arg with data := some (.int_val (UInt64.ofNat value)) }
  | 3, .bytes value => { arg with data := some (.str_val value) }
  | _, _ => arg

def parse (input : Bytes) : ArgData := (parseMessage input).foldl merge {}

theorem fields_positive (arg : ArgData) : ∀ field ∈ arg.fields, 0 < field.number := by
  intro field member
  rcases List.mem_append.mp member with type | data
  · exact scalar_positive (by decide) field type
  · rcases arg with ⟨_, _ | ⟨value⟩ | ⟨value⟩⟩
    · simp [dataFields] at data
    all_goals
      obtain rfl := List.mem_singleton.mp data
      exact Nat.succ_pos _

theorem foldl_fields (arg : ArgData) : arg.fields.foldl merge {} = arg := by
  obtain ⟨type, data⟩ := arg
  rcases data with _ | ⟨value⟩ | ⟨value⟩ <;> cases type <;>
    simp [fields, dataFields, scalar, merge, ArgType.number, ArgType.ofNumber]

theorem parse_encode (arg : ArgData) : parse (encodeFields arg.fields) = arg := by
  have read := parseMessage_encodeFields arg.fields arg.fields_positive [] trivial
  rw [List.append_nil] at read
  rw [parse, read, foldl_fields]

end ArgData

namespace APICall

def argFields (args : List ArgData) : List Field :=
  args.map fun arg => ⟨5, .bytes (encodeFields arg.fields)⟩

def fields (call : APICall) : List Field :=
  scalar 1 call.function_id.toNat ++ scalar 2 call.time_start.toNat ++
    scalar 3 call.time_end.toNat ++ scalar 4 call.return_value.toNat ++ argFields call.args ++
    repeatedBytes 6 call.small_inputs ++ repeatedBytes 7 call.small_outputs ++
    repeatedBytes 8 call.mem_obj_inputs ++ repeatedBytes 9 call.mem_obj_outputs

def merge (call : APICall) (field : Field) : APICall :=
  match field.number, field.payload with
  | 1, .number value => { call with function_id := UInt32.ofNat value }
  | 2, .number value => { call with time_start := UInt64.ofNat value }
  | 3, .number value => { call with time_end := UInt64.ofNat value }
  | 4, .number value => { call with return_value := UInt32.ofNat value }
  | 5, .bytes value => { call with args := call.args ++ [.parse value] }
  | 6, .bytes value => { call with small_inputs := call.small_inputs ++ [value] }
  | 7, .bytes value => { call with small_outputs := call.small_outputs ++ [value] }
  | 8, .bytes value => { call with mem_obj_inputs := call.mem_obj_inputs ++ [value] }
  | 9, .bytes value => { call with mem_obj_outputs := call.mem_obj_outputs ++ [value] }
  | _, _ => call

/-- The fields up to the first malformed one, or up to a zero tag. -/
def parse (input : Bytes) : APICall := (parseMessage input).foldl merge {}

theorem fields_positive (call : APICall) : ∀ field ∈ call.fields, 0 < field.number := by
  have args : ∀ field ∈ argFields call.args, 0 < field.number := by
    intro field member
    obtain ⟨arg, _, rfl⟩ := List.mem_map.mp member
    exact Nat.succ_pos 4
  intro field member
  simp only [fields, List.mem_append] at member
  rcases member with (((((((h | h) | h) | h) | h) | h) | h) | h) | h
  all_goals first
    | exact scalar_positive (by decide) field h
    | exact repeatedBytes_positive (by decide) field h
    | exact args field h

/-- Merging the scalars of a message sets them, whatever the message holds otherwise. -/
theorem foldl_scalar (number value : ℕ) (call : APICall) :
    (scalar number value).foldl merge call =
      if value = 0 then call else merge call ⟨number, .number value⟩ := by
  unfold scalar
  split <;> rfl

private theorem foldl_args (args : List ArgData) (call : APICall) :
    (argFields args).foldl merge call = { call with args := call.args ++ args } := by
  induction args generalizing call with
  | nil => simp [argFields]
  | cons arg rest ih =>
    change (argFields rest).foldl merge (merge call ⟨5, .bytes (encodeFields arg.fields)⟩) = _
    rw [ih]
    simp [merge, ArgData.parse_encode]

/-- Merging a repeated field appends its values in order. -/
theorem foldl_repeated (number : ℕ) (append : APICall → List Bytes → APICall)
    (one : ∀ call value, merge call ⟨number, .bytes value⟩ = append call [value])
    (nil : ∀ call, append call [] = call)
    (assoc : ∀ call first second, append (append call first) second = append call (first ++ second))
    (values : List Bytes) (call : APICall) :
    (repeatedBytes number values).foldl merge call = append call values := by
  induction values generalizing call with
  | nil => exact (nil call).symm
  | cons value rest ih =>
    change (repeatedBytes number rest).foldl merge (merge call ⟨number, .bytes value⟩) = _
    rw [ih, one, assoc, List.singleton_append]

theorem foldl_fields (call : APICall) : call.fields.foldl merge {} = call := by
  obtain ⟨fid, start, stop, result, args, inputs, outputs, objIn, objOut⟩ := call
  simp only [fields, List.foldl_append, foldl_scalar, foldl_args]
  rw [foldl_repeated 6 (fun call values => { call with small_inputs := call.small_inputs ++ values })
      (fun _ _ => rfl) (by simp) (by simp),
    foldl_repeated 7 (fun call values => { call with small_outputs := call.small_outputs ++ values })
      (fun _ _ => rfl) (by simp) (by simp),
    foldl_repeated 8 (fun call values => { call with mem_obj_inputs := call.mem_obj_inputs ++ values })
      (fun _ _ => rfl) (by simp) (by simp),
    foldl_repeated 9 (fun call values => { call with mem_obj_outputs := call.mem_obj_outputs ++ values })
      (fun _ _ => rfl) (by simp) (by simp)]
  have zero32 (value : UInt32) : value.toNat = 0 ↔ value = 0 := by
    rw [← UInt32.toNat_inj]; rfl
  have zero64 (value : UInt64) : value.toNat = 0 ↔ value = 0 := by
    rw [← UInt64.toNat_inj]; rfl
  simp only [zero32, zero64]
  split_ifs <;> simp_all [merge]

end APICall

/-- The wire format as a serialiser and parser for trace records. -/
def wire : Protobuf where
  SerializeToString call := encodeFields call.fields
  ParseFromString := APICall.parse
  parse_zero call := by
    rw [APICall.parse, parseMessage_encodeFields call.fields call.fields_positive [0] rfl,
      APICall.foldl_fields]

/-! ## Records that are cut -/

/-- Protobuf writes fields in the order of their numbers, the function's number first: a tag of one byte
and base-128 digits. Of a record that is cut, the digits that are left are read, if zeros stand for the
rest. -/
def FunctionFirst (pb : Protobuf) : Prop :=
  ∀ (call : APICall) (kept zeros : ℕ), 0 < kept → kept < (pb.SerializeToString call).length →
    (pb.ParseFromString ((pb.SerializeToString call).take kept ++
      List.replicate (zeros + 1) 0)).function_id.toNat = call.function_id.toNat % 128 ^ (kept - 1)

namespace APICall

/-- The fields behind the function's number. -/
def laterFields (call : APICall) : List Field :=
  scalar 2 call.time_start.toNat ++ scalar 3 call.time_end.toNat ++
    scalar 4 call.return_value.toNat ++ argFields call.args ++ repeatedBytes 6 call.small_inputs ++
    repeatedBytes 7 call.small_outputs ++ repeatedBytes 8 call.mem_obj_inputs ++
    repeatedBytes 9 call.mem_obj_outputs

private theorem fields_eq (call : APICall) :
    call.fields = scalar 1 call.function_id.toNat ++ call.laterFields := by
  simp only [fields, laterFields, List.append_assoc]

private theorem number_of_laterFields (call : APICall) :
    ∀ field ∈ call.laterFields, 2 ≤ field.number ∧ field.number ≤ 9 := by
  have ofScalar {number value : ℕ} {field : Field} (member : field ∈ scalar number value) :
      field.number = number := by
    unfold scalar at member
    split at member
    · cases member
    · rw [List.mem_singleton.mp member]
  have ofRepeated {number : ℕ} {values : List Bytes} {field : Field}
      (member : field ∈ repeatedBytes number values) : field.number = number := by
    obtain ⟨_, _, rfl⟩ := List.mem_map.mp member
    rfl
  intro field member
  simp only [laterFields, List.mem_append] at member
  rcases member with ((((((h | h) | h) | h) | h) | h) | h) | h
  case inl.inl.inl.inl.inr =>
    obtain ⟨_, _, rfl⟩ := List.mem_map.mp h
    simp
  all_goals first
    | have number := ofScalar h; omega
    | have number := ofRepeated h; omega

private theorem merge_function_id (call : APICall) {field : Field} (other : field.number ≠ 1) :
    (merge call field).function_id = call.function_id := by
  unfold merge
  split <;> first | rfl | exact absurd ‹_› other

private theorem foldl_function_id {fields : List Field} (others : ∀ field ∈ fields, field.number ≠ 1)
    (call : APICall) : (fields.foldl merge call).function_id = call.function_id := by
  induction fields generalizing call with
  | nil => rfl
  | cons field later ih =>
    rw [List.foldl_cons, ih fun other member => others other (List.mem_cons_of_mem field member),
      merge_function_id call (others field (List.mem_cons_self ..))]

/-- Cut fields behind the function's number do not change it. -/
theorem foldl_cut (call start : APICall) (fuel kept zeros : ℕ) :
    ((parseFields fuel ((encodeFields call.laterFields).take kept ++
      List.replicate (zeros + 1) 0)).foldl merge start).function_id = start.function_id := by
  apply foldl_function_id
  intro field member
  have short : ∀ field ∈ call.laterFields, field.Short := by
    intro field member
    have bounds := call.number_of_laterFields field member
    exact ⟨by omega, by omega⟩
  obtain ⟨other, among, same⟩ := parseFields_cut short fuel kept zeros field member
  have bounds := call.number_of_laterFields other among
  omega

end APICall

/-- A record of function 1 that returned 7: two scalar fields, a tag and a value each. -/
example : wire.SerializeToString { function_id := 1, return_value := 7 } = [0x08, 1, 0x20, 7] := by
  decide

theorem wire_functionFirst : FunctionFirst wire := by
  intro call kept zeros positive inside
  obtain ⟨digits, rfl⟩ := Nat.exists_eq_succ_of_ne_zero positive.ne'
  change (APICall.parse ((encodeFields call.fields).take (digits + 1) ++
    List.replicate (zeros + 1) 0)).function_id.toNat = call.function_id.toNat % 128 ^ digits
  change digits + 1 < (encodeFields call.fields).length at inside
  rw [call.fields_eq] at inside ⊢
  by_cases zero : call.function_id.toNat = 0
  · have none : scalar 1 call.function_id.toNat = [] := if_pos zero
    rw [none, List.nil_append, APICall.parse, parseMessage, APICall.foldl_cut, zero, Nat.zero_mod]
    rfl
  · have some : scalar 1 call.function_id.toNat = [⟨1, .number call.function_id.toNat⟩] := if_neg zero
    have first : Field.encode ⟨1, .number call.function_id.toNat⟩ =
        8 :: varint call.function_id.toNat := rfl
    have bound := call.function_id.toNat_lt
    have kept_id (value : ℕ) (small : value < 2 ^ 32) : (UInt32.ofNat value).toNat = value :=
      UInt32.toNat_ofNat_of_lt small
    rw [some, List.singleton_append, encodeFields, List.flatMap_cons, ← encodeFields, first,
      List.cons_append, List.take_succ_cons]
    rw [APICall.parse, parseMessage, List.cons_append, List.length_cons]
    by_cases cut : digits < (varint call.function_id.toNat).length
    · rw [List.take_append_of_le_length cut.le,
        show (8 : UInt8) = UInt8.ofNat (1 * 8) from rfl,
        parseFields_number_cut (by decide) (by decide) cut]
      exact kept_id _ (lt_of_le_of_lt (Nat.mod_le _ _) bound)
    · obtain ⟨more, rfl⟩ := Nat.exists_eq_add_of_le (not_lt.mp cut)
      have small : call.function_id.toNat <
          128 ^ ((varint call.function_id.toNat).length + more) :=
        lt_of_lt_of_le (lt_pow_varint _) (Nat.pow_le_pow_right (by decide) (Nat.le_add_right _ _))
      rw [List.take_append, List.take_of_length_le (Nat.le_add_right _ _), Nat.add_sub_cancel_left,
        List.append_assoc, ← List.cons_append, ← first, parseFields_encode _ Nat.one_pos,
        List.foldl_cons, APICall.foldl_cut, Nat.mod_eq_of_lt small]
      exact kept_id _ bound

end DpcppTrace.Model
