import DpcppTrace.Foundation.Bytes

/-! # The recorded API call

The messages of `tools/schemas/api_call.proto`. A trace stores one `APICall` for each call of the
traced program. Protobuf itself is outside the repository: it enters as a serialiser and a parser
related by the one fact both readers of a trace rely on. They hand the parser a buffer one byte
longer than the record and ignore its verdict, so a record followed by one zero byte must leave
the fields of the record set.
-/

namespace DpcppTrace.Model

open Foundation

/-- `ArgData.ArgType`. -/
inductive ArgType where
  | INT32 | INT64 | UINT32 | UINT64 | POINTER | STRING
deriving DecidableEq, Repr

/-- `ArgData.data`, the members of the `oneof`. -/
inductive ArgValue where
  | int_val (value : UInt64)
  | str_val (value : Bytes)
deriving DecidableEq, Repr

/-- `ArgData`. -/
structure ArgData where
  type : ArgType := .INT32
  data : Option ArgValue := none
deriving DecidableEq, Repr

/-- `APICall`; absent fields have proto3's defaults. -/
structure APICall where
  function_id : UInt32 := 0
  time_start : UInt64 := 0
  time_end : UInt64 := 0
  return_value : UInt32 := 0
  args : List ArgData := []
  small_inputs : List Bytes := []
  small_outputs : List Bytes := []
  mem_obj_inputs : List Bytes := []
  mem_obj_outputs : List Bytes := []
deriving DecidableEq, Repr

instance : Inhabited APICall := ⟨{}⟩

/-- Protobuf's serialiser and parser for `APICall`. -/
structure Protobuf where
  SerializeToString : APICall → Bytes
  ParseFromString : Bytes → APICall
  parse_zero : ∀ call, ParseFromString (SerializeToString call ++ [0]) = call

end DpcppTrace.Model
