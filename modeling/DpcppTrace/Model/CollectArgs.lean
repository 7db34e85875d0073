import DpcppTrace.Model.ApiCall

/-! # How the recorder stores the arguments of a call

`collectArgs` picks the stored type by tests on the deduced template parameter. Every handler
passes named variables, and for those the parameter is deduced as a reference: neither the string
test nor the unsigned test holds of a reference type, so the pointer and signed branches are taken.
-/

namespace DpcppTrace.Model

open Foundation

/-- An argument of a PI call; a string argument is its address and the characters there, and an
enumeration is the integer of its underlying type, which a named variable stores in the same way. -/
inductive Argument where
  | string (address : UInt64) (text : Bytes)
  | pointer (address : UInt64)
  | uint32 (value : UInt32)
  | int32 (value : Int32)
  | uint64 (value : UInt64)
  | int64 (value : Int64)
deriving DecidableEq

/-- One step of `collectArgs`; `reference` says that the parameter was deduced as a reference. -/
def collectArg (reference : Bool) : Argument → ArgData
  | .string address text =>
    if reference then { type := .POINTER, data := some (.int_val address) }
    else { type := .STRING, data := some (.str_val text) }
  | .pointer address => { type := .POINTER, data := some (.int_val address) }
  | .uint32 value =>
    { type := if reference then .INT32 else .UINT32, data := some (.int_val value.toUInt64) }
  | .int32 value => { type := .INT32, data := some (.int_val value.toInt64.toUInt64) }
  | .uint64 value =>
    { type := if reference then .INT64 else .UINT64, data := some (.int_val value) }
  | .int64 value => { type := .INT64, data := some (.int_val value.toUInt64) }

/-- `collectArgs` as the handlers call it. -/
def collectArgs (args : List Argument) : List ArgData := args.map (collectArg true)

/-- What every handler stores first: the function id, the times, the plugin's result and the
arguments. -/
def callRecord (funcId : UInt32) (timeBegin timeEnd : UInt64) (res : Int32)
    (args : List Argument) : APICall :=
  { function_id := funcId
    time_start := timeBegin
    time_end := timeEnd
    return_value := res.toUInt32
    args := collectArgs args }

end DpcppTrace.Model
