import DpcppTrace.Foundation.PacketFrame
import DpcppTrace.Model.ApiCall

/-! # How recorded arguments are printed

`printArgs` of the generic printer: one line for each argument, with a label for its kind in a column
of twenty characters and the stored value read by its type.
-/

namespace DpcppTrace.Model

open Foundation

/-- The accessor of a member of the `oneof`: the default when another one is set. -/
def ArgData.int_val (arg : ArgData) : UInt64 :=
  match arg.data with
  | some (.int_val value) => value
  | _ => 0

def ArgData.str_val (arg : ArgData) : Bytes :=
  match arg.data with
  | some (.str_val value) => value
  | _ => []

/-- `"{:>20} : {}\n"`. -/
def printLine (label value : Bytes) : Bytes :=
  List.replicate (20 - label.length) 0x20 ++ label ++ str " : " ++ value ++ str "\n"

def printArg (arg : ArgData) : Bytes :=
  match arg.type with
  | .INT32 => printLine (str "<unknown>") (signedDecimal arg.int_val.toInt64.toInt32.toInt)
  | .INT64 => printLine (str "<unknown>") (signedDecimal arg.int_val.toInt64.toInt)
  | .UINT32 => printLine (str "<unknown>") (decimal arg.int_val.toUInt32.toNat)
  | .UINT64 => printLine (str "<unknown>") (decimal arg.int_val.toNat)
  | .POINTER => printLine (str "<unknown ptr>") (str "0x" ++ hexNumeral arg.int_val.toNat)
  | .STRING => printLine (str "<string>") arg.str_val

/-- `printArgs`: what it prints, one text for each argument. -/
def printArgs (args : List ArgData) : List Bytes := args.map printArg

end DpcppTrace.Model
