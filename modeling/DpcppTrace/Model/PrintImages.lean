import DpcppTrace.Model.DeviceBinaryWire
import DpcppTrace.Model.SelectBinary
import DpcppTrace.Model.TraceListing

/-! # Printing the device images

`printTrace` prints the descriptors of the trace directory before the traces, one after another in the
order in which they are listed. Protobuf reads a message from a buffer with one more byte than was
written, which is zero.
-/

namespace DpcppTrace.Model

open Foundation IStream

/-- Protobuf's parser of descriptors; a zero byte behind the message ends it. -/
structure BinaryParser (pb : BinaryProtobuf) where
  ParseFromString : Bytes → DeviceBinary
  parse_zero : ∀ dump, ParseFromString (pb.SerializeToString dump ++ [0]) = dump

def binaryWireParser : BinaryParser binaryWire where
  ParseFromString := DeviceBinary.parse
  parse_zero dump := by
    change DeviceBinary.parse (Wire.encodeFields dump.fields ++ [0]) = dump
    rw [DeviceBinary.parse, Wire.parseMessage_encodeFields dump.fields dump.fields_positive [0] rfl,
      DeviceBinary.foldl_fields]

/-- The constants of `pi_device_binary_type`. -/
def ImageFormat.ofByte (value : UInt8) : ImageFormat :=
  if value = 0 then .PI_DEVICE_BINARY_TYPE_NONE
  else if value = 1 then .PI_DEVICE_BINARY_TYPE_NATIVE
  else if value = 2 then .PI_DEVICE_BINARY_TYPE_SPIRV
  else if value = 3 then .PI_DEVICE_BINARY_TYPE_LLVMIR_BITCODE
  else .other value

/-! ## The text of a descriptor -/

/-- `"{:>n}Label: {}\n"`, the column being filled with blanks. -/
def labelLine (column : ℕ) (label : String) (value : Bytes) : Bytes :=
  List.replicate column 0x20 ++ str label ++ str ": " ++ value ++ str "\n"

/-- `"{:>n}Label [{}]:\n"`. -/
def countLine (column : ℕ) (label : String) (count : ℕ) : Bytes :=
  List.replicate column 0x20 ++ str label ++ str " [" ++ decimal count ++ str "]:\n"

/-- Other formats have no line. -/
def ImageFormat.text : ImageFormat → Bytes
  | .PI_DEVICE_BINARY_TYPE_SPIRV => labelLine 0 "Format" (str "SPIR-V")
  | .PI_DEVICE_BINARY_TYPE_NATIVE => labelLine 0 "Format" (str "Native")
  | .PI_DEVICE_BINARY_TYPE_LLVMIR_BITCODE => labelLine 0 "Format" (str "LLVM IR Bitcode")
  | .PI_DEVICE_BINARY_TYPE_NONE => labelLine 0 "Format" (str "None")
  | .other _ => []

def OffloadEntry.text (entry : OffloadEntry) : Bytes :=
  labelLine 5 "Address" (decimal entry.address.toNat) ++ labelLine 5 "Name" entry.name ++
    labelLine 5 "Size" (decimal entry.size.toNat)

/-- Only the value of a string is shown, and an unknown type has no line. -/
def Property.text (prop : Property) : Bytes :=
  let type := prop.type.toUInt32
  labelLine 10 "Name" prop.name ++ labelLine 10 "Size" (decimal prop.data.length) ++
    if type = 0 then labelLine 10 "Type" (str "UNKNOWN")
    else if type = 1 then labelLine 10 "Type" (str "uint32")
    else if type = 2 then labelLine 10 "Type" (str "byte array")
    else if type = 3 then labelLine 10 "Type" (str "string") ++ labelLine 10 "Value" prop.data
    else []

def PropertySet.text (propSet : PropertySet) : Bytes :=
  labelLine 5 "Name" propSet.name ++ countLine 5 "Properties" propSet.properties.length ++
    propSet.properties.flatMap Property.text

/-- What `printImageDesc` prints of a message. -/
def DeviceBinary.text (path : Bytes) (binary : DeviceBinary) : Bytes :=
  labelLine 0 "Image desc" path ++ labelLine 0 "Version" (decimal binary.version.toNat) ++
    labelLine 0 "Kind" (decimal binary.kind.toNat) ++
    (ImageFormat.ofByte binary.format.toUInt8).text ++
    labelLine 0 "Device target" binary.device_target_spec ++
    labelLine 0 "Compile options" binary.compile_options ++
    labelLine 0 "Link options" binary.link_options ++
    countLine 0 "Offload entries" binary.offload_entries.length ++
    binary.offload_entries.flatMap OffloadEntry.text ++
    countLine 0 "Property sets" binary.property_sets.length ++
    binary.property_sets.flatMap PropertySet.text ++ str "\n"

/-! ## Reading descriptors -/

/-- `printImageDesc`; `junk` is what the size holds before it is read. A buffer that no string can
have is an exception. -/
def printImageDesc (parse : Bytes → DeviceBinary) (junk : ℕ) (path : Bytes) (is : IStream) :
    Option Bytes :=
  let (delivered, is) := is.read 8
  let size := ofLe (overlay (leBytes 8 junk) delivered)
  let length := (size + 1) % 2 ^ 64
  if 2 ^ 63 ≤ length then none
  else
    -- The size that wraps to an empty buffer is a negative count, of which nothing is read.
    let (image, _) := is.read (if length = 0 then 0 else size)
    let rawImg := overlay (List.replicate length 0) image
    some ((parse rawImg).text path)

def kDescExt : Bytes := str ".desc"

/-- `operator/` of a path with a plain name. -/
def appendName (input name : Bytes) : Bytes :=
  if input = [] ∨ input.getLast? = some slash then input ++ name else input ++ slash :: name

/-- The content of a file of the trace directory: what was written to it last. -/
def storedAt (files : List (Bytes × Bytes)) (name : Bytes) : Option Bytes :=
  (files.reverse.find? fun file => file.1 = name).map Prod.snd

/-- What `printTrace` prints of the descriptors, a text for each. -/
def printImages (parse : Bytes → DeviceBinary) (junk : Bytes → ℕ) (input : Bytes)
    (files : List (Bytes × Bytes)) (listing : List Bytes) : Option (List Bytes) :=
  (listing.filter fun file => extension file = kDescExt).mapM fun file =>
    printImageDesc parse (junk file) (appendName input file) (.opened (storedAt files file))

end DpcppTrace.Model
