import DpcppTrace.Foundation.Bytes

/-! # Descriptors of device images

The messages of `tools/schemas/device_binary.proto`, the structures of PI that a descriptor is made
of, and the function that copies one into the other field by field. Pointers to text are the text, or
nothing for null; the names of entries, sets and properties are copied without a test and are never
null. Of protobuf, only that it tells different messages apart matters here.
-/

namespace DpcppTrace.Model

open Foundation

/-! ## Messages -/

/-- `OffloadEntry`. -/
structure OffloadEntry where
  address : UInt64 := 0
  name : Bytes := []
  size : UInt64 := 0
  flags : Int32 := 0
deriving DecidableEq

/-- `Property`; proto3 keeps the number of an unknown enumerator. -/
structure Property where
  name : Bytes := []
  type : Int32 := 0
  data : Bytes := []
deriving DecidableEq

/-- `PropertySet`. -/
structure PropertySet where
  name : Bytes := []
  properties : List Property := []
deriving DecidableEq

/-- `DeviceBinary`; absent fields have proto3's defaults. -/
structure DeviceBinary where
  version : UInt32 := 0
  kind : UInt32 := 0
  format : UInt32 := 0
  device_target_spec : Bytes := []
  compile_options : Bytes := []
  link_options : Bytes := []
  offload_entries : List OffloadEntry := []
  property_sets : List PropertySet := []
  manifest : Bytes := []
deriving DecidableEq

/-- Protobuf's serialiser for descriptors. -/
structure BinaryProtobuf where
  SerializeToString : DeviceBinary → Bytes
  injective : Function.Injective SerializeToString

/-! ## PI -/

/-- `_pi_offload_entry_struct`. -/
structure pi_offload_entry where
  addr : UInt64
  name : Bytes
  size : UInt64
  flags : Int32
deriving DecidableEq

/-- `_pi_device_binary_property_struct`; what `ValAddr` points to has `ValSize` bytes. -/
structure pi_device_binary_property where
  Name : Bytes
  ValAddr : Option Bytes
  type : UInt32
  ValSize : UInt64
  sized : ∀ bytes, ValAddr = some bytes → bytes.length = ValSize.toNat

/-- `_pi_device_binary_property_set_struct`. -/
structure pi_device_binary_property_set where
  Name : Bytes
  properties : List pi_device_binary_property

/-- `pi_device_binary_struct`, apart from the image itself; a manifest reaches from its start to its
end. -/
structure pi_device_binary where
  Version : UInt16
  Kind : UInt8
  Format : UInt8
  DeviceTargetSpec : Option Bytes
  CompileOptions : Option Bytes
  LinkOptions : Option Bytes
  Manifest : Option Bytes
  entries : List pi_offload_entry
  propertySets : List pi_device_binary_property_set

/-! ## The descriptor -/

def pi_offload_entry.dump (it : pi_offload_entry) : OffloadEntry where
  address := it.addr
  name := it.name
  size := it.size
  flags := it.flags

/-- A property has data only where `ValAddr` is not null. -/
def pi_device_binary_property.dump (p : pi_device_binary_property) : Property where
  name := p.Name
  type := p.type.toInt32
  data := p.ValAddr.getD []

def pi_device_binary_property_set.dump (it : pi_device_binary_property_set) : PropertySet where
  name := it.Name
  properties := it.properties.map (·.dump)

/-- The message `dumpBinaryDescriptor` fills. -/
def pi_device_binary.dump (binary : pi_device_binary) : DeviceBinary where
  version := binary.Version.toUInt32
  kind := binary.Kind.toUInt32
  format := binary.Format.toUInt32
  device_target_spec := binary.DeviceTargetSpec.getD []
  compile_options := binary.CompileOptions.getD []
  link_options := binary.LinkOptions.getD []
  offload_entries := binary.entries.map (·.dump)
  property_sets := binary.propertySets.map (·.dump)
  manifest := binary.Manifest.getD []

/-- `dumpBinaryDescriptor`: the name and the content of the file it writes. -/
def dumpBinaryDescriptor (pb : BinaryProtobuf) (binary : pi_device_binary) (idx : UInt32) :
    Bytes × Bytes :=
  let out := pb.SerializeToString binary.dump
  (decimal idx.toNat ++ str ".desc", leBytes 8 out.length ++ out)

end DpcppTrace.Model
