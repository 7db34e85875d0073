import DpcppTrace.Model.DeviceBinaryWire

/-! # What can be recovered from a descriptor

Every field is copied into a field of its own, each list in order, so equal files come from binaries
that agree in everything that was copied. A property without data is the exception: the value that PI
keeps in the size of such a property is not copied, and neither is whether there was a pointer.
-/

namespace DpcppTrace.Soundness

open Foundation Model

/-- The value of a property, in the size when there is no pointer. -/
inductive PropertyValue where
  | inSize (value : UInt64)
  | bytes (value : Bytes)
deriving DecidableEq

def propertyValue (p : pi_device_binary_property) : PropertyValue :=
  match p.ValAddr with
  | none => .inSize p.ValSize
  | some bytes => .bytes bytes

/-- Name, type and value of a property. -/
def propertyView (p : pi_device_binary_property) : Bytes × UInt32 × PropertyValue :=
  (p.Name, p.type, propertyValue p)

/-- Name and properties of a set. -/
def setView (it : pi_device_binary_property_set) : Bytes × List (Bytes × UInt32 × PropertyValue) :=
  (it.Name, it.properties.map propertyView)

/-- Two binaries are the same in everything a descriptor is about, null and empty strings being the
same. -/
structure SameImage (first second : pi_device_binary) : Prop where
  version : first.Version = second.Version
  kind : first.Kind = second.Kind
  format : first.Format = second.Format
  target : first.DeviceTargetSpec.getD [] = second.DeviceTargetSpec.getD []
  compile : first.CompileOptions.getD [] = second.CompileOptions.getD []
  link : first.LinkOptions.getD [] = second.LinkOptions.getD []
  manifest : first.Manifest.getD [] = second.Manifest.getD []
  entries : first.entries = second.entries
  properties : first.propertySets.map setView = second.propertySets.map setView

/-- The file tells the binary from all that are not the same. -/
def Recoverable (pb : BinaryProtobuf) (idx : UInt32) (binary : pi_device_binary) : Prop :=
  ∀ other, dumpBinaryDescriptor pb other idx = dumpBinaryDescriptor pb binary idx →
    SameImage other binary

/-- A property whose value is in memory, at least one byte of it. -/
def HasData (p : pi_device_binary_property) : Prop := ∃ data, p.ValAddr = some data ∧ data ≠ []

/-! ## From the file to the message -/

private theorem dump_of_file {pb : BinaryProtobuf} {idx : UInt32} {first second : pi_device_binary}
    (same : dumpBinaryDescriptor pb first idx = dumpBinaryDescriptor pb second idx) :
    first.dump = second.dump := by
  have content := (Prod.mk.inj same).2
  have width : (leBytes 8 (pb.SerializeToString first.dump).length).length =
      (leBytes 8 (pb.SerializeToString second.dump).length).length := by
    rw [leBytes_length, leBytes_length]
  exact pb.injective (List.append_inj content width).2

/-! ## From the message to the binary -/

/-- Lists that one function maps to the same are mapped to the same by any function that the first
determines on the second list. -/
theorem map_eq_of_determined {α β γ : Type} {image : α → β} {view : α → γ} {first second : List α}
    (determined : ∀ known ∈ second, ∀ other, image other = image known → view other = view known)
    (same : first.map image = second.map image) : first.map view = second.map view := by
  induction second generalizing first with
  | nil =>
    obtain rfl := List.map_eq_nil_iff.mp same
    rfl
  | cons known second ih =>
    obtain ⟨other, rest, rfl, here, later⟩ := List.map_eq_cons_iff.mp same
    obtain ⟨front, behind⟩ := List.forall_mem_cons.mp determined
    rw [List.map_cons, List.map_cons, front other here, ih behind later]

private theorem propertyView_of_dump {p other : pi_device_binary_property} (data : HasData p)
    (same : other.dump = p.dump) : propertyView other = propertyView p := by
  obtain ⟨bytes, stored, some⟩ := data
  obtain ⟨name, type, value⟩ := Property.mk.inj same
  have sameType : other.type = p.type := congrArg Int32.toUInt32 type
  rw [stored, Option.getD_some] at value
  have present : other.ValAddr = Option.some bytes := by
    rcases address : other.ValAddr with _ | found
    · rw [address, Option.getD_none] at value
      exact absurd value.symm some
    · rw [address, Option.getD_some] at value
      rw [value]
  simp only [propertyView, propertyValue, stored, present, name, sameType]

private theorem setView_of_dump {it other : pi_device_binary_property_set}
    (data : ∀ p ∈ it.properties, HasData p) (same : other.dump = it.dump) :
    setView other = setView it := by
  obtain ⟨name, properties⟩ := PropertySet.mk.inj same
  have views : other.properties.map propertyView = it.properties.map propertyView :=
    map_eq_of_determined (fun p member other => propertyView_of_dump (data p member)) properties
  exact Prod.ext name views

private theorem dump_entry_injective : Function.Injective pi_offload_entry.dump := by
  rintro ⟨addr, name, size, flags⟩ ⟨addr', name', size', flags'⟩ same
  cases same
  rfl

private theorem sameImage_of_dump {binary other : pi_device_binary}
    (data : ∀ it ∈ binary.propertySets, ∀ p ∈ it.properties, HasData p)
    (same : other.dump = binary.dump) : SameImage other binary := by
  obtain ⟨version, kind, format, target, compile, link, entries, sets, manifest⟩ :=
    DeviceBinary.mk.inj same
  refine ⟨?_, ?_, ?_, target, compile, link, manifest, ?_, ?_⟩
  · exact UInt16.toUInt32_inj.mp version
  · exact UInt8.toUInt32_inj.mp kind
  · exact UInt8.toUInt32_inj.mp format
  · exact dump_entry_injective.list_map entries
  · exact map_eq_of_determined (fun it member other => setView_of_dump (data it member)) sets

/-! ## A value that is not copied -/

/-- Another property with the same name and type and no data. -/
def sizeProperty (p : pi_device_binary_property) (value : UInt64) : pi_device_binary_property where
  Name := p.Name
  ValAddr := none
  type := p.type
  ValSize := value
  sized _ present := Option.noConfusion rfl (heq_of_eq present)

/-- A property without data has the dump of one with another value. -/
theorem exists_same_dump {p : pi_device_binary_property} (empty : ¬HasData p) :
    ∃ other : pi_device_binary_property, other.dump = p.dump ∧ propertyView other ≠ propertyView p := by
  rcases address : p.ValAddr with _ | bytes
  · refine ⟨sizeProperty p (p.ValSize + 1), ?_, fun same => ?_⟩
    · simp [pi_device_binary_property.dump, sizeProperty, address]
    · simp [propertyView, propertyValue, sizeProperty, address] at same
  · have nothing : bytes = [] := by_contra fun some => empty ⟨bytes, address, some⟩
    refine ⟨sizeProperty p 0, ?_, fun same => ?_⟩
    · simp [pi_device_binary_property.dump, sizeProperty, address, nothing]
    · simp [propertyView, propertyValue, sizeProperty, address] at same

/-- The binary with another property in the place of one of its own. -/
theorem exists_same_file {binary : pi_device_binary} {it : pi_device_binary_property_set}
    (setIn : it ∈ binary.propertySets) {p : pi_device_binary_property} (member : p ∈ it.properties)
    (empty : ¬HasData p) :
    ∃ other : pi_device_binary, other.dump = binary.dump ∧ ¬SameImage other binary := by
  obtain ⟨replaced, alike, differs⟩ := exists_same_dump empty
  obtain ⟨before, after, split⟩ := List.append_of_mem setIn
  obtain ⟨front, back, parts⟩ := List.append_of_mem member
  let changed : pi_device_binary_property_set := { it with properties := front ++ replaced :: back }
  have sameSet : changed.dump = it.dump := by
    simp [changed, pi_device_binary_property_set.dump, parts, alike]
  refine ⟨{ binary with propertySets := before ++ changed :: after }, ?_, fun same => differs ?_⟩
  · simp [pi_device_binary.dump, split, sameSet]
  · have views := same.properties
    rw [split, List.map_append, List.map_append, List.append_right_inj, List.map_cons, List.map_cons]
      at views
    have properties := (Prod.mk.inj (List.cons.inj views).1).2
    rw [parts, List.map_append, List.map_append, List.append_right_inj] at properties
    exact (List.cons.inj properties).1

/-- A binary can be recovered from its descriptor, up to null and empty strings, exactly if every
property of its property sets has data. -/
theorem descriptor_recoverable_iff (pb : BinaryProtobuf) (idx : UInt32) (binary : pi_device_binary) :
    Recoverable pb idx binary ↔
      ∀ it ∈ binary.propertySets, ∀ p ∈ it.properties, HasData p := by
  constructor
  · intro recoverable it setIn p member
    by_contra empty
    obtain ⟨other, same, differs⟩ := exists_same_file setIn member empty
    have file : dumpBinaryDescriptor pb other idx = dumpBinaryDescriptor pb binary idx := by
      rw [dumpBinaryDescriptor, dumpBinaryDescriptor, same]
    exact differs (recoverable other file)
  · intro data other file
    exact sameImage_of_dump data (dump_of_file file)

/-- An image with one property of type `uint32`, whose value is in its size. -/
def maskImage (value : UInt64) : pi_device_binary where
  Version := 2
  Kind := 4
  Format := 0
  DeviceTargetSpec := str "spir64"
  CompileOptions := none
  LinkOptions := none
  Manifest := none
  entries := []
  propertySets :=
    [⟨str "SYCL/devicelib req mask",
      [sizeProperty ⟨str "DeviceLibReqMask", none, 1, 0, fun _ => by rintro ⟨⟩⟩ value]⟩]

/-- The required libraries 1 and 2 are written alike. -/
theorem not_descriptor_recoverable :
    ¬∀ (pb : BinaryProtobuf) (idx : UInt32) (binary : pi_device_binary),
      Recoverable pb idx binary := by
  intro always
  have same := always binaryWire 0 (maskImage 1) (maskImage 2) rfl
  have views := same.properties
  simp [maskImage, setView, propertyView, propertyValue, sizeProperty] at views

end DpcppTrace.Soundness
