import Mathlib.Data.Set.List
import DpcppTrace.Model.PrintImages
import DpcppTrace.Soundness.SelectBinary

/-! # What is printed of the device images

Whichever thread comes to collect the images of a program, the descriptors that it writes are read back
by their names, and every image is described once, as it was handed over.
-/

namespace DpcppTrace.Soundness

open Foundation Model SelectBinary IStream

/-! ## Reading a descriptor -/

/-- The file of a message is printed as the message. -/
theorem printImageDesc_stored {pb : BinaryProtobuf} (parser : BinaryParser pb) (junk : ℕ) (path : Bytes)
    (dump : DeviceBinary) (small : (pb.SerializeToString dump).length < 2 ^ 63 - 1) :
    printImageDesc parser.ParseFromString junk path (.opened (some
      (leBytes 8 (pb.SerializeToString dump).length ++ pb.SerializeToString dump))) =
        some (dump.text path) := by
  have readSize := read_enough (leBytes 8 (pb.SerializeToString dump).length)
    (pb.SerializeToString dump) false
  have readImage := read_enough (pb.SerializeToString dump) [] false
  rw [leBytes_length] at readSize
  rw [List.append_nil] at readImage
  have size : ofLe (overlay (leBytes 8 junk) (leBytes 8 (pb.SerializeToString dump).length)) =
      (pb.SerializeToString dump).length := ofLe_overlay 8 junk (by omega)
  have whole : ((pb.SerializeToString dump).length + 1) % 2 ^ 64 =
      (pb.SerializeToString dump).length + 1 := Nat.mod_eq_of_lt (by omega)
  have room : ¬2 ^ 63 ≤ (pb.SerializeToString dump).length + 1 := by omega
  have buffer := overlay_replicate (pb.SerializeToString dump) 1 0
  simp only [printImageDesc, opened, readSize, size, whole, if_neg room, Nat.add_one_ne_zero, if_false,
    readImage, buffer]
  exact congrArg (fun message : DeviceBinary => some (message.text path)) (parser.parse_zero dump)

/-! ## The names of the files -/

/-- The file of the descriptor of image `i`. -/
def descFile (i : ℕ) : Bytes := decimal i ++ kDescExt

private theorem slash_notMem_decimal (i : ℕ) : slash ∉ decimal i := fun member =>
  absurd (digit_of_mem_decimal member).1 (by decide)

private theorem decimal_ne_nil (i : ℕ) : decimal i ≠ [] := by
  rw [decimal]
  split
  · exact List.cons_ne_nil _ _
  · rename_i positive
    simpa [List.map_eq_nil_iff] using Nat.digits_ne_nil_iff_ne_zero.mpr positive

private theorem extension_descFile (i : ℕ) : extension (descFile i) = kDescExt :=
  extension_dotted (decimal_ne_nil i) (slash_notMem_decimal i) (by decide) (by decide) (by decide)

private theorem descFile_injective : Function.Injective descFile := fun _ _ same =>
  (decimal_append_inj (by decide) (by decide) same).1

/-- The name of the file of the image itself. -/
def binaryFile (i : ℕ) (image : DeviceImage) : Bytes :=
  decimal i ++ str "_" ++ image.DeviceTargetSpec ++ image.Format.extension

/-- The numbers in front are followed by different marks. -/
theorem binaryFile_ne_descFile (i j : ℕ) (image : DeviceImage) : binaryFile i image ≠ descFile j := by
  intro same
  rw [binaryFile, List.append_assoc, List.append_assoc] at same
  have mark := (decimal_append_inj (by decide) (by decide) same).2.1
  cases mark

/-- No image is taken for a descriptor, unless it has an unknown format and the name of one for its
target. -/
theorem extension_binaryFile {image : DeviceImage} (plain : ¬kDescExt <:+ image.DeviceTargetSpec)
    (i : ℕ) : extension (binaryFile i image) ≠ kDescExt := by
  intro same
  have ends : kDescExt <:+ decimal i ++ 0x5f :: (image.DeviceTargetSpec ++ image.Format.extension) := by
    have suffix := extension_suffix (binaryFile i image)
    rw [same, binaryFile, List.append_assoc, List.append_assoc] at suffix
    exact suffix
  have behind : kDescExt <:+ image.DeviceTargetSpec ++ image.Format.extension := by
    rcases List.suffix_or_suffix_of_suffix ends (List.suffix_append _ _) with inside | outside
    · rcases List.suffix_cons_iff.mp inside with whole | inside
      · cases whole
      · exact inside
    · exact absurd (outside.mem List.mem_cons_self) (by decide)
  have known {ext : Bytes} (format : image.Format.extension = ext) (longer : ¬kDescExt <:+ ext)
      (shorter : ¬ext <:+ kDescExt) : False := by
    rw [format] at behind
    rcases List.suffix_or_suffix_of_suffix behind (List.suffix_append _ _) with inside | outside
    · exact longer inside
    · exact shorter outside
  cases format : image.Format with
  | other value =>
    rw [format, ImageFormat.extension, List.append_nil] at behind
    exact plain behind
  | _ => exact known (by rw [format]) (by decide) (by decide)

/-! ## The files of a dump -/

section Dump

variable {images : List DeviceImage} {i : ℕ} {name content : Bytes}

/-- The content of the file of a descriptor. -/
def descriptorBytes (image : DeviceImage) : Bytes :=
  leBytes 8 image.descriptor.length ++ image.descriptor

private theorem mem_dumpFrom : (name, content) ∈ dumpFrom 0 images ↔ ∃ i image, images[i]? = some image ∧
    ((name = binaryFile i image ∧ content = image.binary) ∨
      (name = descFile i ∧ content = descriptorBytes image)) := by
  simp only [dumpFrom, List.mem_flatMap, Prod.exists, List.mem_zipIdx_iff_getElem?]
  constructor
  · rintro ⟨image, i, at_, member⟩
    refine ⟨i, image, at_, ?_⟩
    simpa [imageFiles, binaryFile, descFile, kDescExt, descriptorBytes] using member
  · rintro ⟨i, image, at_, same⟩
    refine ⟨image, i, at_, ?_⟩
    simpa [imageFiles, binaryFile, descFile, kDescExt, descriptorBytes] using same

/-- Under the name of a descriptor there is only the descriptor. -/
theorem storedAt_descFile {image : DeviceImage} (at_ : images[i]? = some image) :
    storedAt (dumpFrom 0 images) (descFile i) = some (descriptorBytes image) := by
  have listed : (descFile i, descriptorBytes image) ∈ dumpFrom 0 images :=
    mem_dumpFrom.mpr ⟨i, image, at_, .inr ⟨rfl, rfl⟩⟩
  rw [storedAt]
  cases found : (dumpFrom 0 images).reverse.find? fun file => file.1 = descFile i with
  | none =>
    have missed := List.find?_eq_none.mp found _ (List.mem_reverse.mpr listed)
    simp at missed
  | some file =>
    obtain ⟨name, content⟩ := file
    have member := List.mem_reverse.mp (List.mem_of_find?_eq_some found)
    obtain rfl : name = descFile i := by simpa using List.find?_some found
    obtain ⟨j, other, there, ⟨same, -⟩ | ⟨same, rfl⟩⟩ := mem_dumpFrom.mp member
    · exact absurd same.symm (binaryFile_ne_descFile _ _ _)
    · obtain rfl := descFile_injective same
      rw [Option.map_some, Option.some.inj (there.symm.trans at_)]

end Dump

/-! ## What is printed -/

/-- The image of a call is this binary. -/
structure ImageOf (pb : BinaryProtobuf) (image : DeviceImage) (binary : pi_device_binary) : Prop where
  format : image.Format = .ofByte binary.Format
  target : binary.DeviceTargetSpec = some image.DeviceTargetSpec
  descriptor : image.descriptor = pb.SerializeToString binary.dump

/-- The text about image `i`. -/
def imageText (input : Bytes) (i : ℕ) (binary : pi_device_binary) : Bytes :=
  binary.dump.text (appendName input (descFile i))

section Listing

variable {images : List DeviceImage} {listing : List Bytes}

/-- The descriptors are listed once each, in some order. -/
theorem descriptors_listed (plain : ∀ image ∈ images, ¬kDescExt <:+ image.DeviceTargetSpec)
    (distinct : listing.Nodup) (complete : ∀ file, extension file = kDescExt →
      (file ∈ listing ↔ ∃ content, (file, content) ∈ dumpFrom 0 images)) :
    ∃ order : List ℕ, order.Perm (List.range images.length) ∧
      (listing.filter fun file => extension file = kDescExt) = order.map descFile := by
  have present (i : ℕ) : descFile i ∈ listing ↔ i < images.length := by
    rw [complete _ (extension_descFile i)]
    constructor
    · rintro ⟨content, member⟩
      obtain ⟨j, other, there, ⟨same, -⟩ | ⟨same, -⟩⟩ := mem_dumpFrom.mp member
      · exact absurd same.symm (binaryFile_ne_descFile _ _ _)
      · obtain rfl := descFile_injective same
        exact (List.getElem?_eq_some_iff.mp there).1
    · intro inside
      exact ⟨_, mem_dumpFrom.mpr ⟨i, _, List.getElem?_eq_getElem inside, .inr ⟨rfl, rfl⟩⟩⟩
  have range : (listing.filter fun file => extension file = kDescExt) ∈
      Set.range (List.map descFile) := by
    rw [Set.range_list_map]
    intro file member
    obtain ⟨listed, described⟩ := List.mem_filter.mp member
    have described := of_decide_eq_true described
    obtain ⟨content, stored⟩ := (complete file described).mp listed
    obtain ⟨i, image, at_, ⟨rfl, -⟩ | ⟨rfl, -⟩⟩ := mem_dumpFrom.mp stored
    · exact absurd described (extension_binaryFile (plain image (List.mem_of_getElem? at_)) i)
    · exact ⟨i, rfl⟩
  obtain ⟨order, files⟩ := range
  refine ⟨order, ?_, files.symm⟩
  have once : order.Nodup := by
    apply List.Nodup.of_map descFile
    rw [files]
    exact distinct.filter _
  apply (List.perm_ext_iff_of_nodup once List.nodup_range).mpr
  intro i
  rw [List.mem_range, ← present, ← List.mem_map_of_injective descFile_injective, files,
    List.mem_filter]
  simp [extension_descFile]

private theorem mapM_of_forall {α β : Type} {f : α → Option β} {g : α → β} {values : List α}
    (each : ∀ value ∈ values, f value = some (g value)) : values.mapM f = some (values.map g) := by
  induction values with
  | nil => rfl
  | cons value values ih =>
    obtain ⟨here, behind⟩ := List.forall_mem_cons.mp each
    rw [List.mapM_cons, here, ih behind]
    rfl

/-- The descriptors of a dump are printed once each. -/
theorem printImages_dump {pb : BinaryProtobuf} (parser : BinaryParser pb) (junk : Bytes → ℕ)
    (input : Bytes) {binaries : List pi_device_binary}
    (described : List.Forall₂ (ImageOf pb) images binaries)
    (small : ∀ image ∈ images, image.descriptor.length < 2 ^ 63 - 1)
    (plain : ∀ image ∈ images, ¬kDescExt <:+ image.DeviceTargetSpec) (distinct : listing.Nodup)
    (complete : ∀ file, extension file = kDescExt →
      (file ∈ listing ↔ ∃ content, (file, content) ∈ dumpFrom 0 images)) :
    ∃ printed, printImages parser.ParseFromString junk input (dumpFrom 0 images) listing =
        some printed ∧ printed.Perm (binaries.mapIdx (imageText input)) := by
  obtain ⟨order, whole, files⟩ := descriptors_listed plain distinct complete
  let text (i : ℕ) : Bytes := (binaries[i]?.map (imageText input i)).getD []
  have each : ∀ i ∈ order, printImageDesc parser.ParseFromString (junk (descFile i))
      (appendName input (descFile i)) (.opened (storedAt (dumpFrom 0 images) (descFile i))) =
        some (text i) := by
    intro i member
    have inside : i < images.length := List.mem_range.mp (whole.subset member)
    have paired : i < binaries.length := described.length_eq ▸ inside
    have here : ImageOf pb images[i] binaries[i] := described.get inside paired
    rw [storedAt_descFile (List.getElem?_eq_getElem inside), descriptorBytes, here.descriptor,
      printImageDesc_stored parser _ _ _ (here.descriptor ▸ small _ (List.getElem_mem inside))]
    simp only [text, List.getElem?_eq_getElem paired, Option.map_some, Option.getD_some, imageText]
  refine ⟨order.map text, ?_, ?_⟩
  · rw [printImages, files, List.mapM_map]
    exact mapM_of_forall each
  · have all : (List.range images.length).map text = binaries.mapIdx (imageText input) := by
      apply List.ext_getElem
      · simp [described.length_eq]
      · intro i inside paired
        rw [List.length_mapIdx] at paired
        simp only [List.getElem_map, List.getElem_range, List.getElem_mapIdx, text,
          List.getElem?_eq_getElem paired, Option.map_some, Option.getD_some]
    rw [← all]
    exact whole.map text

end Listing

section Run

variable {Thread : Type} [DecidableEq Thread] {calls : Thread → List SelectBinary}
  {schedule : List Thread} {s : State Thread}

/-- Once all calls have returned, the images of one of them have been dumped. -/
theorem dumped_of_finished (ran : (machine Thread).run (initial calls) schedule = some s)
    (finished : s.finished) {thread : Thread} (called : calls thread ≠ []) :
    ∃ source, ∃ call ∈ calls source, s.files = dumpFrom 0 call.images := by
  have consistent := consistent_of_run ran
  have set := consistent.flagged.returned thread (by rw [finished thread]; exact called.symm)
  cases consistent.progress with
  | none unset _ _ =>
    rw [set] at unset
    cases unset
  | dumping writer call rest _ _ waiting _ _ _ =>
    rw [finished writer] at waiting
    cases waiting
  | dumped source call _ _ _ made written => exact ⟨source, call, made, written⟩

/-- Whatever order the threads of a program take turns in, and whatever order the trace directory is
listed in, the images of one of their calls are described, each once and as it was handed over. -/
theorem images_printed {pb : BinaryProtobuf} (parser : BinaryParser pb) (junk : Bytes → ℕ)
    (input : Bytes) (binariesOf : SelectBinary → List pi_device_binary)
    (ran : (machine Thread).run (initial calls) schedule = some s) (finished : s.finished)
    (called : ∃ thread, calls thread ≠ [])
    (described : ∀ thread, ∀ call ∈ calls thread,
      List.Forall₂ (ImageOf pb) call.images (binariesOf call))
    (small : ∀ thread, ∀ call ∈ calls thread, ∀ image ∈ call.images,
      image.descriptor.length < 2 ^ 63 - 1)
    (plain : ∀ thread, ∀ call ∈ calls thread, ∀ image ∈ call.images,
      ¬kDescExt <:+ image.DeviceTargetSpec)
    (listing : List Bytes) (distinct : listing.Nodup)
    (complete : ∀ file, extension file = kDescExt →
      (file ∈ listing ↔ ∃ content, (file, content) ∈ s.files)) :
    ∃ source, ∃ call ∈ calls source, ∃ printed,
      printImages parser.ParseFromString junk input s.files listing = some printed ∧
        printed.Perm ((binariesOf call).mapIdx (imageText input)) := by
  obtain ⟨thread, called⟩ := called
  obtain ⟨source, call, made, written⟩ := dumped_of_finished ran finished called
  rw [written] at complete ⊢
  obtain ⟨printed, reads, once⟩ := printImages_dump parser junk input (described source call made)
    (small source call made) (plain source call made) distinct complete
  exact ⟨source, call, made, printed, reads, once⟩

end Run

/-- An image for SPIR-V devices without entries and properties. -/
def spirvBinary : pi_device_binary where
  Version := 1
  Kind := 4
  Format := 2
  DeviceTargetSpec := some (str "spir64")
  CompileOptions := some (str "-g")
  LinkOptions := none
  Manifest := none
  entries := []
  propertySets := []

/-- The image with its descriptor on the wire. -/
def spirvSelect : SelectBinary :=
  { sampleSelect with
    images := [⟨.PI_DEVICE_BINARY_TYPE_SPIRV, str "spir64", [3, 2, 0x23, 7],
      binaryWire.SerializeToString spirvBinary.dump⟩]
    counted := rfl }

/-- Two threads hand over the same image, and it is printed once. -/
theorem images_printed_two :
    ∃ s : State Bool, (machine Bool).run (initial fun _ => [spirvSelect])
        (List.replicate 8 false ++ List.replicate 2 true) = some s ∧
      printImages binaryWireParser.ParseFromString (fun _ => 7) (str "/trace") s.files
        [str "0.desc", str "0_spir64.spv"] = some [imageText (str "/trace") 0 spirvBinary] := by
  obtain ⟨s, ran, finished, written⟩ : ∃ s, (machine Bool).run (initial fun _ => [spirvSelect])
      (List.replicate 8 false ++ List.replicate 2 true) = some s ∧
      (∀ thread, s.pending thread = []) ∧ s.files = dumpFrom 0 spirvSelect.images :=
    ⟨_, rfl, by decide, rfl⟩
  have own {call : SelectBinary} (member : call ∈ [spirvSelect]) : call = spirvSelect :=
    List.mem_singleton.mp member
  have complete : ∀ file, extension file = kDescExt → (file ∈ [str "0.desc", str "0_spir64.spv"] ↔
      ∃ content, (file, content) ∈ s.files) := by
    intro file _
    rw [written]
    constructor
    · intro member
      simp only [List.mem_cons, List.not_mem_nil, or_false] at member
      rcases member with rfl | rfl
      · exact ⟨_, List.mem_cons_of_mem _ List.mem_cons_self⟩
      · exact ⟨_, List.mem_cons_self⟩
    · rintro ⟨content, member⟩
      obtain ⟨i, image, at_, names⟩ := mem_dumpFrom.mp member
      obtain ⟨inside, rfl⟩ := List.getElem?_eq_some_iff.mp at_
      obtain rfl : i = 0 := Nat.lt_one_iff.mp inside
      rcases names with ⟨rfl, -⟩ | ⟨rfl, -⟩
      · exact List.mem_cons_of_mem _ (List.mem_singleton.mpr rfl)
      · exact List.mem_cons_self
  obtain ⟨source, call, made, printed, reads, once⟩ := images_printed binaryWireParser (fun _ => 7)
    (str "/trace") (fun _ => [spirvBinary]) ran finished ⟨true, List.cons_ne_nil _ _⟩
    (fun _ call member => by
      rw [own member]
      exact .cons ⟨rfl, rfl, rfl⟩ .nil)
    (fun _ call member image listed => by
      rw [own member] at listed
      obtain rfl := List.mem_singleton.mp listed
      decide)
    (fun _ call member image listed => by
      rw [own member] at listed
      obtain rfl := List.mem_singleton.mp listed
      decide)
    [str "0.desc", str "0_spir64.spv"] (by decide) complete
  refine ⟨s, ran, ?_⟩
  obtain rfl := List.perm_singleton.mp once
  exact reads

end DpcppTrace.Soundness
