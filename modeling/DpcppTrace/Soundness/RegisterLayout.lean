import DpcppTrace.Foundation.Placement
import DpcppTrace.Soundness.RegisterRead

/-! # One layout of all registers

The image of a `g` packet, the target description, the reply to a `p` packet and the write of a `G`
packet place a register by the same offset and size. The image is filled in the order of the table and
only ever grows, so registers that share no byte keep theirs, whatever their order and the gaps
between them. Of LLDB, that it numbers registers in 32 bits and that the value of one has at most 256
bytes.
-/

namespace DpcppTrace.Soundness

open Foundation Model

variable {τ : Type} {process : LLDBProcess τ} {debugger : τ} {threadId thread : UInt64}
  {values : (regInfo : RegisterInfo) → RegisterValue regInfo}

/-- The registers that are not contained in others. -/
def outerRegisters (registers : List RegisterInfo) : List RegisterInfo :=
  registers.filter fun regInfo => !regInfo.value_regs

/-- The whole bytes in the number of bits that the target description announces. -/
def announcedSize (regInfo : RegisterInfo) : ℕ := regInfo.byte_size * 8 % 2 ^ 32 / 8

/-- All registers can be read; the outer ones share no byte, and any other is a part of one of them. -/
structure RegisterLayout (process : LLDBProcess τ) (debugger : τ) (thread : UInt64)
    (values : (regInfo : RegisterInfo) → RegisterValue regInfo) : Prop where
  reads : ∀ regInfo ∈ process.registers debugger,
    process.ReadRegister debugger thread regInfo = some (values regInfo)
  disjoint : (outerRegisters (process.registers debugger)).Pairwise fun first second =>
    Memory.Apart first.byte_offset first.byte_size second.byte_offset second.byte_size
  nested : ∀ regInfo ∈ process.registers debugger, regInfo.value_regs = true →
    ∃ outer ∈ outerRegisters (process.registers debugger), outer.byte_offset ≤ regInfo.byte_offset ∧
      regInfo.byte_offset + regInfo.byte_size ≤ outer.byte_offset + outer.byte_size ∧
      (values regInfo).1 =
        slice (values outer).1 (regInfo.byte_offset - outer.byte_offset) regInfo.byte_size

/-- A register's number is a `uint32_t`, and a `RegisterValue` has at most `kMaxRegisterByteSize`
bytes. That offsets and sizes add up below `2 ^ 32` is part of every `RegisterInfo`. -/
structure LLDBLimits (process : LLDBProcess τ) (debugger : τ) (thread : UInt64) : Prop where
  numbered : (process.registers debugger).length < 2 ^ 32
  held : ∀ regInfo ∈ process.registers debugger, ∀ value,
    process.ReadRegister debugger thread regInfo = some value → value.1.length ≤ 256

/-- Reading all registers, announcing them, reading one and writing all agree on `buffer`. -/
structure LayoutAgrees (process : LLDBProcess τ)
    (WriteRegister : τ → UInt64 → (regInfo : RegisterInfo) → RegisterValue regInfo → τ)
    (behind : ℕ → UInt8) (debugger : τ) (threadId thread : UInt64)
    (values : (regInfo : RegisterInfo) → RegisterValue regInfo) (buffer : Buffer) : Prop where
  read : process.getRegistersData debugger threadId = .ok buffer
  length : buffer.data.length = ((outerRegisters (process.registers debugger)).map
    fun regInfo => regInfo.byte_offset + regInfo.byte_size).foldr max 0
  slices : ∀ regNum regInfo, (regNum, regInfo) ∈ announcedRegisters (process.registers debugger) →
    ∃ value, process.readRegister debugger threadId (UInt64.ofNat regNum) = .ok value ∧
      slice buffer.data regInfo.byte_offset (announcedSize regInfo) = value.data
  written : process.writeRegistersData WriteRegister behind debugger buffer.data threadId =
    .ok ((outerRegisters (process.registers debugger)).foldl
      (fun written regInfo => WriteRegister written thread regInfo (values regInfo)) debugger)

/-! ## The image as placed blocks -/

/-- A register as a block of the image. -/
def registerBlock (values : (regInfo : RegisterInfo) → RegisterValue regInfo) (regInfo : RegisterInfo) :
    Block UInt8 :=
  ⟨regInfo.byte_offset, (values regInfo).1⟩

private theorem storeBytes_eq_place (buffer : Bytes) (byte_offset : ℕ) (value : Bytes) :
    storeBytes buffer byte_offset value = place 0 buffer ⟨byte_offset, value⟩ := by
  have grown : (if byte_offset + value.length ≥ buffer.length then
        resize buffer (byte_offset + value.length) else buffer) =
      buffer ++ List.replicate (byte_offset + value.length - buffer.length) 0 := by
    split
    · rw [resize, List.take_of_length_le ‹_›]
    · rw [Nat.sub_eq_zero_of_le (by omega), List.replicate_zero, List.append_nil]
  rw [storeBytes, place]
  dsimp only [Block.stop]
  rw [grown]

private theorem readRegisters_eq {registers : List RegisterInfo}
    (reads : ∀ regInfo ∈ registers,
      process.ReadRegister debugger thread regInfo = some (values regInfo))
    (buffer : RegisterImage) :
    ∃ image, process.readRegisters debugger thread registers buffer = some image ∧
      image.1 = placeAll 0 buffer.1 ((outerRegisters registers).map (registerBlock values)) := by
  induction registers generalizing buffer with
  | nil => exact ⟨buffer, rfl, rfl⟩
  | cons regInfo registers ih =>
    obtain ⟨here, later⟩ := List.forall_mem_cons.mp reads
    rw [LLDBProcess.readRegisters]
    by_cases contained : regInfo.value_regs = true
    · rw [if_pos contained, outerRegisters, List.filter_cons_of_neg (by simp [contained])]
      exact ih later buffer
    · rw [if_neg contained, here, outerRegisters, List.filter_cons_of_pos (by simp [contained])]
      obtain ⟨image, read, placed⟩ := ih later ⟨storeBytes buffer.1 regInfo.byte_offset
        (values regInfo).1, storeBytes_fits buffer regInfo (values regInfo)⟩
      refine ⟨image, read, ?_⟩
      rw [placed]
      dsimp only
      rw [storeBytes_eq_place]
      rfl

/-- A register is found at its offset, an inner one as a part of its outer one. -/
theorem slice_image (layout : RegisterLayout process debugger thread values) (image : Bytes)
    (placed : image = placeAll 0 [] ((outerRegisters (process.registers debugger)).map
      (registerBlock values)))
    {regInfo : RegisterInfo} (member : regInfo ∈ process.registers debugger) :
    slice image regInfo.byte_offset regInfo.byte_size = (values regInfo).1 := by
  have apart : ((outerRegisters (process.registers debugger)).map (registerBlock values)).Pairwise
      Block.Apart := by
    apply List.Pairwise.map _ _ layout.disjoint
    intro first second apart
    rw [Block.Apart, registerBlock, registerBlock, (values first).2, (values second).2]
    exact apart
  have outerSlice {outer : RegisterInfo}
      (listed : outer ∈ outerRegisters (process.registers debugger)) :
      slice image outer.byte_offset outer.byte_size = (values outer).1 := by
    have found := slice_placeAll 0 [] apart (List.mem_map_of_mem listed)
    rw [registerBlock, (values outer).2] at found
    rw [placed, found]
  by_cases contained : regInfo.value_regs = true
  · obtain ⟨outer, listed, low, high, part⟩ := layout.nested regInfo member contained
    have inside : regInfo.byte_offset - outer.byte_offset + regInfo.byte_size ≤ outer.byte_size := by
      omega
    rw [part, ← outerSlice listed, slice_slice image inside]
    congr 1
    omega
  · exact outerSlice (List.mem_filter.mpr ⟨member, by simp [contained]⟩)

/-! ## Reading one register and writing all -/

private theorem rawValue_eq {data : Bytes} (behind : ℕ → UInt8) {regInfo : RegisterInfo}
    {value : RegisterValue regInfo}
    (found : slice data regInfo.byte_offset regInfo.byte_size = value.1) :
    rawValue data behind regInfo = value := by
  apply Subtype.ext
  apply List.ext_getElem?
  intro i
  rw [← found, getElem?_slice, rawValue, List.getElem?_map]
  split
  · next inside =>
    have width := value.2
    rw [← found, slice, List.length_take, List.length_drop] at width
    have present : regInfo.byte_offset + i < data.length := by omega
    simp [List.getElem?_range inside, List.getElem?_eq_getElem present]
  · have missing : (List.range regInfo.byte_size)[i]? = none :=
      List.getElem?_eq_none_iff.mpr (by rw [List.length_range]; omega)
    rw [missing, Option.map_none]

private theorem writeRegisters_eq
    (WriteRegister : τ → UInt64 → (regInfo : RegisterInfo) → RegisterValue regInfo → τ)
    (data : Bytes) (behind : ℕ → UInt8) {registers : List RegisterInfo}
    (raw : ∀ regInfo ∈ registers, rawValue data behind regInfo = values regInfo) (debugger : τ) :
    LLDBProcess.writeRegisters WriteRegister thread data behind registers debugger =
      (outerRegisters registers).foldl
        (fun written regInfo => WriteRegister written thread regInfo (values regInfo)) debugger := by
  induction registers generalizing debugger with
  | nil => rfl
  | cons regInfo registers ih =>
    obtain ⟨here, later⟩ := List.forall_mem_cons.mp raw
    rw [LLDBProcess.writeRegisters]
    by_cases contained : regInfo.value_regs = true
    · rw [if_pos contained, outerRegisters, List.filter_cons_of_neg (by simp [contained])]
      exact ih later debugger
    · rw [if_neg contained, here, outerRegisters, List.filter_cons_of_pos (by simp [contained])]
      exact ih later _

/-- An announced register is read under its number. -/
theorem readRegister_announced (selected : process.findThread debugger threadId = some thread)
    (layout : RegisterLayout process debugger thread values) (limits : LLDBLimits process debugger thread)
    {regNum : ℕ} {regInfo : RegisterInfo}
    (announced : (regNum, regInfo) ∈ announcedRegisters (process.registers debugger)) :
    process.readRegister debugger threadId (UInt64.ofNat regNum) =
      .ok ⟨(values regInfo).1, (values regInfo).sized⟩ := by
  have here := mem_announcedRegisters.mp announced
  have inside := (List.getElem?_eq_some_iff.mp here).1
  have numbered := limits.numbered
  have same : (UInt64.ofNat regNum).toNat = regNum := UInt64.toNat_ofNat_of_lt' (by
    change regNum < 2 ^ 64
    omega)
  rw [LLDBProcess.readRegister, selected]
  dsimp only
  rw [same, if_neg (by omega), here]
  dsimp only
  rw [layout.reads regInfo (List.mem_of_getElem? here)]

private theorem announcedSize_eq (layout : RegisterLayout process debugger thread values)
    (limits : LLDBLimits process debugger thread) {regInfo : RegisterInfo}
    (member : regInfo ∈ process.registers debugger) : announcedSize regInfo = regInfo.byte_size := by
  have held := limits.held regInfo member (values regInfo) (layout.reads regInfo member)
  rw [(values regInfo).2] at held
  rw [announcedSize]
  omega

/-- In every layout, the registers are read into one image from which every announced one can be cut
out as it is read alone, and from which all are written back. -/
theorem registers_agree
    (WriteRegister : τ → UInt64 → (regInfo : RegisterInfo) → RegisterValue regInfo → τ)
    (behind : ℕ → UInt8) (selected : process.findThread debugger threadId = some thread)
    (limits : LLDBLimits process debugger thread)
    (layout : RegisterLayout process debugger thread values) :
    ∃ buffer, LayoutAgrees process WriteRegister behind debugger threadId thread values buffer := by
  obtain ⟨image, read, placed⟩ := readRegisters_eq layout.reads ⟨[], Nat.two_pow_pos 32⟩
  have found {regInfo : RegisterInfo} (member : regInfo ∈ process.registers debugger) :=
    slice_image layout image.1 placed member
  refine ⟨⟨image.1, image.sized⟩, ?_, ?_, ?_, ?_⟩
  · rw [LLDBProcess.getRegistersData, selected]
    dsimp only
    rw [read]
    exact if_pos limits.numbered
  · change image.1.length = _
    rw [placed, length_placeAll, extent, List.length_nil, Nat.zero_max, List.map_map]
    congr 1
    apply List.map_congr_left
    intro regInfo _
    exact congrArg (regInfo.byte_offset + ·) (values regInfo).2
  · intro regNum regInfo announced
    have member := List.mem_of_getElem? (mem_announcedRegisters.mp announced)
    refine ⟨_, readRegister_announced selected layout limits announced, ?_⟩
    rw [announcedSize_eq layout limits member]
    exact found member
  · rw [LLDBProcess.writeRegistersData, selected]
    dsimp only
    rw [if_pos limits.numbered, writeRegisters_eq WriteRegister image.1 behind
      fun regInfo member => rawValue_eq behind (found member)]

/-- A register whose bytes are its places in the image. -/
def placedValue (regInfo : RegisterInfo) : RegisterValue regInfo :=
  ⟨(List.range regInfo.byte_size).map fun i => UInt8.ofNat (regInfo.byte_offset + i), by simp⟩

/-- The register `eax`, the lower half of `rax`. -/
def eax : RegisterInfo where
  name := str "eax"
  alt_name := none
  byte_size := 4
  byte_offset := 16
  encoding := .uint
  format := .hex
  value_regs := true
  fits := Nat.lt_of_le_of_lt (Nat.le_refl 20) (Nat.lt_trans (by decide : 20 < 21) (by norm_num))

/-- The register `rax`, behind a gap. -/
def rax : RegisterInfo where
  name := str "rax"
  alt_name := none
  byte_size := 8
  byte_offset := 16
  encoding := .uint
  format := .hex
  value_regs := false
  fits := Nat.lt_of_le_of_lt (Nat.le_refl 24) (Nat.lt_trans (by decide : 24 < 25) (by norm_num))

private theorem oneThread_few : ([1] : List UInt64).length < 2 ^ 32 :=
  Nat.lt_trans (by decide : 1 < 2) (by norm_num)

private theorem rax_sized : (targetXML [] [eax, rax, rip]).length < 2 ^ 64 := by decide +kernel

/-- One thread, whose registers are not listed in the order of their places. -/
def nestedRegisters : LLDBProcess Unit :=
  listedProcess [1] oneThread_few [eax, rax, rip] rax_sized
    fun regInfo => some (placedValue regInfo)

/-- The image of these has 24 bytes, eight of them in a gap. -/
theorem registers_agree_nested :
    ∃ buffer, LayoutAgrees nestedRegisters (fun _ _ _ _ => ()) (fun _ => 0) () 1 1 placedValue
      buffer := by
  apply registers_agree (fun _ _ _ _ => ()) (fun _ => 0) rfl
  · refine ⟨Nat.lt_trans (by decide : 3 < 4) (by norm_num), ?_⟩
    intro regInfo member value _
    rw [value.2]
    revert regInfo
    decide
  · refine ⟨fun _ _ => rfl, ?_, ?_⟩
    · decide
    · decide

end DpcppTrace.Soundness
