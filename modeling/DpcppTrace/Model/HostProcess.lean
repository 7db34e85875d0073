import DpcppTrace.Model.GDBServerProtocol

/-! # Threads and registers of the host debugger

`HostDebugger` asks LLDB for the threads and the registers of its process. A thread is found by its
id or by its place in the list of threads; where there is none, LLDB returns a null pointer, and so
it does for the description of a register behind the last one. A null pointer that is used ends the
debugger.
-/

namespace DpcppTrace.Model

open Foundation

/-- How a method of the debugger fails to return. -/
inductive DebuggerFault where
  | nullThread
  | nullRegisterInfo
  | endlessLoop
deriving DecidableEq

inductive Encoding where
  | invalid | uint | sint | ieee754 | vector

inductive Format where
  | binary | decimal | hex | float | vectorOfSInt8 | vectorOfUInt8 | vectorOfSInt16 | vectorOfUInt16
  | vectorOfSInt32 | vectorOfUInt32 | vectorOfFloat32 | vectorOfUInt64 | vectorOfUInt128 | other

/-- LLDB's description of a register, with its place in the image of all registers. -/
structure RegisterInfo where
  name : Bytes
  alt_name : Option Bytes
  byte_size : ℕ
  byte_offset : ℕ
  encoding : Encoding
  format : Format
  /-- The register is contained in other registers. -/
  value_regs : Bool
  /-- LLDB lays the registers out one behind another; the debugger adds these in 32 bits. -/
  fits : byte_offset + byte_size < 2 ^ 32

abbrev RegisterValue (regInfo : RegisterInfo) := { bytes : Bytes // bytes.length = regInfo.byte_size }

/-! ## The target description -/

def getEncodingNameOrEmpty (regInfo : RegisterInfo) : Bytes :=
  match regInfo.encoding with
  | .uint => str "uint"
  | .sint => str "sint"
  | .ieee754 => str "ieee754"
  | .vector => str "vector"
  | .invalid => []

def getFormatNameOrEmpty (regInfo : RegisterInfo) : Bytes :=
  match regInfo.format with
  | .binary => str "binary"
  | .decimal => str "decimal"
  | .hex => str "hex"
  | .float => str "float"
  | .vectorOfSInt8 => str "vector-sint8"
  | .vectorOfUInt8 => str "vector-uint8"
  | .vectorOfSInt16 => str "vector-sint16"
  | .vectorOfUInt16 => str "vector-uint16"
  | .vectorOfSInt32 => str "vector-sint32"
  | .vectorOfUInt32 => str "vector-uint32"
  | .vectorOfFloat32 => str "vector-float32"
  | .vectorOfUInt64 => str "vector-uint64"
  | .vectorOfUInt128 => str "vector-uint128"
  | .other => []

/-- An attribute and a blank; none without a value. -/
def optionalAttribute (key : String) (value : Bytes) : Bytes :=
  if value = [] then [] else str key ++ (str "=\"" ++ (value ++ str "\" "))

/-- The element that announces a register under a number. -/
def registerElement (announced : ℕ × RegisterInfo) : Bytes :=
  let (regIndex, regInfo) := announced
  str "<reg name=\"" ++ regInfo.name ++ str "\" bitsize=\"" ++
    decimal (regInfo.byte_size * 8 % 2 ^ 32) ++ str "\" regnum=\"" ++ decimal regIndex ++
    str "\" offset=\"" ++ decimal regInfo.byte_offset ++ str "\" " ++
    optionalAttribute "altname" (regInfo.alt_name.getD []) ++
    optionalAttribute "encoding" (getEncodingNameOrEmpty regInfo) ++
    optionalAttribute "format" (getFormatNameOrEmpty regInfo) ++ str "/>\n"

/-- The registers under the numbers that announce them. -/
def announcedRegisters (registers : List RegisterInfo) : List (ℕ × RegisterInfo) :=
  registers.mapIdx Prod.mk

/-- The target description of an architecture and its registers. -/
def targetXML (archName : Bytes) (registers : List RegisterInfo) : Bytes :=
  str "<?xml version=\"1.0\"?>\n<target version=\"1.0\">\n<architecture>" ++ archName ++
    str "</architecture>\n<feature>\n" ++ (announcedRegisters registers).flatMap registerElement ++
    str "</feature>\n</target>"

/-! ## The process -/

/-- `lldb::StateType`. -/
inductive StateType where
  | invalid | unloaded | connected | attaching | launching | stopped | running | stepping | crashed
  | detached | exited | suspended

/-- `lldb::StopReason`. -/
inductive ThreadStop where
  | invalid | none | trace | breakpoint | watchpoint | signal | exception | exec | planComplete
  | threadExiting | instrumentation | processorTrace | fork | vfork | vforkDone

/-- What the debugger relies on in an LLDB process with states `τ`; a thread is known by its id. -/
structure LLDBProcess (τ : Type) where
  threads : τ → List UInt64
  archName : Bytes
  registers : τ → List RegisterInfo
  ReadRegister : τ → UInt64 → (regInfo : RegisterInfo) → Option (RegisterValue regInfo)
  GetState : τ → StateType
  GetStopReason : τ → UInt64 → ThreadStop
  /-- The value behind a stop reason. -/
  stopInfoValue : τ → UInt64 → UInt64
  /-- `GetSize` is a `uint32_t`. -/
  few : ∀ debugger, (threads debugger).length < 2 ^ 32
  printable : ∀ debugger, (targetXML archName (registers debugger)).length < 2 ^ 64

/-- The image of registers read so far. -/
abbrev RegisterImage := { image : Bytes // image.length < 2 ^ 32 }

/-- `std::vector::resize`. -/
def resize (buffer : Bytes) (size : ℕ) : Bytes :=
  buffer.take size ++ List.replicate (size - buffer.length) 0

/-- A register is copied into the image, which grows as far as it has to. -/
def storeBytes (buffer : Bytes) (byte_offset : ℕ) (value : Bytes) : Bytes :=
  let last := byte_offset + value.length
  let buffer := if last ≥ buffer.length then resize buffer last else buffer
  buffer.take byte_offset ++ (value ++ buffer.drop last)

private theorem length_storeBytes (buffer : Bytes) (byte_offset : ℕ) (value : Bytes) :
    (storeBytes buffer byte_offset value).length = max buffer.length (byte_offset + value.length) := by
  simp only [storeBytes, resize]
  split <;> simp <;> omega

theorem storeBytes_fits (buffer : RegisterImage) (regInfo : RegisterInfo)
    (value : RegisterValue regInfo) :
    (storeBytes buffer.1 regInfo.byte_offset value.1).length < 2 ^ 32 := by
  rw [length_storeBytes, value.2]
  exact max_lt buffer.2 regInfo.fits

theorem RegisterImage.sized (image : RegisterImage) : image.1.length < 2 ^ 64 :=
  image.2.trans (by norm_num)

theorem RegisterValue.sized {regInfo : RegisterInfo} (value : RegisterValue regInfo) :
    value.1.length < 2 ^ 64 := by
  have := regInfo.fits
  rw [value.2]
  omega

/-- The bytes of a register in an image of all registers. Nobody checks that the image is that long:
what is behind it in memory is taken as well. -/
def rawValue (data : Bytes) (behind : ℕ → UInt8) (regInfo : RegisterInfo) : RegisterValue regInfo :=
  ⟨(List.range regInfo.byte_size).map fun i =>
    data[regInfo.byte_offset + i]?.getD (behind (regInfo.byte_offset + i)), by simp⟩

namespace LLDBProcess

variable {τ : Type}

/-- `FindThreadByID`, or the first thread for zero. -/
def findThread (process : LLDBProcess τ) (debugger : τ) (threadId : UInt64) : Option UInt64 :=
  if threadId = 0 then (process.threads debugger)[0]?
  else (process.threads debugger).find? (· = threadId)

/-- The registers that are not contained in others, one after another. -/
def readRegisters (process : LLDBProcess τ) (debugger : τ) (thread : UInt64) :
    List RegisterInfo → RegisterImage → Option RegisterImage
  | [], buffer => some buffer
  | regInfo :: registers, buffer =>
    if regInfo.value_regs then process.readRegisters debugger thread registers buffer
    else
      match process.ReadRegister debugger thread regInfo with
      | none => none
      | some value => process.readRegisters debugger thread registers
          ⟨storeBytes buffer.1 regInfo.byte_offset value.1, storeBytes_fits buffer regInfo value⟩

/-- The counter of the loop has 32 bits. -/
def getRegistersData (process : LLDBProcess τ) (debugger : τ) (threadId : UInt64) :
    Except DebuggerFault Buffer :=
  match process.findThread debugger threadId with
  | none => .error .nullThread
  | some thread =>
    match process.readRegisters debugger thread (process.registers debugger) ⟨[], Nat.two_pow_pos 32⟩ with
    | none => .ok default
    | some buffer =>
      if (process.registers debugger).length < 2 ^ 32 then .ok ⟨buffer.1, buffer.sized⟩
      else .error .endlessLoop

def readRegister (process : LLDBProcess τ) (debugger : τ) (threadId regNum : UInt64) :
    Except DebuggerFault Buffer :=
  match process.findThread debugger threadId with
  | none => .error .nullThread
  | some thread =>
    if regNum.toNat > (process.registers debugger).length then .ok default
    else
      match (process.registers debugger)[regNum.toNat]? with
      | none => .error .nullRegisterInfo
      | some regInfo =>
        match process.ReadRegister debugger thread regInfo with
        | none => .ok default
        | some value => .ok ⟨value.1, value.sized⟩

/-- The registers that are not contained in others, one after another; what `WriteRegister` reports is
ignored. -/
def writeRegisters (WriteRegister : τ → UInt64 → (regInfo : RegisterInfo) → RegisterValue regInfo → τ)
    (thread : UInt64) (data : Bytes) (behind : ℕ → UInt8) : List RegisterInfo → τ → τ
  | [], debugger => debugger
  | regInfo :: registers, debugger =>
    if regInfo.value_regs then writeRegisters WriteRegister thread data behind registers debugger
    else writeRegisters WriteRegister thread data behind registers
      (WriteRegister debugger thread regInfo (rawValue data behind regInfo))

/-- The loop goes over the registers of one context and counts in 32 bits. -/
def writeRegistersData (process : LLDBProcess τ)
    (WriteRegister : τ → UInt64 → (regInfo : RegisterInfo) → RegisterValue regInfo → τ)
    (behind : ℕ → UInt8) (debugger : τ) (data : Bytes) (tid : UInt64) : Except DebuggerFault τ :=
  match process.findThread debugger tid with
  | none => .error .nullThread
  | some thread =>
    if (process.registers debugger).length < 2 ^ 32 then
      .ok (writeRegisters WriteRegister thread data behind (process.registers debugger) debugger)
    else .error .endlessLoop

def getThreadIDAtIndex (process : LLDBProcess τ) (debugger : τ) (threadIdx : UInt64) :
    Except DebuggerFault UInt64 :=
  match (process.threads debugger)[threadIdx.toNat]? with
  | none => .error .nullThread
  | some thread => .ok thread

/-- The reason a thread of a stopped process has stopped. -/
def threadStopReason (process : LLDBProcess τ) (debugger : τ) (thread : UInt64) : StopReason :=
  match process.GetStopReason debugger thread with
  | .invalid => { type := .exit }
  | .trace => { type := .trace }
  | .none | .breakpoint | .planComplete => { type := .breakpoint }
  | .watchpoint => { type := .watchpoint }
  | .signal =>
    { type := .signal, code := (process.stopInfoValue debugger thread).toUInt32.toInt32 }
  | .exception => { type := .exception }
  | .fork => { type := .fork }
  | .vfork => { type := .vfork }
  | .vforkDone => { type := .vfork_done }
  | .exec | .threadExiting | .instrumentation | .processorTrace => { type := .none }

/-- The thread matters only when the process has stopped. -/
def getStopReason (process : LLDBProcess τ) (debugger : τ) (threadId : UInt64) :
    Except DebuggerFault StopReason :=
  match process.GetState debugger with
  | .exited | .invalid | .unloaded => .ok { type := .exit }
  | .attaching | .launching | .running | .stepping | .detached => .ok { type := .none }
  | .connected | .stopped | .crashed | .suspended =>
    match process.findThread debugger threadId with
    | none => .error .nullThread
    | some thread => .ok (process.threadStopReason debugger thread)

def getGDBTargetXML (process : LLDBProcess τ) (debugger : τ) : Except DebuggerFault Buffer :=
  match (process.threads debugger)[0]? with
  | none => .error .nullThread
  | some _ => .ok ⟨targetXML process.archName (process.registers debugger), process.printable debugger⟩

/-- Nothing is answered by a debugger that has ended. -/
def noAnswer : (request : Request) → request.Answer
  | .getRegistersData _ | .readRegister _ _ | .getGDBTargetXML | .getExecutablePath
  | .readMemory _ _ | .getAuxvData => (default : Buffer)
  | .isAttached | .allocate _ => false
  | .getNumThreads | .getThreadIDAtIndex _ => (0 : UInt64)
  | .getStopReason _ => ({} : StopReason)
  | .llopen .. | .llclose _ => (0 : Int32)
  | .llread .. => (none : Option Bytes)
  | .writeRegistersData .. | .createSoftwareBreakpoint _ | .removeSoftwareBreakpoint _ | .resume ..
  | .stepInstruction .. | .writeMemory .. => ()

/-- The end of a method that leaves the process as it is. -/
def finish (debugger : τ) {request : Request} (result : Except DebuggerFault request.Answer) :
    request.Answer × Except DebuggerFault τ :=
  match result with
  | .ok answer => (answer, .ok debugger)
  | .error fault => (noAnswer request, .error fault)

/-- The host debugger as the protocol's surroundings; `others` answers what does not concern threads
and registers, and what changes the process. -/
def environment (process : LLDBProcess τ) (others : Environment Request.Answer τ) :
    Environment Request.Answer (Except DebuggerFault τ)
  | .error fault, request => (noAnswer request, .error fault)
  | .ok debugger, request =>
    match request with
    | .getRegistersData threadIdx => finish debugger (process.getRegistersData debugger threadIdx)
    | .readRegister threadIdx regNum =>
      finish debugger (process.readRegister debugger threadIdx regNum)
    | .getGDBTargetXML => finish debugger (process.getGDBTargetXML debugger)
    | .getNumThreads => (UInt64.ofNat (process.threads debugger).length, .ok debugger)
    | .getThreadIDAtIndex threadIdx => finish debugger (process.getThreadIDAtIndex debugger threadIdx)
    | .getStopReason threadId => finish debugger (process.getStopReason debugger threadId)
    | .writeRegistersData data tid =>
      match process.findThread debugger tid with
      | none => ((), .error .nullThread)
      | some _ => ((), .ok (others debugger (.writeRegistersData data tid)).2)
    | other => ((others debugger other).1, .ok (others debugger other).2)

section Answers

variable (process : LLDBProcess τ) (others : Environment Request.Answer τ) (debugger : τ)

theorem environment_readRegister (threadIdx regNum : UInt64) :
    process.environment others (.ok debugger) (.readRegister threadIdx regNum) =
      @finish τ debugger (.readRegister threadIdx regNum)
        (process.readRegister debugger threadIdx regNum) := rfl

theorem environment_getThreadIDAtIndex (threadIdx : UInt64) :
    process.environment others (.ok debugger) (.getThreadIDAtIndex threadIdx) =
      @finish τ debugger (.getThreadIDAtIndex threadIdx)
        (process.getThreadIDAtIndex debugger threadIdx) := rfl

end Answers

end LLDBProcess

end DpcppTrace.Model
