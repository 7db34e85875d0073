import DpcppTrace.Model.HostProcess

/-! # Calls of the host debugger that do not come back

A method of `HostDebugger` uses a null pointer where there is no such thread or register, throws where no
buffer can have the size that is asked for, and ends the process where LLDB does not resume it.
-/

namespace DpcppTrace.Model

open Foundation

/-- What the debugger relies on besides to read and resume a process with states `τ`. -/
structure HostCalls (τ : Type) where
  WriteRegister : τ → UInt64 → (regInfo : RegisterInfo) → RegisterValue regInfo → τ
  /-- What is in memory behind the bytes of a packet. -/
  behind : ℕ → UInt8
  /-- The process has stopped, so it can be read. -/
  TryLock : τ → Bool
  /-- There is memory for a buffer of this size. -/
  memory : τ → UInt64 → Bool
  /-- The bytes of the process that are read; none on an error. -/
  ReadMemory : τ → UInt64 → UInt64 → Buffer
  /-- Resume with this thread selected; none on an error. -/
  ResumeSynchronous : τ → UInt64 → Option τ
  /-- Queue a plan for one instruction of a thread, with a signal to resume it, and resume; none without
  a thread scope or a plan. -/
  stepSingleInstruction : τ → UInt64 → Int32 → Option τ

namespace HostCalls

variable {τ : Type}

/-- `std::vector::resize` throws for a size that no vector can have, and without memory. -/
def readMemory (host : HostCalls τ) (debugger : τ) (addr len : UInt64) : Option Buffer :=
  if host.TryLock debugger then
    if len < 0x8000000000000000 ∧ host.memory debugger len then some (host.ReadMemory debugger addr len)
    else none
  else some default

def stepInstruction (host : HostCalls τ) (process : LLDBProcess τ) (debugger : τ) (tid : UInt64)
    (signal : Int32) : Option τ :=
  match process.findThread debugger tid with
  | none => none
  | some thread => host.stepSingleInstruction debugger thread signal

/-- A method that leaves the process as it is. -/
def looked (debugger : τ) {α : Type} (result : Except DebuggerFault α) : Option (α × τ) :=
  match result with
  | .ok answer => some (answer, debugger)
  | .error _ => none

/-- A method without a result. -/
def changed (after : Option τ) : Option (Unit × τ) := after.map ((), ·)

/-- The host debugger as the protocol's surroundings; `others` answers what always comes back. -/
def environment (host : HostCalls τ) (process : LLDBProcess τ) (others : Environment Request.Answer τ) :
    FallibleEnvironment Request.Answer τ := fun debugger request =>
  match request with
  | .getRegistersData threadIdx => looked debugger (process.getRegistersData debugger threadIdx)
  | .readRegister threadIdx regNum => looked debugger (process.readRegister debugger threadIdx regNum)
  | .getGDBTargetXML => looked debugger (process.getGDBTargetXML debugger)
  | .getNumThreads => some (UInt64.ofNat (process.threads debugger).length, debugger)
  | .getThreadIDAtIndex threadIdx => looked debugger (process.getThreadIDAtIndex debugger threadIdx)
  | .getStopReason threadId => looked debugger (process.getStopReason debugger threadId)
  | .writeRegistersData data tid =>
    changed (process.writeRegistersData host.WriteRegister host.behind debugger data tid).toOption
  | .readMemory addr len => (host.readMemory debugger addr len).map fun bytes => (bytes, debugger)
  | .resume _ tid => changed (host.ResumeSynchronous debugger tid)
  | .stepInstruction tid signal => changed (host.stepInstruction process debugger tid signal)
  | other => some (others debugger other)

end HostCalls

end DpcppTrace.Model
