import DpcppTrace.Foundation.Bytes
import DpcppTrace.Foundation.Interaction

/-! # What the debug server asks of its surroundings

The methods of `AbstractDebugger` that the protocol calls, and the system calls of `vFile` packets.
`allocate` stands for the growth of the read buffer, which the allocator may refuse.
-/

namespace DpcppTrace.Model

open Foundation

/-- `StopReason::Type`. -/
inductive StopReasonType where
  | invalid | none | trace | breakpoint | watchpoint | signal | exception | exec | fork | vfork
  | vfork_done | exit
deriving DecidableEq

structure StopReason where
  type : StopReasonType := .invalid
  code : Int32 := 0
deriving DecidableEq

/-- A call on the active debugger or on the system. -/
inductive Request where
  | getRegistersData (threadIdx : UInt64)
  | writeRegistersData (data : Bytes) (tid : UInt64)
  | readRegister (threadIdx regNum : UInt64)
  | getGDBTargetXML
  | getExecutablePath
  | isAttached
  | getNumThreads
  | getThreadIDAtIndex (threadIdx : UInt64)
  | getStopReason (threadId : UInt64)
  | createSoftwareBreakpoint (address : UInt64)
  | removeSoftwareBreakpoint (address : UInt64)
  | resume (signal : Int32) (tid : UInt64)
  | stepInstruction (tid : UInt64) (signal : Int32)
  | readMemory (addr len : UInt64)
  | getAuxvData
  | writeMemory (addr len : UInt64) (data : Bytes)
  | llopen (path : Bytes) (flags mode : Int32)
  | llclose (fd : Int32)
  | allocate (count : UInt64)
  | llread (fd : Int32) (offset count : UInt64)
deriving DecidableEq

/-- The answer to each call; a failed `read` has no bytes. -/
abbrev Request.Answer : Request → Type
  | getRegistersData _ | readRegister _ _ | getGDBTargetXML | getExecutablePath | readMemory _ _
  | getAuxvData => Buffer
  | isAttached | allocate _ => Bool
  | getNumThreads | getThreadIDAtIndex _ => UInt64
  | getStopReason _ => StopReason
  | llopen .. | llclose _ => Int32
  | llread .. => Option Bytes
  | writeRegistersData .. | createSoftwareBreakpoint _ | removeSoftwareBreakpoint _ | resume ..
  | stepInstruction .. | writeMemory .. => Unit

end DpcppTrace.Model
