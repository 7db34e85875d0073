import DpcppTrace.Model.HostCalls
import DpcppTrace.Soundness.RegisterRead
import DpcppTrace.Soundness.ServerSafety

/-! # What a client can do to the host debugger

A client chooses threads, registers and sizes freely, and nothing checks them before the debugger uses
what they lead to. So besides reads from files, packets about a thread that is not there, about the register
behind the last one or about more memory than there is end the server.
-/

namespace DpcppTrace.Soundness

open Foundation Model

variable {τ : Type} {process : LLDBProcess τ} {host : HostCalls τ} {debugger : τ}

/-- A host debugger with memory for everything, of a process that is stopped and can be resumed. -/
def readyCalls : HostCalls Unit where
  WriteRegister _ _ _ _ := ()
  behind _ := 0
  TryLock _ := true
  memory _ _ := true
  ReadMemory _ _ _ := default
  ResumeSynchronous _ _ := some ()
  stepSingleInstruction _ _ _ := some ()

/-- More memory than a vector can hold is asked for; and the registers of a thread that is not there. -/
example : (DebugServer.serve (readyCalls.environment oneRegister (objectsDebugger default default default))
    [str "$m0,ffffffffffffffff#00"] (fun _ => 0) {} ()).crashed = true := by
  decide

example : (DebugServer.serve (readyCalls.environment oneRegister (objectsDebugger default default default))
    [str "$Hg7#00", str "$g#67"] (fun _ => 0) {} ()).crashed = true := by
  decide

end DpcppTrace.Soundness
