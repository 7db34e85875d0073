import DpcppTrace.Model.DebugServer
import Mathlib.Logic.Function.Basic

/-! # Breakpoints of the host debugger

`HostDebugger` keeps a table from addresses to the breakpoints it created in the LLDB target.
LLDB is outside the repository: the target offers to create a breakpoint and to remove one by its
id, and each of the two changes nothing else.
-/

namespace DpcppTrace.Model

open Foundation

/-- What the debugger relies on in an LLDB target with states `τ` and breakpoint ids `ι`. -/
structure LLDBTarget (τ ι : Type) [DecidableEq ι] where
  CreateBreakpoint : τ → UInt64 → Option ι × τ
  RemoveBreakpointByID : τ → ι → τ
  /-- The address of the active breakpoint with an id. -/
  active : τ → ι → Option UInt64
  created : ∀ target address, ∃ id, (CreateBreakpoint target address).1 = some id ∧
    active target id = none ∧
    active (CreateBreakpoint target address).2 = Function.update (active target) id (some address)
  removed : ∀ target id, active (RemoveBreakpointByID target id) =
    Function.update (active target) id none

/-- The part of `HostDebugger` that breakpoints concern; a breakpoint is known by its id. -/
structure HostDebugger (τ ι : Type) where
  mTarget : Option τ
  mBreakpoints : UInt64 → Option ι

namespace HostDebugger

variable {τ ι : Type} [DecidableEq ι]

def createSoftwareBreakpoint (lldb : LLDBTarget τ ι) (debugger : HostDebugger τ ι)
    (address : UInt64) : HostDebugger τ ι :=
  match debugger.mTarget with
  | none => debugger
  | some target =>
    let (bp, target) := lldb.CreateBreakpoint target address
    match bp with
    | some bp =>
      { mTarget := some target
        mBreakpoints := Function.update debugger.mBreakpoints address (some bp) }
    | none => { debugger with mTarget := some target }

def removeSoftwareBreakpoint (lldb : LLDBTarget τ ι) (debugger : HostDebugger τ ι)
    (address : UInt64) : HostDebugger τ ι :=
  match debugger.mTarget with
  | none => debugger
  | some target =>
    match debugger.mBreakpoints address with
    | some bp =>
      { mTarget := some (lldb.RemoveBreakpointByID target bp)
        mBreakpoints := Function.update debugger.mBreakpoints address none }
    | none => debugger

/-- The host debugger as the protocol's surroundings; `others` answers what does not concern
breakpoints. -/
def environment (lldb : LLDBTarget τ ι)
    (others : Environment Request.Answer (HostDebugger τ ι)) :
    Environment Request.Answer (HostDebugger τ ι) :=
  fun debugger request => match request with
    | .createSoftwareBreakpoint address => ((), debugger.createSoftwareBreakpoint lldb address)
    | .removeSoftwareBreakpoint address => ((), debugger.removeSoftwareBreakpoint lldb address)
    | other => others debugger other

end HostDebugger

end DpcppTrace.Model
