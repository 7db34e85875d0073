import DpcppTrace.Foundation.Interleaving
import DpcppTrace.Model.Recorder
import DpcppTrace.Model.Threads
import DpcppTrace.Model.TraceFile

/-! # The subscriber that records PI calls

`tpCallback` is called in the thread that makes the PI call, when the call begins and when it ends. The
first beginning in a thread opens the trace of the thread for appending, and every end appends one
record and flushes. The threads share the trace directory. Each callback is one turn, except that a
selection of a device image may be overtaken by another one, which leaves it without a record.
-/

namespace DpcppTrace.Model

open Foundation

inductive PiEvent where
  | function_with_args_begin
  /-- The arguments and what can be seen at the end; a selection that is `overtaken` finds the images
  collected once it has the lock. -/
  | function_with_args_end (call : PiCall) (after : CallEnd) (overtaken : Bool)

/-- The traces and the files under `buffers` in the trace directory, by name. -/
structure TraceOutput where
  traces : Bytes → Option Bytes
  buffers : Bytes → Option Bytes

/-- The trace of a thread with this name. -/
def traceFile (name : Bytes) : Bytes := name ++ kPiTraceExt

/-- A file opened for output with `std::ios::app`. -/
def TraceOutput.openTrace (output : TraceOutput) (name : Bytes) : TraceOutput :=
  { output with
    traces := Function.update output.traces (traceFile name)
      (some ((output.traces (traceFile name)).getD [])) }

/-- A record at the end of a trace, and the file that belongs to it. -/
def TraceOutput.append (output : TraceOutput) (name data : Bytes) (buffer : Option (Bytes × Bytes)) :
    TraceOutput where
  traces := Function.update output.traces (traceFile name)
    (some ((output.traces (traceFile name)).getD [] ++ data))
  buffers :=
    match buffer with
    | some (file, bytes) => Function.update output.buffers file (some bytes)
    | none => output.buffers

/-- The call selects a device image. -/
def PiCall.selects : PiCall → Bool
  | .piextDeviceSelectBinary .. => true
  | _ => false

/-- What the plugin runs on, with the names of the threads. -/
structure RecordPlugin (Thread : Type) where
  pb : Protobuf
  pi : PiDef
  name : Thread → Bytes
  shouldSkipMemObjects : Bool

namespace RecordPlugin

variable {Thread : Type}

/-- The handler that `tpCallback` makes for a thread. -/
def handler (plugin : RecordPlugin Thread) (thread : Thread) : RecordHandler :=
  ⟨plugin.name thread, !plugin.shouldSkipMemObjects⟩

/-- `tpCallback`, with the thread's `GRecordHandler`; none when it ends the program. -/
def tpCallback (plugin : RecordPlugin Thread) (thread : Thread) (event : PiEvent)
    (GRecordHandler : Option RecordHandler) (output : TraceOutput) :
    Option (Option RecordHandler × TraceOutput) :=
  match event with
  | .function_with_args_begin =>
    match GRecordHandler with
    | some handler => some (some handler, output)
    | none => some (some (plugin.handler thread), output.openTrace (plugin.name thread))
  | .function_with_args_end call after overtaken =>
    match GRecordHandler with
    | none => some (none, output)
    | some handler =>
      if call.selects && overtaken then some (some handler, output)
      else
        (handler.outputs call after).map fun outputs =>
          (some handler, output.append handler.threadName
            (serialize plugin.pb (outputs.record plugin.pi call after)) outputs.buffer)

/-- The threads of the recorded program. -/
def recorder (plugin : RecordPlugin Thread) :
    Interleaving Thread (Option RecordHandler) TraceOutput PiEvent Empty where
  step := plugin.tpCallback
  outside change _ := change.elim

end RecordPlugin

/-- A new trace directory, and threads that have made no call. -/
def freshRecording (Thread : Type) : Together Thread (Option RecordHandler) TraceOutput :=
  ⟨fun _ => none, ⟨fun _ => none, fun _ => none⟩⟩

end DpcppTrace.Model
