import DpcppTrace.Model.RecordPlugin
import DpcppTrace.Model.Replayer

/-! # Replaying several threads

Each thread has a trace stream of its own, `GTrace`, on the file under its name; the memory, the heap and
the two maps of the plugin are shared. The application may write its memory at any time. A call of the
plugin is one turn.
-/

namespace DpcppTrace.Model

open Foundation

/-- What the plugin keeps for a thread: the stream, and the number of records read from it. -/
structure ThreadTrace where
  GTrace : Option IStream := none
  records : ℕ := 0

/-- The plugin that records for this host. -/
def ReplayHost.recordPlugin {Thread : Type} (host : ReplayHost) (name : Thread → Bytes)
    (shouldSkipMemObjects : Bool) : RecordPlugin Thread :=
  ⟨host.pb, host.pi, name, shouldSkipMemObjects⟩

/-- What a thread of this name runs on, over the directory that was recorded. -/
def threadHost (host : ReplayHost) (output : TraceOutput) (name : Bytes) : ReplayHost :=
  { host with
    traceFile := output.traces (traceFile name)
    buffers := output.buffers }

end DpcppTrace.Model
