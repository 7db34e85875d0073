import DpcppTrace.Foundation.Bytes

/-! # Collecting the task graph

The subscriber registers one callback for four trace points. It keeps the events of the graph in the
order in which they were created, beside the set of the ids it has seen, and looks an event up from
the back. XPTI calls it with the event that the trace point is about; names of payloads, which are
computed and dropped, are left out.
-/

namespace DpcppTrace.Model

open Foundation

/-- The trace points with a callback. -/
inductive TracePoint where
  | node_create | edge_create | task_begin | task_end
deriving DecidableEq

/-- `xpti::trace_event_data_t`, with the strings of its metadata. -/
structure TraceEvent where
  unique_id : Int64
  source_id : Int64
  target_id : Int64
  metadata : List (Bytes × Bytes)

/-- `GraphEvent.EventType`. -/
inductive EventType where
  | NODE | EDGE
deriving DecidableEq

/-- `GraphEvent`, with the defaults of an absent field. -/
structure GraphEvent where
  type : EventType := .NODE
  id : Int64 := 0
  time_create : UInt64 := 0
  time_start : Option UInt64 := none
  time_end : Option UInt64 := none
  start_node : Option Int64 := none
  end_node : Option Int64 := none
  metadata : List (Bytes × Bytes) := []
deriving DecidableEq

/-- `GraphGlobalData`. -/
structure GraphGlobalData where
  graph : List GraphEvent := []
  ids : List Int64 := []

/-- A call of the callback; `now` is the time since the start, in microseconds. -/
structure Callback where
  traceType : TracePoint
  event : TraceEvent
  now : UInt64

/-- Change the first element with a property. -/
def updateFirst (holds : GraphEvent → Bool) (change : GraphEvent → GraphEvent) :
    List GraphEvent → List GraphEvent
  | [] => []
  | event :: rest =>
    if holds event then change event :: rest else event :: updateFirst holds change rest

/-- `findById`, from the back, and a change of what it finds. -/
def updateById (id : Int64) (change : GraphEvent → GraphEvent) (graph : List GraphEvent) :
    List GraphEvent :=
  (updateFirst (fun evt => evt.id = id) change graph.reverse).reverse

/-- The event that is pushed, whatever the trace point is. -/
def newEvent (call : Callback) : GraphEvent :=
  let graphEvent : GraphEvent :=
    { id := call.event.unique_id, time_create := call.now, metadata := call.event.metadata }
  match call.traceType with
  | .node_create => { graphEvent with type := .NODE }
  | .edge_create =>
    { graphEvent with
      type := .EDGE
      start_node := some call.event.source_id
      end_node := some call.event.target_id }
  | _ => graphEvent

/-- What the callback does behind the branches of the tasks. -/
def createEvent (call : Callback) (data : GraphGlobalData) : GraphGlobalData :=
  if call.event.unique_id ∈ data.ids then data
  else
    { graph := data.graph ++ [newEvent call]
      ids := call.event.unique_id :: data.ids }

/-- `tpCallback`. The branch of `task_begin` returns; that of `task_end` does not. -/
def tpCallback (data : GraphGlobalData) (call : Callback) : GraphGlobalData :=
  match call.traceType with
  | .task_begin =>
    { data with
      graph := updateById call.event.unique_id
        (fun evt => { evt with time_start := some call.now }) data.graph }
  | .task_end =>
    createEvent call
      { data with
        graph := updateById call.event.unique_id
          (fun evt => { evt with time_end := some call.now }) data.graph }
  | .node_create | .edge_create => createEvent call data

/-- The data after some callbacks. -/
def collectGraph (calls : List Callback) : GraphGlobalData := calls.foldl tpCallback {}

end DpcppTrace.Model
