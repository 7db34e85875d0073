import DpcppTrace.Foundation.Framing
import DpcppTrace.Foundation.Tally
import DpcppTrace.Model.GraphFile
import DpcppTrace.Soundness.GraphEvents

/-! # The file of the graph under any order of the threads

A callback takes its time before it takes the lock, so the callbacks of several threads can come in
any order. An event depends on the callbacks for its own id alone. The order decides in which sequence
the events are written, and that is the sequence in which their ids first come.
-/

namespace DpcppTrace.Soundness

open Foundation Model

/-- The callbacks for one id. -/
def callsOf (id : Int64) (calls : List Callback) : List Callback :=
  calls.filter fun call => call.event.unique_id = id

/-- The ids in the order in which they first come with something else than the begin of a task. -/
def births (calls : List Callback) : List Int64 :=
  ((calls.filter fun call => call.traceType ≠ .task_begin).map (·.event.unique_id)).eraseDups

/-- The event of an id. -/
def eventOf (data : GraphGlobalData) (id : Int64) : Option GraphEvent :=
  data.graph.find? fun evt => evt.id = id

/-- What a callback leaves of the event of its id. -/
def takeCall (found : Option GraphEvent) (call : Callback) : Option GraphEvent :=
  match found with
  | some evt => some (stamp call evt)
  | none => if call.traceType = .task_begin then none else some (newEvent call)

/-! ## Events of one id -/

private theorem eventOf_eq_none {data : GraphGlobalData} (indexed : Indexed data) (id : Int64) :
    eventOf data id = none ↔ id ∉ data.ids := by
  rw [indexed.seen, eventOf, List.find?_eq_none, List.mem_map]
  simp

private theorem find_map_stamp (call : Callback) (graph : List GraphEvent) (id : Int64) :
    (graph.map (stamp call)).find? (fun evt => evt.id = id) =
      (graph.find? fun evt => evt.id = id).map (stamp call) := by
  rw [List.find?_map]
  congr 2
  funext evt
  rw [Function.comp_apply, stamp_id]

private theorem eventOf_own {data : GraphGlobalData} (indexed : Indexed data) (call : Callback) :
    eventOf (tpCallback data call) call.event.unique_id =
      takeCall (eventOf data call.event.unique_id) call := by
  have unseen := eventOf_eq_none indexed call.event.unique_id
  rw [eventOf, tpCallback_graph indexed, List.find?_append, find_map_stamp, ← eventOf]
  cases found : eventOf data call.event.unique_id with
  | some evt => rfl
  | none =>
    rw [Option.map_none, Option.none_or, takeCall]
    by_cases begins : call.traceType = .task_begin
    · simp [begins]
    · simp [begins, unseen.mp found, newEvent_id]

private theorem eventOf_other {data : GraphGlobalData} (indexed : Indexed data) (call : Callback) {id : Int64}
    (differs : id ≠ call.event.unique_id) : eventOf (tpCallback data call) id = eventOf data id := by
  have pushed : (if call.traceType ≠ .task_begin ∧ call.event.unique_id ∉ data.ids then
      [newEvent call] else []).find? (fun evt => evt.id = id) = none := by
    split
    · simp [newEvent_id, differs.symm]
    · rfl
  rw [eventOf, tpCallback_graph indexed, List.find?_append, pushed, Option.or_none, find_map_stamp,
    ← eventOf]
  cases found : eventOf data id with
  | none => rfl
  | some evt =>
    have named : evt.id = id := by simpa using List.find?_some found
    rw [Option.map_some, stamp, if_neg (named ▸ differs)]

/-- The event of an id is what the callbacks for it leave. -/
theorem eventOf_collectGraph (calls : List Callback) (id : Int64) :
    eventOf (collectGraph calls) id = (callsOf id calls).foldl takeCall none :=
  view_foldl (fun _ call indexed => indexed_tpCallback indexed call)
    (fun _ call indexed => eventOf_own indexed call)
    (fun _ call _ indexed differs => eventOf_other indexed call differs)
    (indexed_collectGraph []) calls id

/-! ## Their order -/

private theorem eraseDups_concat (ids : List Int64) (id : Int64) :
    (ids ++ [id]).eraseDups = ids.eraseDups ++ if id ∈ ids.eraseDups then [] else [id] := by
  rw [List.eraseDups_append]
  congr 1
  split
  · rename_i listed
    have dropped : [id].removeAll ids = [] := by simpa [List.removeAll] using listed
    rw [dropped, List.eraseDups_nil]
  · rename_i missing
    have kept : [id].removeAll ids = [id] := by simpa [List.removeAll] using missing
    rw [kept]
    rfl

private theorem births_concat (calls : List Callback) (call : Callback) :
    births (calls ++ [call]) = births calls ++
      if call.traceType ≠ .task_begin ∧ call.event.unique_id ∉ births calls then
        [call.event.unique_id]
      else [] := by
  rw [births, List.filter_append, List.map_append]
  by_cases begins : call.traceType = .task_begin
  · simp [begins, births]
  · have last : ([call].filter fun call => call.traceType ≠ .task_begin).map (·.event.unique_id) =
        [call.event.unique_id] := by simp [begins]
    rw [last, eraseDups_concat, ← births]
    by_cases born : call.event.unique_id ∈ births calls
    · simp [born]
    · simp [born, begins]

/-- The events stand in the order of their ids' births. -/
theorem ids_collectGraph (calls : List Callback) :
    (collectGraph calls).graph.map (·.id) = births calls := by
  induction calls using List.reverseRecOn with
  | nil => rfl
  | append_singleton calls call ih =>
    have indexed := indexed_collectGraph calls
    have seen := indexed.seen call.event.unique_id
    rw [ih] at seen
    rw [collectGraph_concat, tpCallback_graph indexed, List.map_append, map_stamp_id, births_concat, ih]
    congr 1
    simp only [seen]
    split
    · rw [List.map_singleton, newEvent_id]
    · rfl

private theorem births_nodup (calls : List Callback) : (births calls).Nodup :=
  ids_collectGraph calls ▸ (indexed_collectGraph calls).distinct

private theorem mem_births {calls : List Callback} {id : Int64} :
    id ∈ births calls ↔ ∃ call ∈ callsOf id calls, call.traceType ≠ .task_begin := by
  simp only [births, callsOf, List.mem_eraseDups, List.mem_map, List.mem_filter, decide_eq_true_eq]
  constructor
  · rintro ⟨call, ⟨made, later⟩, named⟩
    exact ⟨call, ⟨made, named⟩, later⟩
  · rintro ⟨call, ⟨made, named⟩, later⟩
    exact ⟨call, ⟨made, later⟩, named⟩

/-- A list without two events of one id is what its ids find in it. -/
theorem filterMap_find {graph : List GraphEvent} (distinct : (graph.map (·.id)).Nodup) :
    (graph.map (·.id)).filterMap (fun id => graph.find? fun evt => evt.id = id) = graph := by
  induction graph with
  | nil => rfl
  | cons evt graph ih =>
    obtain ⟨alone, later⟩ := List.nodup_cons.mp distinct
    have behind : (graph.map (·.id)).filterMap (fun id => (evt :: graph).find? fun other => other.id = id) =
        (graph.map (·.id)).filterMap fun id => graph.find? fun other => other.id = id := by
      apply List.filterMap_congr
      intro id member
      have differs : evt.id ≠ id := by
        rintro rfl
        exact alone member
      rw [List.find?_cons_of_neg (by simpa using differs)]
    have here : (evt :: graph).find? (fun other => other.id = evt.id) = some evt :=
      List.find?_cons_of_pos (by simp)
    simp only [List.map_cons, List.filterMap_cons, here, behind, ih later]

/-- The graph is the events of the ids that were born. -/
theorem graph_collectGraph (calls : List Callback) :
    (collectGraph calls).graph =
      (births calls).filterMap fun id => (callsOf id calls).foldl takeCall none := by
  have found := filterMap_find (indexed_collectGraph calls).distinct
  rw [ids_collectGraph] at found
  rw [← found]
  apply List.filterMap_congr
  intro id _
  exact eventOf_collectGraph calls id

/-! ## The file -/

section File

variable {pb : GraphProtobuf}

private theorem eventFrame_delimited {evt other : GraphEvent} {rest more : Bytes}
    (small : (pb.SerializeToString evt).length < 2 ^ 32)
    (small' : (pb.SerializeToString other).length < 2 ^ 32)
    (same : eventFrame pb evt ++ rest = eventFrame pb other ++ more) : evt = other ∧ rest = more := by
  simp only [eventFrame, Nat.mod_eq_of_lt small, Nat.mod_eq_of_lt small', List.take_length,
    List.append_assoc] at same
  obtain ⟨header, behind⟩ := List.append_inj same (by simp)
  have size := congrArg ofLe header
  rw [ofLe_leBytes_of_lt (by omega), ofLe_leBytes_of_lt (by omega)] at size
  obtain ⟨message, behind⟩ := List.append_inj behind size
  exact ⟨pb.injective message, behind⟩

/-- Different graphs have different files. -/
theorem dumpGraph_inj {outDir : Bytes} {data other : GraphGlobalData}
    (small : ∀ evt ∈ data.graph, (pb.SerializeToString evt).length < 2 ^ 32)
    (small' : ∀ evt ∈ other.graph, (pb.SerializeToString evt).length < 2 ^ 32) :
    dumpGraph pb outDir data = dumpGraph pb outDir other ↔ data.graph = other.graph := by
  constructor
  · intro same
    refine Framing.flatMap_inj ?_ eventFrame_delimited small small' (congrArg Prod.snd same)
    intro evt _ empty
    have header := congrArg List.length empty
    simp [eventFrame] at header
  · intro same
    rw [dumpGraph, dumpGraph, same]

/-- Two orders of callbacks that keep the order for each id collect the same events, and they write the
same file exactly if the ids are born in the same order. -/
theorem graph_file_of_orders (pb : GraphProtobuf) (outDir : Bytes) {calls others : List Callback}
    (own : ∀ id, callsOf id calls = callsOf id others)
    (small : ∀ evt ∈ (collectGraph calls).graph, (pb.SerializeToString evt).length < 2 ^ 32) :
    (collectGraph calls).graph.Perm (collectGraph others).graph ∧
      (dumpGraph pb outDir (collectGraph calls) = dumpGraph pb outDir (collectGraph others) ↔
        births calls = births others) := by
  have together : (births calls).Perm (births others) := by
    apply (List.perm_ext_iff_of_nodup (births_nodup calls) (births_nodup others)).mpr
    intro id
    rw [mem_births, mem_births, own]
  have graph := graph_collectGraph others
  simp only [← own] at graph
  have permuted : (collectGraph calls).graph.Perm (collectGraph others).graph := by
    rw [graph_collectGraph calls, graph]
    exact together.filterMap _
  refine ⟨permuted, ?_⟩
  rw [dumpGraph_inj small fun evt member => small evt (permuted.mem_iff.mpr member)]
  constructor
  · intro same
    rw [← ids_collectGraph, ← ids_collectGraph, same]
  · intro same
    rw [graph_collectGraph calls, graph, same]

end File

/-- Two tasks and the edge between them, whose begins took the lock in the order of their times. -/
def tasksInTurn : List Callback :=
  [⟨.node_create, ⟨1, 0, 0, [(str "sycl_device", str "GPU")]⟩, 1⟩, ⟨.node_create, ⟨2, 0, 0, []⟩, 2⟩,
    ⟨.edge_create, ⟨3, 1, 2, [(str "access_mode", str "read")]⟩, 3⟩, ⟨.task_begin, ⟨1, 0, 0, []⟩, 4⟩,
    ⟨.task_begin, ⟨2, 0, 0, []⟩, 5⟩, ⟨.task_end, ⟨1, 0, 0, []⟩, 6⟩, ⟨.task_end, ⟨2, 0, 0, []⟩, 7⟩]

/-- The same callbacks, with the second task ahead of the edge and of the first one. -/
def tasksAcross : List Callback :=
  [⟨.node_create, ⟨1, 0, 0, [(str "sycl_device", str "GPU")]⟩, 1⟩, ⟨.node_create, ⟨2, 0, 0, []⟩, 2⟩,
    ⟨.task_begin, ⟨2, 0, 0, []⟩, 5⟩, ⟨.task_begin, ⟨1, 0, 0, []⟩, 4⟩,
    ⟨.edge_create, ⟨3, 1, 2, [(str "access_mode", str "read")]⟩, 3⟩, ⟨.task_end, ⟨2, 0, 0, []⟩, 7⟩,
    ⟨.task_end, ⟨1, 0, 0, []⟩, 6⟩]

/-- The file is the same for both orders. -/
theorem graph_file_of_orders_tasks :
    dumpGraph graphWire (str "/trace") (collectGraph tasksInTurn) =
      dumpGraph graphWire (str "/trace") (collectGraph tasksAcross) := by
  have own (id : Int64) : callsOf id tasksInTurn = callsOf id tasksAcross := by
    by_cases first : 1 = id
    · subst first
      rfl
    · by_cases second : 2 = id
      · subst second
        rfl
      · simp [callsOf, tasksInTurn, tasksAcross, List.filter_cons, first, second]
  have small : ∀ evt ∈ (collectGraph tasksInTurn).graph,
      (graphWire.SerializeToString evt).length < 2 ^ 32 := by decide +kernel
  exact (graph_file_of_orders graphWire (str "/trace") own small).2.mpr (by decide)

end DpcppTrace.Soundness
