import DpcppTrace.Model.GraphDump
import Mathlib.Data.List.Induction
import Mathlib.Data.List.Nodup
import Mathlib.Tactic.Common

/-! # The collected graph

The set of ids and the vector of events agree after any callbacks, and a new callback stamps the
event of its id and adds at most one. The graph is the one that the creations and tasks before it
determine as long as no task ends before its id was created; such an end creates an event itself.
-/

namespace DpcppTrace.Soundness

open Foundation Model

def Creates (call : Callback) : Prop :=
  call.traceType = .node_create ∨ call.traceType = .edge_create

instance (call : Callback) : Decidable (Creates call) := instDecidableOr

/-- The time of the last callback of a trace point for an id. -/
def lastTime (point : TracePoint) (id : Int64) (calls : List Callback) : Option UInt64 :=
  (calls.reverse.find? fun call => call.traceType = point ∧ call.event.unique_id = id).map (·.now)

/-- The event of a creation, with the times of the tasks behind it. -/
def createdEvent (call : Callback) (later : List Callback) : GraphEvent where
  type := if call.traceType = .edge_create then .EDGE else .NODE
  id := call.event.unique_id
  time_create := call.now
  time_start := lastTime .task_begin call.event.unique_id later
  time_end := lastTime .task_end call.event.unique_id later
  start_node := if call.traceType = .edge_create then some call.event.source_id else none
  end_node := if call.traceType = .edge_create then some call.event.target_id else none
  metadata := call.event.metadata

/-- One event for each created id, in the order of their first creations. -/
def expectedGraph : List Callback → List GraphEvent
  | [] => []
  | call :: later =>
    if Creates call then
      createdEvent call later ::
        (expectedGraph later).filter fun evt => evt.id ≠ call.event.unique_id
    else expectedGraph later

/-- A task's callback on an event: its own time, if the event has its id. -/
def stamp (call : Callback) (evt : GraphEvent) : GraphEvent :=
  if evt.id = call.event.unique_id then
    match call.traceType with
    | .task_begin => { evt with time_start := some call.now }
    | .task_end => { evt with time_end := some call.now }
    | .node_create | .edge_create => evt
  else evt

@[simp] theorem stamp_id (call : Callback) (evt : GraphEvent) : (stamp call evt).id = evt.id := by
  rw [stamp]
  split
  · split <;> rfl
  · rfl

/-- A creation stamps nothing. -/
theorem stamp_of_creates {call : Callback} (creates : Creates call) (evt : GraphEvent) :
    stamp call evt = evt := by
  rw [stamp]
  split
  · rcases creates with node | edge
    · rw [node]
    · rw [edge]
  · rfl

/-! ## One more callback in the specification -/

private theorem lastTime_concat (point : TracePoint) (id : Int64) (calls : List Callback) (call : Callback) :
    lastTime point id (calls ++ [call]) =
      if call.traceType = point ∧ call.event.unique_id = id then some call.now
      else lastTime point id calls := by
  simp only [lastTime, List.reverse_append, List.reverse_singleton, List.singleton_append,
    List.find?_cons]
  by_cases here : call.traceType = point ∧ call.event.unique_id = id
  · simp [here]
  · simp [here]

private theorem createdEvent_concat (created : Callback) (later : List Callback) (call : Callback) :
    createdEvent created (later ++ [call]) = stamp call (createdEvent created later) := by
  by_cases own : created.event.unique_id = call.event.unique_id
  · have same : (createdEvent created later).id = call.event.unique_id := own
    rw [stamp, if_pos same]
    cases point : call.traceType <;> simp [createdEvent, lastTime_concat, point, own]
  · have differs : (createdEvent created later).id ≠ call.event.unique_id := own
    rw [stamp, if_neg differs]
    simp [createdEvent, lastTime_concat, Ne.symm own]

private theorem mem_expectedGraph {calls : List Callback} {id : Int64} :
    id ∈ (expectedGraph calls).map (·.id) ↔
      ∃ call ∈ calls, Creates call ∧ call.event.unique_id = id := by
  induction calls with
  | nil => simp [expectedGraph]
  | cons call later ih =>
    rw [expectedGraph]
    simp only [List.mem_cons, exists_eq_or_imp]
    by_cases creates : Creates call
    · rw [if_pos creates, List.map_cons, List.mem_cons, ← ih]
      by_cases own : id = call.event.unique_id
      · subst own
        simp [createdEvent, creates]
      · have rest : id ∈ ((expectedGraph later).filter fun evt =>
            evt.id ≠ call.event.unique_id).map (·.id) ↔ id ∈ (expectedGraph later).map (·.id) := by
          simp only [List.mem_map, List.mem_filter]
          refine exists_congr fun evt => and_congr_left fun same => and_iff_left ?_
          rw [same]
          exact decide_eq_true own
        rw [rest]
        simp [createdEvent, own, Ne.symm own]
    · rw [if_neg creates, ih]
      simp [creates]

/-- One more callback stamps the expected events and adds one for the creation of a new id. -/
theorem expectedGraph_concat (calls : List Callback) (call : Callback) :
    expectedGraph (calls ++ [call]) =
      (expectedGraph calls).map (stamp call) ++
        if Creates call ∧ call.event.unique_id ∉ (expectedGraph calls).map (·.id) then
          [createdEvent call []]
        else [] := by
  induction calls with
  | nil => simp [expectedGraph]
  | cons first calls ih =>
    rw [List.cons_append, expectedGraph, expectedGraph]
    by_cases creates : Creates first
    · rw [if_pos creates, if_pos creates, createdEvent_concat, ih, List.filter_append, List.map_cons,
        List.cons_append]
      congr 1
      have kept : ((expectedGraph calls).map (stamp call)).filter
            (fun evt => evt.id ≠ first.event.unique_id) =
          ((expectedGraph calls).filter fun evt => evt.id ≠ first.event.unique_id).map (stamp call) := by
        rw [List.filter_map]
        congr 2
        funext evt
        simp
      rw [kept]
      congr 1
      by_cases own : call.event.unique_id = first.event.unique_id
      · -- The id exists already, and the filter drops a second event for it.
        have taken : call.event.unique_id ∈ (createdEvent first calls :: (expectedGraph calls).filter
            fun evt => evt.id ≠ first.event.unique_id).map (·.id) := by
          rw [own]
          exact List.mem_cons_self ..
        refine Eq.trans ?_ (if_neg fun fresh => fresh.2 taken).symm
        have dropped : ¬(createdEvent call []).id ≠ first.event.unique_id := not_not.mpr own
        split
        · rw [List.filter_cons, if_neg (by simpa using dropped), List.filter_nil]
        · rfl
      · have same : call.event.unique_id ∈ (createdEvent first calls :: (expectedGraph calls).filter
              fun evt => evt.id ≠ first.event.unique_id).map (·.id) ↔
            call.event.unique_id ∈ (expectedGraph calls).map (·.id) := by
          have apart : call.event.unique_id ≠ (createdEvent first calls).id := own
          simp only [List.map_cons, List.mem_cons, apart, false_or, List.mem_map, List.mem_filter]
          refine exists_congr fun evt => and_congr_left fun equal => and_iff_left ?_
          rw [equal]
          exact decide_eq_true own
        simp only [same]
        have stays : (createdEvent call []).id ≠ first.event.unique_id := own
        split
        · rw [List.filter_cons, if_pos (by simpa using stays), List.filter_nil]
        · rfl
    · rw [if_neg creates, if_neg creates, ih]

/-! ## One more callback in the subscriber -/

/-- The set holds the ids of the events, and each id has one event. -/
structure Indexed (data : GraphGlobalData) : Prop where
  distinct : (data.graph.map (·.id)).Nodup
  seen : ∀ id, id ∈ data.ids ↔ id ∈ data.graph.map (·.id)

/-- Where ids are distinct, changing the first event of an id changes the one event of it. -/
theorem updateFirst_eq_map (id : Int64) {change : GraphEvent → GraphEvent} {graph : List GraphEvent}
    (distinct : (graph.map (·.id)).Nodup) :
    updateFirst (fun evt => evt.id = id) change graph =
      graph.map fun evt => if evt.id = id then change evt else evt := by
  induction graph with
  | nil => rfl
  | cons evt graph ih =>
    obtain ⟨alone, later⟩ := List.nodup_cons.mp distinct
    rw [updateFirst, List.map_cons]
    by_cases own : evt.id = id
    · have others : graph.map (fun other => if other.id = id then change other else other) = graph := by
        conv_rhs => rw [← List.map_id graph]
        refine List.map_congr_left fun other member => if_neg fun same => alone ?_
        exact List.mem_map.mpr ⟨other, member, same.trans own.symm⟩
      simp only [own, decide_true, if_true, others]
    · simp only [own, decide_false, Bool.false_eq_true, if_false, ih later]

private theorem updateById_eq_map (id : Int64) {change : GraphEvent → GraphEvent} {graph : List GraphEvent}
    (distinct : (graph.map (·.id)).Nodup) :
    updateById id change graph = graph.map fun evt => if evt.id = id then change evt else evt := by
  have backwards : (graph.reverse.map (·.id)).Nodup := by
    rw [List.map_reverse]
    exact List.nodup_reverse.mpr distinct
  rw [updateById, updateFirst_eq_map id backwards, List.map_reverse, List.reverse_reverse]

/-- The task branches stamp the events. -/
theorem updateById_stamp {data : GraphGlobalData} (indexed : Indexed data) (call : Callback) :
    (call.traceType = .task_begin → updateById call.event.unique_id
      (fun evt => { evt with time_start := some call.now }) data.graph =
        data.graph.map (stamp call)) ∧
    (call.traceType = .task_end → updateById call.event.unique_id
      (fun evt => { evt with time_end := some call.now }) data.graph =
        data.graph.map (stamp call)) := by
  constructor
  · intro point
    rw [updateById_eq_map _ indexed.distinct]
    refine List.map_congr_left fun evt _ => ?_
    simp only [stamp, point]
  · intro point
    rw [updateById_eq_map _ indexed.distinct]
    refine List.map_congr_left fun evt _ => ?_
    simp only [stamp, point]

theorem map_stamp_id (call : Callback) (graph : List GraphEvent) :
    (graph.map (stamp call)).map (·.id) = graph.map (·.id) := by
  simp

/-- A callback stamps the events, and pushes one unless it begins a task or its id was seen. -/
theorem tpCallback_graph {data : GraphGlobalData} (indexed : Indexed data) (call : Callback) :
    (tpCallback data call).graph =
      data.graph.map (stamp call) ++
        if call.traceType ≠ .task_begin ∧ call.event.unique_id ∉ data.ids then [newEvent call]
        else [] := by
  have created (creates : Creates call) : data.graph.map (stamp call) = data.graph := by
    conv_rhs => rw [← List.map_id data.graph]
    exact List.map_congr_left fun evt _ => stamp_of_creates creates evt
  have pushed (graph : List GraphEvent) :
      (createEvent call { data with graph }).graph =
        graph ++ if call.event.unique_id ∉ data.ids then [newEvent call] else [] := by
    rw [createEvent]
    by_cases seen : call.event.unique_id ∈ data.ids
    · simp [seen]
    · simp [seen]
  cases point : call.traceType with
  | node_create =>
    simp only [tpCallback, point, created (.inl point)]
    simpa using pushed data.graph
  | edge_create =>
    simp only [tpCallback, point, created (.inr point)]
    simpa using pushed data.graph
  | task_begin =>
    simp only [tpCallback, point, (updateById_stamp indexed call).1 point]
    simp
  | task_end =>
    simp only [tpCallback, point, (updateById_stamp indexed call).2 point]
    simpa using pushed (data.graph.map (stamp call))

private theorem tpCallback_ids (data : GraphGlobalData) (call : Callback) :
    (tpCallback data call).ids =
      if call.traceType ≠ .task_begin ∧ call.event.unique_id ∉ data.ids then
        call.event.unique_id :: data.ids
      else data.ids := by
  have pushed (graph : List GraphEvent) : (createEvent call { data with graph }).ids =
      if call.event.unique_id ∉ data.ids then call.event.unique_id :: data.ids else data.ids := by
    rw [createEvent]
    by_cases seen : call.event.unique_id ∈ data.ids
    · simp [seen]
    · simp [seen]
  cases point : call.traceType with
  | task_begin => simp [tpCallback, point]
  | node_create | edge_create | task_end => simpa [tpCallback, point] using pushed _

theorem newEvent_id (call : Callback) : (newEvent call).id = call.event.unique_id := by
  rw [newEvent]
  split <;> rfl

/-- Every callback, an end of a task without a creation included, keeps set and vector together. -/
theorem indexed_tpCallback {data : GraphGlobalData} (indexed : Indexed data) (call : Callback) :
    Indexed (tpCallback data call) := by
  have ids : (tpCallback data call).graph.map (·.id) = data.graph.map (·.id) ++
      if call.traceType ≠ .task_begin ∧ call.event.unique_id ∉ data.ids then [call.event.unique_id]
      else [] := by
    rw [tpCallback_graph indexed, List.map_append, map_stamp_id]
    congr 1
    split
    · rw [List.map_singleton, newEvent_id]
    · rfl
  constructor
  · rw [ids]
    split
    · rename_i fresh
      rw [List.nodup_append]
      refine ⟨indexed.distinct, List.nodup_singleton _, ?_⟩
      intro id member other single
      obtain rfl := List.mem_singleton.mp single
      rintro rfl
      exact fresh.2 ((indexed.seen _).mpr member)
    · rw [List.append_nil]
      exact indexed.distinct
  · intro id
    rw [ids, tpCallback_ids]
    split
    · rw [List.mem_cons, List.mem_append, List.mem_singleton, indexed.seen id, or_comm]
    · rw [List.append_nil, indexed.seen id]

/-! ## Runs -/

theorem collectGraph_concat (calls : List Callback) (call : Callback) :
    collectGraph (calls ++ [call]) = tpCallback (collectGraph calls) call := by
  rw [collectGraph, List.foldl_concat, ← collectGraph]

theorem indexed_collectGraph (calls : List Callback) : Indexed (collectGraph calls) := by
  induction calls using List.reverseRecOn with
  | nil => exact ⟨List.nodup_nil, fun id => Iff.rfl⟩
  | append_singleton calls call ih =>
    rw [collectGraph_concat]
    exact indexed_tpCallback ih call

/-- The id was created before. -/
def CreatedIn (calls : List Callback) (id : Int64) : Prop :=
  ∃ call ∈ calls, Creates call ∧ call.event.unique_id = id

/-- What a callback does to a graph that is as expected. -/
theorem expected_iff {calls : List Callback} (call : Callback)
    (expected : (collectGraph calls).graph = expectedGraph calls) :
    (collectGraph (calls ++ [call])).graph = expectedGraph (calls ++ [call]) ↔
      (call.traceType = .task_end → CreatedIn calls call.event.unique_id) := by
  have indexed := indexed_collectGraph calls
  have known : call.event.unique_id ∈ (collectGraph calls).ids ↔
      CreatedIn calls call.event.unique_id := by
    rw [indexed.seen, expected]
    exact mem_expectedGraph
  have listed : call.event.unique_id ∈ (expectedGraph calls).map (·.id) ↔
      CreatedIn calls call.event.unique_id := mem_expectedGraph
  rw [collectGraph_concat, tpCallback_graph indexed, expectedGraph_concat, expected,
    List.append_right_inj]
  by_cases created : CreatedIn calls call.event.unique_id
  · rw [if_neg fun pushed => pushed.2 (known.mpr created),
      if_neg fun fresh => fresh.2 (listed.mpr created)]
    exact iff_of_true rfl fun _ => created
  · have unseen := mt known.mp created
    have unlisted := mt listed.mp created
    cases point : call.traceType with
    | node_create => simp [Creates, point, unseen, unlisted, newEvent, createdEvent, lastTime]
    | edge_create => simp [Creates, point, unseen, unlisted, newEvent, createdEvent, lastTime]
    | task_begin => simp [Creates, point]
    | task_end => simp [Creates, point, unseen, created]

/-- After every part of a sequence of callbacks the graph holds exactly the created events, each with
the data of its first creation and the times of its last tasks since, if and only if every task that
ends does so after the creation of its id. -/
theorem graph_expected_iff (calls : List Callback) :
    (∀ done, done <+: calls → (collectGraph done).graph = expectedGraph done) ↔
      ∀ before call after, calls = before ++ call :: after → call.traceType = .task_end →
        CreatedIn before call.event.unique_id := by
  constructor
  · rintro always before call after rfl
    have here := always before (List.prefix_append _ _)
    have next := always (before ++ [call]) ⟨after, by simp⟩
    exact (expected_iff call here).mp next
  · intro ends done
    induction done using List.reverseRecOn with
    | nil => exact fun _ => rfl
    | append_singleton before call ih =>
      rintro ⟨after, rfl⟩
      have here := ih ⟨call :: after, by simp⟩
      exact (expected_iff call here).mpr (ends before call after (by simp))

/-- The end of a task of an id that nobody created. -/
theorem not_graph_expected :
    ¬∀ calls : List Callback, (collectGraph calls).graph = expectedGraph calls := by
  intro always
  have graph := always [⟨.task_end, ⟨7, 0, 0, []⟩, 5⟩]
  exact absurd graph (by decide)

end DpcppTrace.Soundness
