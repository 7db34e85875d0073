import DpcppTrace.Model.ReplayThreads
import DpcppTrace.Soundness.ReplayHeap

/-! # Recording and replaying several threads

Threads that have different names have different traces, so the trace of a thread holds the records of
its own calls, in its own order, whatever the others did in between. A thread that makes its calls again
gets the codes it got, whatever the others do in between now. Only of an array that a thread frees does it
matter what the others did: it may be theirs to make, or freed already.
-/

namespace DpcppTrace.Soundness

open Foundation Model Interleaving

variable {Thread : Type}

/-! ## Recording -/

/-- The call that an event records. -/
def recordedCall : PiEvent → Option (PiCall × CallEnd)
  | .function_with_args_begin => none
  | .function_with_args_end call after overtaken =>
    if call.selects && overtaken then none else some (call, after)

/-- The calls of a thread that are recorded, in their order. -/
def recordedCalls (events : List PiEvent) : List (PiCall × CallEnd) := events.filterMap recordedCall

/-- A thread begins a call before it ends one. -/
def Bracketed (events : List PiEvent) : Prop :=
  ∀ call after overtaken, events.head? ≠ some (.function_with_args_end call after overtaken)

private theorem recordCalls_concat (handler : RecordHandler) (pi : PiDef) (calls : List (PiCall × CallEnd))
    (call : PiCall) (after : CallEnd) :
    recordCalls handler pi (calls ++ [(call, after)]) =
      (recordCalls handler pi calls).bind fun records =>
        (handler.handle pi call after).map fun record => records ++ [record] := by
  induction calls with
  | nil =>
    cases handled : handler.handle pi call after <;> simp [recordCalls, handled]
  | cons made calls ih =>
    obtain ⟨first, ended⟩ := made
    rw [List.cons_append, recordCalls, recordCalls, ih]
    cases handler.handle pi first ended with
    | none => rfl
    | some record =>
      cases recordCalls handler pi calls with
      | none => rfl
      | some records =>
        cases handler.handle pi call after <;> rfl

private theorem written_concat (pb : Protobuf) (records : List APICall) (record : APICall) :
    written pb (records ++ [record]) = written pb records ++ serialize pb record := by
  rw [written, List.flatMap_append, List.flatMap_singleton, ← written]

section Recording

variable {plugin : RecordPlugin Thread} {thread : Thread} {done : List PiEvent}
  {own : Option RecordHandler} {output : TraceOutput}

/-- What a thread has when these of its events are over: nothing before the first one; then the handler,
and a trace with the records of its calls. -/
inductive ThreadRecorded (plugin : RecordPlugin Thread) (thread : Thread) (output : TraceOutput) :
    List PiEvent → Option RecordHandler → Prop
  | fresh (absent : output.traces (traceFile (plugin.name thread)) = none) :
      ThreadRecorded plugin thread output [] none
  | opened {done : List PiEvent} (begun : done ≠ []) (records : List APICall)
      (made : recordCalls (plugin.handler thread) plugin.pi (recordedCalls done) = some records)
      (stored : output.traces (traceFile (plugin.name thread)) = some (written plugin.pb records)) :
      ThreadRecorded plugin thread output done (some (plugin.handler thread))

/-- Nothing else of the output matters. -/
theorem ThreadRecorded.congr {other : TraceOutput} (recorded : ThreadRecorded plugin thread output done own)
    (same : other.traces (traceFile (plugin.name thread)) =
      output.traces (traceFile (plugin.name thread))) : ThreadRecorded plugin thread other done own := by
  cases recorded with
  | fresh absent => exact .fresh (same.trans absent)
  | opened begun records made stored => exact .opened begun records made (same.trans stored)

theorem traceFile_injective : Function.Injective traceFile := by
  intro first second same
  exact List.append_cancel_right same

/-- A callback changes nothing, or leaves the thread with its handler and another text in its trace. -/
theorem tpCallback_cases {event : PiEvent} {next : Option RecordHandler × TraceOutput}
    (mine : ∀ handler, own = some handler → handler = plugin.handler thread)
    (ran : plugin.tpCallback thread event own output = some next) :
    next = (own, output) ∨ next.1 = some (plugin.handler thread) ∧ ∃ text, next.2.traces =
      Function.update output.traces (traceFile (plugin.name thread)) (some text) := by
  cases event with
  | function_with_args_begin =>
    cases own with
    | none =>
      obtain rfl := Option.some.inj ran
      exact .inr ⟨rfl, _, rfl⟩
    | some handler => exact .inl (Option.some.inj ran).symm
  | function_with_args_end call after overtaken =>
    cases own with
    | none => exact .inl (Option.some.inj ran).symm
    | some handler =>
      obtain rfl := mine handler rfl
      simp only [RecordPlugin.tpCallback] at ran
      split_ifs at ran
      · exact .inl (Option.some.inj ran).symm
      · obtain ⟨outputs, -, rfl⟩ := Option.map_eq_some_iff.mp ran
        exact .inr ⟨rfl, _, rfl⟩

theorem ThreadRecorded.handler (recorded : ThreadRecorded plugin thread output done own)
    (handler : RecordHandler) (made : own = some handler) : handler = plugin.handler thread := by
  cases recorded with
  | fresh => cases made
  | opened => exact (Option.some.inj made).symm

/-- A callback of a thread touches no trace but its own. -/
theorem tpCallback_traces {event : PiEvent} {next : Option RecordHandler × TraceOutput}
    (recorded : ThreadRecorded plugin thread output done own)
    (ran : plugin.tpCallback thread event own output = some next) {file : Bytes}
    (other : file ≠ traceFile (plugin.name thread)) : next.2.traces file = output.traces file := by
  rcases tpCallback_cases recorded.handler ran with rfl | ⟨-, text, written⟩
  · rfl
  · rw [written, Function.update_of_ne other]

/-- A callback adds its event to what the thread has recorded. -/
theorem ThreadRecorded.next {event : PiEvent} {next : Option RecordHandler × TraceOutput}
    (recorded : ThreadRecorded plugin thread output done own) (bracketed : Bracketed (done ++ [event]))
    (ran : plugin.tpCallback thread event own output = some next) :
    ThreadRecorded plugin thread next.2 (done ++ [event]) next.1 := by
  have some_done : done ++ [event] ≠ [] := by simp
  cases event with
  | function_with_args_begin =>
    have same : recordedCalls (done ++ [.function_with_args_begin]) = recordedCalls done := by
      simp [recordedCalls, recordedCall]
    cases recorded with
    | fresh absent =>
      obtain rfl := Option.some.inj ran
      refine .opened some_done [] (by rw [same]; rfl) ?_
      exact (Function.update_self _ _ _).trans (by rw [absent]; rfl)
    | opened begun records made stored =>
      obtain rfl := Option.some.inj ran
      exact .opened some_done records (by rw [same, made]) stored
  | function_with_args_end call after overtaken =>
    cases recorded with
    | fresh => exact absurd rfl (bracketed call after overtaken)
    | opened begun records made stored =>
      simp only [RecordPlugin.tpCallback] at ran
      split_ifs at ran with passed
      · obtain rfl := Option.some.inj ran
        refine .opened some_done records ?_ stored
        rw [recordedCalls, List.filterMap_append, ← recordedCalls, ← made]
        simp [recordedCall, passed]
      · obtain ⟨outputs, handled, rfl⟩ := Option.map_eq_some_iff.mp ran
        have split : recordedCalls (done ++ [.function_with_args_end call after overtaken]) =
            recordedCalls done ++ [(call, after)] := by
          simp [recordedCalls, recordedCall, passed]
        refine .opened some_done (records ++ [outputs.record plugin.pi call after]) ?_ ?_
        · rw [split, recordCalls_concat, made, Option.bind_some, RecordHandler.handle, handled]
          rfl
        · rw [written_concat]
          exact (Function.update_self _ _ _).trans (by rw [RecordPlugin.handler, stored]; rfl)

end Recording

section Schedules

variable [DecidableEq Thread] {plugin : RecordPlugin Thread} {events : List (Turn Thread PiEvent Empty)}
  {recorded : Together Thread (Option RecordHandler) TraceOutput}

/-- Part of what a thread does is over, and recorded. -/
def Underway (plugin : RecordPlugin Thread) (events : List (Turn Thread PiEvent Empty))
    (thread : Thread) (rest : List PiEvent) (own : Option RecordHandler) (output : TraceOutput) : Prop :=
  ∃ done, labelsOf thread events = done ++ rest ∧ ThreadRecorded plugin thread output done own

private theorem stable_underway (named : Function.Injective plugin.name) :
    plugin.recorder.Stable (Underway plugin events) where
  others thread other event rest more own theirs output next differs here there ran := by
    obtain ⟨done, split, recorded⟩ := here
    obtain ⟨_, _, active⟩ := there
    refine ⟨done, split, recorded.congr (tpCallback_traces active ran fun same => ?_)⟩
    exact differs (named (traceFile_injective same)).symm
  outside _ _ _ _ change := change.elim

/-- However the threads take turns, each of them leaves the trace that its own calls make. -/
theorem recorded_of_run (named : Function.Injective plugin.name)
    (begun : ∀ thread, Bracketed (labelsOf thread events))
    (ran : plugin.recorder.machine.run (freshRecording Thread) events = some recorded) (thread : Thread) :
    ThreadRecorded plugin thread recorded.shared (labelsOf thread events) (recorded.own thread) := by
  have start (each : Thread) : Underway plugin events each (labelsOf each events ++ [])
      ((freshRecording Thread).own each) (freshRecording Thread).shared := by
    refine ⟨[], ?_, .fresh rfl⟩
    rw [List.append_nil, List.nil_append]
  have keeps (here : Together Thread (Option RecordHandler) TraceOutput) (each : Thread)
      (event : PiEvent) (rest : List PiEvent) (next : Option RecordHandler × TraceOutput)
      (underway : Underway plugin events each (event :: rest) (here.own each) here.shared)
      (stepped : plugin.tpCallback each event (here.own each) here.shared = some next) :
      Underway plugin events each rest next.1 next.2 := by
    obtain ⟨done, split, recorded⟩ := underway
    have joined : labelsOf each events = (done ++ [event]) ++ rest := by simp [split]
    refine ⟨done ++ [event], joined, recorded.next (fun call after overtaken ends => ?_) stepped⟩
    apply begun each call after overtaken
    rw [joined, List.head?_append, ends]
    rfl
  obtain ⟨done, split, recorded⟩ := holds_of_run (stable_underway named) keeps ran start thread
  rw [split, List.append_nil]
  exact recorded

/-- Every trace belongs to a thread that has a handler. -/
structure TracesOwned (plugin : RecordPlugin Thread)
    (here : Together Thread (Option RecordHandler) TraceOutput) : Prop where
  handlers : ∀ thread handler, here.own thread = some handler → handler = plugin.handler thread
  owned : ∀ file, here.shared.traces file ≠ none →
    ∃ thread, here.own thread ≠ none ∧ file = traceFile (plugin.name thread)

theorem TracesOwned.next {here : Together Thread (Option RecordHandler) TraceOutput}
    (owned : TracesOwned plugin here) {thread : Thread} {event : PiEvent}
    {next : Option RecordHandler × TraceOutput}
    (ran : plugin.tpCallback thread event (here.own thread) here.shared = some next) :
    TracesOwned plugin ⟨Function.update here.own thread next.1, next.2⟩ := by
  rcases tpCallback_cases (owned.handlers thread) ran with rfl | ⟨made, text, written⟩
  · rw [Function.update_eq_self]
    exact owned
  · refine ⟨fun each handler has => ?_, fun file present => ?_⟩
    · change Function.update here.own thread next.1 each = some handler at has
      rcases eq_or_ne each thread with rfl | differs
      · rw [Function.update_self, made] at has
        exact (Option.some.inj has).symm
      · rw [Function.update_of_ne differs] at has
        exact owned.handlers each handler has
    · by_cases own : file = traceFile (plugin.name thread)
      · have has : Function.update here.own thread next.1 thread ≠ none := by
          rw [Function.update_self, made]
          exact Option.some_ne_none _
        exact ⟨thread, has, own⟩
      · change next.2.traces file ≠ none at present
        rw [written, Function.update_of_ne own] at present
        obtain ⟨each, has, same⟩ := owned.owned file present
        have differs : each ≠ thread := fun equal => own (equal ▸ same)
        have still : Function.update here.own thread next.1 each ≠ none := by
          rwa [Function.update_of_ne differs]
        exact ⟨each, still, same⟩

theorem tracesOwned_of_run
    (ran : plugin.recorder.machine.run (freshRecording Thread) events = some recorded) :
    TracesOwned plugin recorded := by
  refine Machine.invariant (fun here turn next owned stepped => ?_) ran ⟨?_, ?_⟩
  · cases turn with
    | outside change => exact change.elim
    | step thread event =>
      obtain ⟨after, taken, rfl⟩ := Option.map_eq_some_iff.mp stepped
      exact owned.next taken
  · exact fun thread handler none => by cases none
  · exact fun file none => absurd rfl none

/-- However the threads take turns, the directory has one trace for each thread that made a call, with
the records of its own calls in its own order, and no other trace. -/
theorem traces_of_threads (named : Function.Injective plugin.name)
    (begun : ∀ thread, Bracketed (labelsOf thread events))
    (ran : plugin.recorder.machine.run (freshRecording Thread) events = some recorded) :
    (∀ thread, labelsOf thread events ≠ [] → ∃ records,
      recordCalls (plugin.handler thread) plugin.pi (recordedCalls (labelsOf thread events)) =
        some records ∧
      recorded.shared.traces (traceFile (plugin.name thread)) = some (written plugin.pb records)) ∧
    ∀ file, recorded.shared.traces file ≠ none →
      ∃ thread, labelsOf thread events ≠ [] ∧ file = traceFile (plugin.name thread) := by
  have stands := recorded_of_run named begun ran
  constructor
  · intro thread active
    have here := stands thread
    generalize labelsOf thread events = done at active here
    generalize recorded.own thread = own at here
    cases here with
    | fresh => exact absurd rfl active
    | opened _ records made stored => exact ⟨records, made, stored⟩
  · intro file present
    obtain ⟨thread, has, same⟩ := (tracesOwned_of_run ran).owned file present
    refine ⟨thread, fun idle => ?_, same⟩
    have here := stands thread
    rw [idle] at here
    generalize recorded.own thread = own at has here
    cases here with
    | fresh => exact has rfl
    | opened some => exact some rfl

/-- The names of two threads. -/
def pairName : Bool → Bytes
  | false => str "main"
  | true => str "main_0"

private theorem pairName_injective : Function.Injective pairName := by
  intro first second same
  cases first <;> cases second
  · rfl
  · exact absurd same (by decide)
  · exact absurd same (by decide)
  · rfl

/-- Two calls that overlap: the thread that begins first ends last. -/
def pairEvents : List (Turn Bool PiEvent Empty) :=
  [.step false .function_with_args_begin, .step true .function_with_args_begin,
    .step true (.function_with_args_end (.piPlatformsGet 0 0 0x2000) (sampleEnd 0) false),
    .step false (.function_with_args_end (.piDeviceRetain 0x5000) (sampleEnd (-30)) false)]

private theorem pairEvents_bracketed (thread : Bool) : Bracketed (labelsOf thread pairEvents) := by
  intro call after overtaken ends
  cases thread <;> cases ends

theorem traces_of_threads_pair : ∃ recorded,
    (ReplayHost.recordPlugin (sampleHost []) pairName false).recorder.machine.run
      (freshRecording Bool) pairEvents = some recorded ∧
    recorded.shared.traces (str "main_1.pi_trace") = none ∧
    ∃ records, recorded.shared.traces (str "main.pi_trace") = some (written wire records) := by
  have ran : (ReplayHost.recordPlugin (sampleHost []) pairName false).recorder.machine.run
      (freshRecording Bool) pairEvents = some _ := rfl
  obtain ⟨traces, -⟩ := traces_of_threads pairName_injective pairEvents_bracketed ran
  obtain ⟨records, -, stored⟩ := traces false (List.cons_ne_nil _ _)
  exact ⟨_, ran, rfl, records, stored⟩

end Schedules

/-! ## Replaying -/

section Replaying

variable {host : ReplayHost} {handler : RecordHandler} {call : PiCall} {after : CallEnd}
  {rest : List (PiCall × CallEnd)} {own : ThreadTrace} {world : World}

/-- The stream of a thread stands at the records of these calls. -/
def Synced (host : ReplayHost) (handler : RecordHandler) (rest : List (PiCall × CallEnd))
    (own : ThreadTrace) : Prop :=
  ∃ records more, recordCalls handler host.pi rest = some records ∧
    (∀ record ∈ records, Framable host.pb record) ∧
    (rest ≠ [] → ∀ world, ensureTraceOpened host ⟨own.GTrace, own.records, world⟩ =
      { rest := written host.pb (records ++ more) })

/-- The record at which the stream stands, when a call is left. -/
theorem Synced.head (synced : Synced host handler ((call, after) :: rest) own) :
    ∃ outputs records, handler.outputs call after = some outputs ∧
      Framable host.pb (outputs.record host.pi call after) ∧
      (∀ world, ensureTraceOpened host ⟨own.GTrace, own.records, world⟩ =
        { rest := written host.pb (outputs.record host.pi call after :: records) }) ∧
      Synced host handler rest ⟨some { rest := written host.pb records }, own.records + 1⟩ := by
  obtain ⟨records, more, made, framable, stands⟩ := synced
  simp only [recordCalls, RecordHandler.handle, Option.bind_eq_bind, Option.bind_eq_some_iff,
    Option.map_eq_some_iff, Option.pure_def, Option.some.injEq] at made
  obtain ⟨_, ⟨outputs, handled, rfl⟩, records, later, rfl⟩ := made
  have further := fun record member => framable record (List.mem_cons_of_mem _ member)
  exact ⟨outputs, records ++ more, handled, framable _ (List.mem_cons_self ..),
    stands (List.cons_ne_nil _ _), records, more, later, further, fun _ _ => rfl⟩

variable {output : TraceOutput} {name : Thread → Bytes} {handlers : Thread → RecordHandler}

end Replaying

/-! ## Schedules -/

section Replayed

variable [DecidableEq Thread] {host : ReplayHost} {name : Thread → Bytes} {skip : Bool}
  {events : List (Turn Thread PiEvent Empty)}
  {recorded : Together Thread (Option RecordHandler) TraceOutput}

/-- Threads with different names were recorded, and their records are of a size that can be framed. -/
structure RecordedRun (host : ReplayHost) (name : Thread → Bytes) (skip : Bool)
    (events : List (Turn Thread PiEvent Empty))
    (recorded : Together Thread (Option RecordHandler) TraceOutput) : Prop where
  named : Function.Injective name
  begun : ∀ thread, Bracketed (labelsOf thread events)
  ran : (host.recordPlugin name skip).recorder.machine.run (freshRecording Thread) events =
    some recorded
  framable : ∀ thread records,
    recordCalls ⟨name thread, !skip⟩ host.pi (recordedCalls (labelsOf thread events)) =
      some records → ∀ record ∈ records, Framable host.pb record

/-- The threads make calls that were recorded, each in the order in which it made them. -/
def Repeats (events : List (Turn Thread PiEvent Empty))
    (schedule : List (Turn Thread (PiCall × CallEnd) (ℕ × Bytes))) : Prop :=
  ∀ thread, labelsOf thread schedule <+: recordedCalls (labelsOf thread events)

private theorem recordCalls_append {handler : RecordHandler} {pi : PiDef}
    {front rest : List (PiCall × CallEnd)} {records : List APICall}
    (made : recordCalls handler pi (front ++ rest) = some records) :
    ∃ first more, recordCalls handler pi front = some first ∧ records = first ++ more := by
  induction front generalizing records with
  | nil => exact ⟨[], records, rfl, rfl⟩
  | cons call front ih =>
    simp only [List.cons_append, recordCalls, Option.bind_eq_bind, Option.bind_eq_some_iff,
      Option.pure_def, Option.some.injEq] at made
    obtain ⟨record, handled, later, further, rfl⟩ := made
    obtain ⟨first, more, split, rfl⟩ := ih further
    refine ⟨record :: first, more, ?_, rfl⟩
    simp only [recordCalls, handled, split, Option.bind_eq_bind, Option.bind_some, Option.pure_def]

/-- Before the first call every thread's stream is at the records of what the thread repeats. -/
theorem RecordedRun.synced (run : RecordedRun host name skip events recorded)
    {schedule : List (Turn Thread (PiCall × CallEnd) (ℕ × Bytes))} (repeats : Repeats events schedule)
    (thread : Thread) : Synced (threadHost host recorded.shared (name thread)) ⟨name thread, !skip⟩
      (labelsOf thread schedule) {} := by
  obtain ⟨rest, split⟩ := repeats thread
  have stands := recorded_of_run run.named run.begun run.ran thread
  have framable := run.framable thread
  generalize labelsOf thread events = done at split stands framable
  generalize recorded.own thread = own at stands
  cases stands with
  | fresh absent =>
    have none : labelsOf thread schedule = [] := (List.append_eq_nil_iff.mp split).1
    rw [none]
    exact ⟨[], [], rfl, List.forall_mem_nil _, fun some => absurd rfl some⟩
  | opened _ records made stored =>
    rw [← split] at made framable
    obtain ⟨first, more, front, rfl⟩ := recordCalls_append made
    refine ⟨first, more, front, fun record member => ?_, fun _ world => ?_⟩
    · exact framable _ made record (List.mem_append_left _ member)
    · change IStream.opened (recorded.shared.traces (traceFile (name thread))) = _
      rw [show recorded.shared.traces (traceFile (name thread)) = some (written host.pb (first ++ more))
        from stored]
      rfl

end Replayed

theorem recordedRun_pair :
    ∃ recorded, RecordedRun (sampleHost []) pairName false pairEvents recorded := by
  refine ⟨_, pairName_injective, pairEvents_bracketed, rfl, fun thread records made => ?_⟩
  cases thread <;> obtain rfl := Option.some.inj made <;> unfold Framable <;> decide

end DpcppTrace.Soundness
