import Mathlib.Data.Set.List
import DpcppTrace.Model.TraceListing
import DpcppTrace.Soundness.PrintOrder
import DpcppTrace.Soundness.ThreadedReplay

/-! # What is printed of a recording

The traces that the threads of a program leave, in whatever order they took turns, are read back file by
file. Grouped by thread, the calls of every thread are printed as it made them; sorted by start time,
they are printed once each.
-/

namespace DpcppTrace.Soundness

open Foundation Model Interleaving

/-! ## The names of traces -/

/-- The front of a trace's name is the name of its thread. -/
theorem stem_traceFile {name : Bytes} (nonempty : name ≠ []) (plain : slash ∉ name) :
    stem (traceFile name) = name :=
  stem_dotted nonempty plain (by decide) (by decide) (by decide)

private theorem extension_traceFile {name : Bytes} (nonempty : name ≠ []) (plain : slash ∉ name) :
    extension (traceFile name) = kPiTraceExt :=
  extension_dotted nonempty plain (by decide) (by decide) (by decide)

/-! ## What is printed -/

private theorem printedRecords_append (first second : List Printed) :
    printedRecords (first ++ second) = printedRecords first ++ printedRecords second :=
  List.filterMap_append

private theorem printedRecords_threadLoop (opts : PrintOptions) (last : Bytes) (perfMap : PerfMap)
    (records : List RecordT) : printedRecords (threadLoop opts last perfMap records).1 = records := by
  induction records generalizing last perfMap with
  | nil => rfl
  | cons r records ih =>
    rw [threadLoop]
    dsimp only
    rw [printedRecords_append]
    have boundary : printedRecords (if last ≠ r.1 then
        (if last ≠ [] then [.endThread last] else []) ++ [.startThread r.1] else []) = [] := by
      split
      · split <;> rfl
      · rfl
    rw [boundary, List.nil_append]
    exact congrArg (r :: ·) (ih r.1 (collectPerf perfMap r))

/-- Grouped by thread, the records are printed in the order in which they were read. -/
theorem printedRecords_printByThread (opts : PrintOptions) (records : List RecordT) :
    printedRecords (printByThread opts records) = records := by
  have summary (perfMap : PerfMap) : printedRecords (summaryIf opts perfMap) = [] := by
    rw [summaryIf]
    split <;> rfl
  rw [printByThread]
  dsimp only
  rw [printedRecords_append, printedRecords_append, printedRecords_threadLoop, summary, List.append_nil]
  exact List.append_nil records

/-- The records of a thread in the order in which it made the calls. -/
def ownRecords {Thread : Type} (plugin : RecordPlugin Thread) (events : List PiEvent) (thread : Thread) :
    List APICall :=
  (recordCalls (plugin.handler thread) plugin.pi (recordedCalls events)).getD []

section Recording

variable {Thread : Type} [DecidableEq Thread] {plugin : RecordPlugin Thread}
  {events : List (Turn Thread PiEvent Empty)}
  {recorded : Together Thread (Option RecordHandler) TraceOutput}

/-- The trace of a thread that made a call. -/
theorem trace_stored (named : Function.Injective plugin.name)
    (begun : ∀ thread, Bracketed (labelsOf thread events))
    (ran : plugin.recorder.machine.run (freshRecording Thread) events = some recorded) (thread : Thread) :
    recorded.shared.traces (traceFile (plugin.name thread)) =
      if labelsOf thread events = [] then none
      else some (written plugin.pb (ownRecords plugin (labelsOf thread events) thread)) := by
  have here := recorded_of_run named begun ran thread
  generalize recorded.own thread = own at here
  generalize labelsOf thread events = done at here ⊢
  cases here with
  | fresh absent => exact absent
  | opened begun records made stored => rw [if_neg begun, ownRecords, made, stored, Option.getD_some]

/-- The files with the extension of a trace are those of the threads that made a call. -/
theorem traceFiles_eq (named : Function.Injective plugin.name)
    (plain : ∀ thread, plugin.name thread ≠ [] ∧ slash ∉ plugin.name thread)
    (begun : ∀ thread, Bracketed (labelsOf thread events))
    (ran : plugin.recorder.machine.run (freshRecording Thread) events = some recorded)
    {listing : List Bytes} (distinct : listing.Nodup)
    (complete : ∀ file, extension file = kPiTraceExt →
      (file ∈ listing ↔ recorded.shared.traces file ≠ none)) :
    ∃ threads : List Thread, threads.Nodup ∧ (∀ thread, thread ∈ threads ↔ labelsOf thread events ≠ []) ∧
      traceFiles recorded.shared listing = threads.map fun thread => (plugin.name thread,
        .opened (some (written plugin.pb (ownRecords plugin (labelsOf thread events) thread)))) := by
  have owned := tracesOwned_of_run ran
  have stored := trace_stored named begun ran
  have range : (listing.filter fun file => extension file = kPiTraceExt) ∈
      Set.range (List.map fun thread => traceFile (plugin.name thread)) := by
    rw [Set.range_list_map]
    intro file mem
    obtain ⟨listed, trace⟩ := List.mem_filter.mp mem
    have present := (complete file (of_decide_eq_true trace)).mp listed
    obtain ⟨thread, -, same⟩ := owned.owned file present
    exact ⟨thread, same.symm⟩
  obtain ⟨threads, files⟩ := range
  have active (thread : Thread) : thread ∈ threads ↔ labelsOf thread events ≠ [] := by
    have listed : thread ∈ threads ↔ traceFile (plugin.name thread) ∈ listing := by
      rw [← List.mem_map_of_injective (traceFile_injective.comp named)]
      change traceFile (plugin.name thread) ∈ threads.map (fun thread => traceFile (plugin.name thread)) ↔ _
      rw [files, List.mem_filter, extension_traceFile (plain thread).1 (plain thread).2]
      simp
    rw [listed, complete _ (extension_traceFile (plain thread).1 (plain thread).2), stored]
    split
    · rename_i idle
      simp [idle]
    · rename_i calls
      simp [calls]
  refine ⟨threads, ?_, active, ?_⟩
  · apply List.Nodup.of_map fun thread => traceFile (plugin.name thread)
    rw [files]
    exact distinct.filter _
  · rw [traceFiles, ← files, List.map_map]
    apply List.map_congr_left
    intro thread mem
    change (stem (traceFile (plugin.name thread)),
      IStream.opened (recorded.shared.traces (traceFile (plugin.name thread)))) = _
    rw [stem_traceFile (plain thread).1 (plain thread).2, stored, if_neg ((active thread).mp mem)]

/-- The calls of every thread are printed, those of nobody else, in the order of the thread or by start
time. -/
structure PrintsCalls (plugin : RecordPlugin Thread) (events : List (Turn Thread PiEvent Empty))
    (opts : PrintOptions) (printed : List Printed) : Prop where
  each : ∀ thread, ((printedRecords printed).filter fun r => r.1 = plugin.name thread).Perm
    (threadRecords (plugin.name thread, ownRecords plugin (labelsOf thread events) thread))
  others : ∀ r ∈ printedRecords printed, ∃ thread, r.1 = plugin.name thread
  grouped : opts.print_group = .thread → ∀ thread,
    (printedRecords printed).filter (fun r => r.1 = plugin.name thread) =
      threadRecords (plugin.name thread, ownRecords plugin (labelsOf thread events) thread)
  byTime : opts.print_group = .none → (printedRecords printed).Pairwise fun first second =>
    first.2.time_start.toNat ≤ second.2.time_start.toNat

/-- Whatever order the threads of a program took turns in while it was recorded, and whatever order its
traces are listed in, `printTrace` reads them all and prints of every thread the calls that it made. -/
theorem recording_printed (named : Function.Injective plugin.name)
    (plain : ∀ thread, plugin.name thread ≠ [] ∧ slash ∉ plugin.name thread)
    (begun : ∀ thread, Bracketed (labelsOf thread events))
    (ran : plugin.recorder.machine.run (freshRecording Thread) events = some recorded)
    (framable : ∀ thread, ∀ record ∈ ownRecords plugin (labelsOf thread events) thread,
      Framable plugin.pb record)
    (listing : List Bytes) (distinct : listing.Nodup)
    (complete : ∀ file, extension file = kPiTraceExt →
      (file ∈ listing ↔ recorded.shared.traces file ≠ none))
    (junk : Bytes → ℕ → StackFrame) (fuel : ℕ)
    (enough : ∀ thread, (ownRecords plugin (labelsOf thread events) thread).length < fuel) :
    ∃ records, readTraces plugin.pb junk fuel [] (traceFiles recorded.shared listing) =
        some (.ok records) ∧
      ∀ opts printed, PrintsTrace opts records printed → PrintsCalls plugin events opts printed := by
  obtain ⟨threads, once, active, files⟩ := traceFiles_eq named plain begun ran distinct complete
  let trace (thread : Thread) : Bytes × List APICall :=
    (plugin.name thread, ownRecords plugin (labelsOf thread events) thread)
  have read := readTraces_written plugin.pb junk fuel (threads.map trace) []
    (by simpa using fun thread _ => framable thread) (by simpa using fun thread _ => enough thread)
  rw [List.map_map, List.nil_append] at read
  have names : ((threads.map trace).map Prod.fst).Nodup := by
    rw [List.map_map]
    exact once.map named
  have named_of_mem {r : RecordT} (mem : r ∈ (threads.map trace).flatMap threadRecords) :
      ∃ thread ∈ threads, r.1 = plugin.name thread := by
    obtain ⟨other, otherIn, inside⟩ := List.mem_flatMap.mp mem
    obtain ⟨thread, mine, rfl⟩ := List.mem_map.mp otherIn
    obtain ⟨call, -, rfl⟩ := List.mem_map.mp inside
    exact ⟨thread, mine, rfl⟩
  have own (thread : Thread) : ((threads.map trace).flatMap threadRecords).filter
      (fun r => r.1 = plugin.name thread) = threadRecords (trace thread) := by
    by_cases calls : thread ∈ threads
    · exact filter_threadRecords names (List.mem_map_of_mem calls)
    · have idle : labelsOf thread events = [] := not_not.mp fun some_ => calls ((active thread).mpr some_)
      have nothing : threadRecords (trace thread) = [] := by
        simp only [trace, idle]
        rfl
      rw [nothing, List.filter_eq_nil_iff]
      intro r mem
      obtain ⟨other, otherIn, same⟩ := named_of_mem mem
      have differs : r.1 ≠ plugin.name thread := fun equal =>
        calls (named (same.symm.trans equal) ▸ otherIn)
      simpa using differs
  refine ⟨(threads.map trace).flatMap threadRecords, files ▸ read, fun opts printed prints => ?_⟩
  cases prints with
  | byThread grouped =>
    rw [← printedRecords_printByThread opts ((threads.map trace).flatMap threadRecords)] at own named_of_mem
    refine ⟨fun thread => .of_eq (own thread), fun r mem => ?_, fun _ => own, fun all => ?_⟩
    · obtain ⟨thread, -, same⟩ := named_of_mem mem
      exact ⟨thread, same⟩
    · rw [grouped] at all
      cases all
  | @sorted sorted all sorts =>
    have listed := printedRecords_printSorted opts sorted
    refine ⟨fun thread => ?_, fun r mem => ?_, fun grouped => ?_, fun _ => ?_⟩
    · rw [listed]
      exact (sorts.perm.filter _).trans (.of_eq (own thread))
    · rw [listed] at mem
      obtain ⟨thread, -, same⟩ := named_of_mem (sorts.perm.mem_iff.mp mem)
      exact ⟨thread, same⟩
    · rw [all] at grouped
      cases grouped
    · rw [listed]
      exact sorts.ordered

end Recording

/-- The files of a recording of two threads. -/
def pairListing : List Bytes := [str "main_0.pi_trace", str "env", str "main.pi_trace"]

private theorem pairListing_complete
    {recorded : Together Bool (Option RecordHandler) TraceOutput}
    (run : RecordedRun (sampleHost []) pairName false pairEvents recorded) (file : Bytes)
    (trace : extension file = kPiTraceExt) : file ∈ pairListing ↔ recorded.shared.traces file ≠ none := by
  have present (thread : Bool) : recorded.shared.traces (traceFile (pairName thread)) ≠ none := by
    have stored := trace_stored run.named run.begun run.ran thread
    have calls : labelsOf thread pairEvents ≠ [] := by cases thread <;> exact List.cons_ne_nil _ _
    rw [if_neg calls] at stored
    exact stored ▸ Option.some_ne_none _
  constructor
  · intro mem
    simp only [pairListing, List.mem_cons, List.not_mem_nil, or_false] at mem
    rcases mem with rfl | rfl | rfl
    · exact present true
    · exact absurd trace (by decide)
    · exact present false
  · intro some_
    obtain ⟨thread, -, rfl⟩ := (tracesOwned_of_run run.ran).owned file some_
    cases thread <;> decide

/-- The recording of two threads is printed by thread. -/
theorem recording_printed_pair : ∃ recorded records,
    (ReplayHost.recordPlugin (sampleHost []) pairName false).recorder.machine.run
      (freshRecording Bool) pairEvents = some recorded ∧
    readTraces wire (fun _ _ => {}) 2 [] (traceFiles recorded.shared pairListing) = some (.ok records) ∧
    PrintsCalls (ReplayHost.recordPlugin (sampleHost []) pairName false) pairEvents
      ⟨.thread, false, false⟩ (printByThread ⟨.thread, false, false⟩ records) := by
  obtain ⟨recorded, run⟩ := recordedRun_pair
  have plain : ∀ thread, pairName thread ≠ [] ∧ slash ∉ pairName thread := by decide
  have framable : ∀ thread, ∀ record ∈ ownRecords (ReplayHost.recordPlugin (sampleHost []) pairName false)
      (labelsOf thread pairEvents) thread, Framable wire record := by
    intro thread
    cases thread <;> unfold Framable <;> decide
  have enough : ∀ thread, (ownRecords (ReplayHost.recordPlugin (sampleHost []) pairName false)
      (labelsOf thread pairEvents) thread).length < 2 := by decide
  obtain ⟨records, read, prints⟩ := recording_printed run.named plain run.begun run.ran framable
    pairListing (by decide) (pairListing_complete run) (fun _ _ => {}) 2 enough
  exact ⟨recorded, records, run.ran, read, prints _ _ (.byThread rfl)⟩

end DpcppTrace.Soundness
