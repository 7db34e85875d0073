import DpcppTrace.Model.PrintTrace
import DpcppTrace.Soundness.TraceFile

/-! # The order in which a trace is printed

Without grouping, the records of all threads are sorted by start time with a sort that may reorder
ties. Start times have microseconds, so two calls of one thread can have the same; such a pair is
printed in either order, unless the two records are equal.
-/

namespace DpcppTrace.Soundness

open Foundation Framing Model

/-- The traces of some threads, each in the order of the calls. -/
structure ThreadTraces where
  traces : List (Bytes × List APICall)
  distinct : (traces.map Prod.fst).Nodup
  monotone : ∀ trace ∈ traces, trace.2.Pairwise fun first second =>
    first.time_start.toNat ≤ second.time_start.toNat

/-- The records of a thread. -/
def threadRecords (trace : Bytes × List APICall) : List RecordT := trace.2.map (trace.1, ·)

def ThreadTraces.records (threads : ThreadTraces) : List RecordT :=
  threads.traces.flatMap threadRecords

/-- The records among what is printed. -/
def printedRecords (printed : List Printed) : List RecordT :=
  printed.filterMap fun item =>
    match item with
    | .record r _ => some r
    | _ => none

/-- Every record is printed once, by start time, and those of a thread in the order of its calls. -/
structure ListsCalls (threads : ThreadTraces) (printed : List Printed) : Prop where
  once : (printedRecords printed).Perm threads.records
  byTime : (printedRecords printed).Pairwise fun first second =>
    first.2.time_start.toNat ≤ second.2.time_start.toNat
  byThread : ∀ trace ∈ threads.traces,
    (printedRecords printed).filter (fun r => r.1 = trace.1) = threadRecords trace

/-! ## The records of a directory -/

/-- The files of the traces are read into the records. -/
theorem readTraces_written (pb : Protobuf) (junk : Bytes → ℕ → StackFrame) (fuel : ℕ)
    (traces : List (Bytes × List APICall)) (records : List RecordT)
    (framable : ∀ trace ∈ traces, ∀ call ∈ trace.2, Framable pb call)
    (enough : ∀ trace ∈ traces, trace.2.length < fuel) :
    readTraces pb junk fuel records
        (traces.map fun trace => (trace.1, .opened (some (written pb trace.2)))) =
      some (.ok (records ++ traces.flatMap threadRecords)) := by
  induction traces generalizing records with
  | nil => simp [readTraces]
  | cons trace traces ih =>
    obtain ⟨here, later⟩ := List.forall_mem_cons.mp framable
    obtain ⟨fits, others⟩ := List.forall_mem_cons.mp enough
    have parsed : parseTraceFile pb (junk trace.1) fuel records trace.1
        (.opened (some (written pb trace.2))) = some (.ok (records ++ threadRecords trace)) := by
      have whole := parseLoop_cut pb (junk trace.1) trace.1 trace.2 here
        (written pb trace.2).length fuel 0 records fits
      rw [List.take_length, written_eq_flatten, wholeCount_flatten, List.length_map,
        List.take_length, ← written_eq_flatten] at whole
      exact whole
    rw [List.map_cons, readTraces, parsed, List.flatMap_cons, ← List.append_assoc]
    exact ih (records ++ threadRecords trace) later others

/-! ## The sort -/

theorem printedRecords_printSorted (opts : PrintOptions) (records : List RecordT) :
    printedRecords (printSorted opts records) = records := by
  have calls : printedRecords (records.flatMap fun r => [.thread r.1, .record r opts.verbose]) =
      records := by
    induction records with
    | nil => rfl
    | cons r records ih =>
      rw [printedRecords] at ih
      simp [printedRecords, ih]
  have noSummary (perfMap : PerfMap) : printedRecords (summaryIf opts perfMap) = [] := by
    rw [summaryIf]
    split <;> rfl
  rw [printSorted, printedRecords, List.filterMap_append]
  exact (congrArg₂ (· ++ ·) calls (noSummary _)).trans (List.append_nil records)

private theorem mem_records {threads : ThreadTraces} {r : RecordT} :
    r ∈ threads.records ↔ ∃ trace ∈ threads.traces, r.1 = trace.1 ∧ r.2 ∈ trace.2 := by
  simp only [ThreadTraces.records, threadRecords, List.mem_flatMap, List.mem_map]
  constructor
  · rintro ⟨trace, traceIn, call, callIn, rfl⟩
    exact ⟨trace, traceIn, rfl, callIn⟩
  · rintro ⟨trace, traceIn, thread, callIn⟩
    exact ⟨trace, traceIn, r.2, callIn, by rw [← thread]⟩

/-- The records of a thread, picked from those of all. -/
theorem filter_threadRecords {traces : List (Bytes × List APICall)}
    (distinct : (traces.map Prod.fst).Nodup) {trace : Bytes × List APICall}
    (member : trace ∈ traces) :
    (traces.flatMap threadRecords).filter (fun r => r.1 = trace.1) = threadRecords trace := by
  have own (name : Bytes) (other : Bytes × List APICall) :
      (threadRecords other).filter (fun r => r.1 = name) =
        if other.1 = name then threadRecords other else [] := by
    split
    · rename_i same
      exact List.filter_eq_self.mpr fun r inside => by
        obtain ⟨call, -, rfl⟩ := List.mem_map.mp inside
        exact decide_eq_true same
    · rename_i differs
      exact List.filter_eq_nil_iff.mpr fun r inside => by
        obtain ⟨call, -, rfl⟩ := List.mem_map.mp inside
        simpa using differs
  induction traces with
  | nil => cases member
  | cons first traces ih =>
    obtain ⟨alone, later⟩ := List.nodup_cons.mp distinct
    rw [List.flatMap_cons, List.filter_append, own]
    rcases List.mem_cons.mp member with rfl | inside
    · have rest : (traces.flatMap threadRecords).filter (fun r => r.1 = trace.1) = [] := by
        rw [List.filter_eq_nil_iff]
        intro r recorded
        obtain ⟨other, otherIn, call⟩ := List.mem_flatMap.mp recorded
        obtain ⟨call, -, rfl⟩ := List.mem_map.mp call
        have differs : other.1 ≠ trace.1 := fun same =>
          alone (List.mem_map.mpr ⟨other, otherIn, same⟩)
        simpa using differs
      rw [if_pos rfl, rest, List.append_nil]
    · have differs : first.1 ≠ trace.1 := fun same =>
        alone (List.mem_map.mpr ⟨trace, inside, same.symm⟩)
      rw [if_neg differs, ih later inside, List.nil_append]

theorem ThreadTraces.filter_records (threads : ThreadTraces) {trace : Bytes × List APICall}
    (member : trace ∈ threads.traces) :
    threads.records.filter (fun r => r.1 = trace.1) = threadRecords trace :=
  filter_threadRecords threads.distinct member

/-- On every thread the start times never decrease. -/
theorem ThreadTraces.records_monotone (threads : ThreadTraces) (name : Bytes) :
    (threads.records.filter fun r => r.1 = name).Pairwise fun first second =>
      first.2.time_start.toNat ≤ second.2.time_start.toNat := by
  by_cases known : ∃ trace ∈ threads.traces, trace.1 = name
  · obtain ⟨trace, member, rfl⟩ := known
    rw [threads.filter_records member, threadRecords, List.pairwise_map]
    exact threads.monotone trace member
  · have nothing : threads.records.filter (fun r => r.1 = name) = [] := by
      rw [List.filter_eq_nil_iff]
      intro r recorded
      obtain ⟨trace, member, thread, -⟩ := mem_records.mp recorded
      have differs : r.1 ≠ name := fun same => known ⟨trace, member, thread.symm.trans same⟩
      simpa using differs
    rw [nothing]
    exact List.Pairwise.nil

/-- What is printed lists the calls exactly if the sort kept the order on every thread. -/
theorem listsCalls_iff (threads : ThreadTraces) (opts : PrintOptions) {sorted : List RecordT}
    (sorts : Sorts (fun r : RecordT => r.2.time_start.toNat) threads.records sorted) :
    ListsCalls threads (printSorted opts sorted) ↔ ∀ name,
      sorted.filter (fun r => r.1 = name) = threads.records.filter fun r => r.1 = name := by
  have listed := printedRecords_printSorted opts sorted
  constructor
  · intro lists name
    by_cases known : ∃ trace ∈ threads.traces, trace.1 = name
    · obtain ⟨trace, member, rfl⟩ := known
      rw [threads.filter_records member, ← lists.byThread trace member, listed]
    · have absent {records : List RecordT} (perm : records.Perm threads.records) :
          records.filter (fun r => r.1 = name) = [] := by
        rw [List.filter_eq_nil_iff]
        intro r recorded
        obtain ⟨trace, member, thread, -⟩ := mem_records.mp (perm.mem_iff.mp recorded)
        have differs : r.1 ≠ name := fun same => known ⟨trace, member, thread.symm.trans same⟩
        simpa using differs
      rw [absent sorts.perm, absent (List.Perm.refl _)]
  · intro kept
    refine ⟨?_, ?_, fun trace member => ?_⟩
    · rw [listed]
      exact sorts.perm
    · rw [listed]
      exact sorts.ordered
    · rw [listed, kept, threads.filter_records member]

/-- Without grouping, whatever the sort returns, every record is printed once, by start time and in
the order of the calls of its thread, exactly if no two different records of a thread have the same
start time. -/
theorem print_order_iff (threads : ThreadTraces) (verbose performance_summary : Bool) :
    (∀ printed, PrintsTrace ⟨.none, verbose, performance_summary⟩ threads.records printed →
        ListsCalls threads printed) ↔
      ∀ trace ∈ threads.traces, ∀ first ∈ trace.2, ∀ second ∈ trace.2,
        first.time_start = second.time_start → first = second := by
  have kept : (∀ sorted, Sorts (fun r : RecordT => r.2.time_start.toNat) threads.records sorted →
        ∀ name, sorted.filter (fun r => r.1 = name) = threads.records.filter fun r => r.1 = name) ↔
      ∀ first ∈ threads.records, ∀ second ∈ threads.records, first.1 = second.1 →
        first.2.time_start.toNat = second.2.time_start.toNat → first = second :=
    Sorts.order_kept_iff threads.records_monotone
  have prints : (∀ printed, PrintsTrace ⟨.none, verbose, performance_summary⟩ threads.records printed →
        ListsCalls threads printed) ↔
      ∀ sorted, Sorts (fun r : RecordT => r.2.time_start.toNat) threads.records sorted → ∀ name,
        sorted.filter (fun r => r.1 = name) = threads.records.filter fun r => r.1 = name := by
    constructor
    · intro always sorted sorts
      exact (listsCalls_iff threads _ sorts).mp (always _ (.sorted rfl sorts))
    · intro always printed prints
      cases prints with
      | byThread grouped => cases grouped
      | sorted _ sorts => exact (listsCalls_iff threads _ sorts).mpr (always _ sorts)
  rw [prints, kept]
  constructor
  · intro ties trace member first firstIn second secondIn same
    have equal := ties (trace.1, first) (mem_records.mpr ⟨trace, member, rfl, firstIn⟩)
      (trace.1, second) (mem_records.mpr ⟨trace, member, rfl, secondIn⟩) rfl
      (congrArg UInt64.toNat same)
    exact (Prod.mk.inj equal).2
  · intro ties first firstIn second secondIn thread same
    obtain ⟨trace, member, name, firstCall⟩ := mem_records.mp firstIn
    obtain ⟨other, otherIn, otherName, secondCall⟩ := mem_records.mp secondIn
    obtain rfl : trace = other :=
      List.inj_on_of_nodup_map threads.distinct member otherIn
        (name.symm.trans (thread.trans otherName))
    exact Prod.ext thread (ties trace member _ firstCall _ secondCall (UInt64.toNat_inj.mp same))

/-- Two calls of the main thread in the same microsecond. -/
def tiedTraces : ThreadTraces where
  traces := [(str "main", [{ function_id := 1, time_start := 5 }, { function_id := 2, time_start := 5 }])]
  distinct := List.nodup_singleton _
  monotone := by
    intro trace member
    obtain rfl := List.mem_singleton.mp member
    simp

/-- The second of two tied calls can be printed first. -/
theorem not_print_order :
    ¬∀ printed, PrintsTrace ⟨.none, false, false⟩ tiedTraces.records printed →
      ListsCalls tiedTraces printed := by
  intro always
  have sorts : Sorts (fun r : RecordT => r.2.time_start.toNat) tiedTraces.records
      [(str "main", { function_id := 2, time_start := 5 }),
        (str "main", { function_id := 1, time_start := 5 })] := by
    refine ⟨List.Perm.swap _ _ _, ?_⟩
    simp
  have lists := (listsCalls_iff tiedTraces _ sorts).mp (always _ (.sorted rfl sorts)) (str "main")
  exact absurd lists (by decide)

end DpcppTrace.Soundness
