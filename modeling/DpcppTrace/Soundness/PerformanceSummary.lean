import DpcppTrace.Soundness.PrintOrder
import Mathlib.Algebra.Order.BigOperators.Group.List
import Mathlib.Data.List.SplitBy

/-! # What the performance summary is about

One accumulator for each function collects number, extremes and total of the durations. It is
threaded through the loop over all records and printed behind it; with grouping by thread, the end of
a group inside the loop neither prints nor clears it, so its one summary is about all threads.
-/

namespace DpcppTrace.Soundness

open Foundation Model

/-- The time between the start and the end of a call. -/
def elapsed (r : RecordT) : ℕ := r.2.time_end.toNat - r.2.time_start.toNat

/-- The durations of the group's calls of a function. -/
def durations (group : List RecordT) (id : UInt32) : List ℕ :=
  (group.filter fun r => r.2.function_id = id).map elapsed

/-- The rows state the calls of the group: one row for each function in it, with the number of its
calls, the least, the greatest and the rounded average of their durations. -/
structure StatesGroup (rows : List SummaryRow) (group : List RecordT) : Prop where
  once : (rows.map (·.functionId)).Nodup
  occurs : ∀ id, id ∈ rows.map (·.functionId) ↔ id ∈ group.map (·.2.function_id)
  calls : ∀ row ∈ rows, row.totalCalls.toNat = (durations group row.functionId).length
  least : ∀ row ∈ rows, (durations group row.functionId).min? = some row.minDuration.toNat
  greatest : ∀ row ∈ rows, (durations group row.functionId).max? = some row.maxDuration.toNat
  average : ∀ row ∈ rows, row.avgDuration.toNat =
    (durations group row.functionId).sum / (durations group row.functionId).length

/-- The rows of the summaries among what is printed. -/
def summaries (printed : List Printed) : List (List SummaryRow) :=
  printed.filterMap fun item =>
    match item with
    | .performanceSummary rows => some rows
    | _ => none

/-- The groups in which the records are printed. -/
def printedGroups : PrintGroup → List RecordT → List (List RecordT)
  | .none, records => [records]
  | .thread, records => records.splitBy fun first second => first.1 == second.1

/-! ## One function -/

section Accumulate

variable {records : List RecordT}

private theorem duration_toNat {r : RecordT} (ended : r.2.time_start ≤ r.2.time_end) :
    (duration r).toNat = elapsed r := UInt64.toNat_sub_of_le _ _ ended

private theorem toNat_max (first second : UInt64) :
    (max first second).toNat = max first.toNat second.toNat := by
  change (if first ≤ second then second else first).toNat = _
  split
  · rename_i below
    rw [Nat.max_eq_right (UInt64.le_iff_toNat_le.mp below)]
  · rename_i above
    rw [UInt64.le_iff_toNat_le] at above
    rw [Nat.max_eq_left (by omega)]

private theorem toNat_min (first second : UInt64) :
    (min first second).toNat = min first.toNat second.toNat := by
  change (if first ≤ second then first else second).toNat = _
  split
  · rename_i below
    rw [Nat.min_eq_left (UInt64.le_iff_toNat_le.mp below)]
  · rename_i above
    rw [UInt64.le_iff_toNat_le] at above
    rw [Nat.min_eq_right (by omega)]

private theorem maxDuration_foldl (ended : ∀ r ∈ records, r.2.time_start ≤ r.2.time_end)
    (ps : PerformanceSummary) :
    (records.foldl PerformanceSummary.add ps).maxDuration.toNat =
      (records.map elapsed).foldl max ps.maxDuration.toNat := by
  induction records generalizing ps with
  | nil => rfl
  | cons r records ih =>
    obtain ⟨here, later⟩ := List.forall_mem_cons.mp ended
    rw [List.foldl_cons, ih later, List.map_cons, List.foldl_cons, PerformanceSummary.add, toNat_max,
      duration_toNat here]

private theorem minDuration_foldl (ended : ∀ r ∈ records, r.2.time_start ≤ r.2.time_end)
    (ps : PerformanceSummary) :
    (records.foldl PerformanceSummary.add ps).minDuration.toNat =
      (records.map elapsed).foldl min ps.minDuration.toNat := by
  induction records generalizing ps with
  | nil => rfl
  | cons r records ih =>
    obtain ⟨here, later⟩ := List.forall_mem_cons.mp ended
    rw [List.foldl_cons, ih later, List.map_cons, List.foldl_cons, PerformanceSummary.add, toNat_min,
      duration_toNat here]

private theorem totalCalls_foldl (ps : PerformanceSummary)
    (fits : ps.totalCalls.toNat + records.length < 2 ^ 64) :
    (records.foldl PerformanceSummary.add ps).totalCalls.toNat =
      ps.totalCalls.toNat + records.length := by
  induction records generalizing ps with
  | nil => rfl
  | cons r records ih =>
    rw [List.length_cons] at fits
    have next : (ps.add r).totalCalls.toNat = ps.totalCalls.toNat + 1 := by
      rw [PerformanceSummary.add, UInt64.toNat_add]
      exact Nat.mod_eq_of_lt (by simp; omega)
    rw [List.foldl_cons, ih _ (by omega), next, List.length_cons]
    omega

private theorem totalDuration_foldl (ended : ∀ r ∈ records, r.2.time_start ≤ r.2.time_end)
    (ps : PerformanceSummary)
    (fits : ps.totalDuration.toNat + (records.map elapsed).sum < 2 ^ 64) :
    (records.foldl PerformanceSummary.add ps).totalDuration.toNat =
      ps.totalDuration.toNat + (records.map elapsed).sum := by
  induction records generalizing ps with
  | nil => rfl
  | cons r records ih =>
    obtain ⟨here, later⟩ := List.forall_mem_cons.mp ended
    rw [List.map_cons, List.sum_cons] at fits
    have next : (ps.add r).totalDuration.toNat = ps.totalDuration.toNat + elapsed r := by
      rw [PerformanceSummary.add, UInt64.toNat_add, duration_toNat here]
      exact Nat.mod_eq_of_lt (by omega)
    rw [List.foldl_cons, ih later _ (by omega), next, List.map_cons, List.sum_cons]
    omega

/-- The greatest of the values before is lost to any value, and the least is. -/
theorem foldl_max_fresh {times : List ℕ} (some : times ≠ []) :
    Option.some (times.foldl max 0) = times.max? := by
  rw [List.foldl_max, Nat.zero_max]
  rcases times with _ | ⟨time, times⟩
  · exact absurd rfl some
  · rfl

private theorem foldl_min_fresh {times : List ℕ} (some : times ≠ []) (below : ∀ time ∈ times, time < 2 ^ 64) :
    Option.some (times.foldl min (2 ^ 64 - 1)) = times.min? := by
  rcases found : times.min? with _ | least
  · exact absurd (List.min?_eq_none_iff.mp found) some
  · have bound := below least (List.min?_eq_some_iff.mp found).1
    rw [List.foldl_min, found, Option.getD_some, Nat.min_eq_right (by omega)]

end Accumulate

/-! ## One group -/

private theorem foldl_collectPerf (records : List RecordT) :
    records.foldl collectPerf .empty =
      Dictionary.tally (fun r : RecordT => r.2.function_id) {} PerformanceSummary.add .empty records :=
  rfl

/-- The summary of a function is that of its own calls. -/
theorem find_collectPerf (records : List RecordT) {id : UInt32} {ps : PerformanceSummary} :
    (id, ps) ∈ (records.foldl collectPerf .empty).items ↔
      (records.filter fun r => r.2.function_id = id) ≠ [] ∧
        ps = (records.filter fun r => r.2.function_id = id).foldl PerformanceSummary.add {} := by
  rw [← Dictionary.find_eq_some, foldl_collectPerf, Dictionary.find_tally_empty]
  dsimp only
  split
  · rename_i absent
    simp [absent]
  · rename_i present
    rw [Option.some.injEq]
    exact ⟨fun same => ⟨present, same.symm⟩, fun found => found.2.symm⟩

private theorem durations_lt (records : List RecordT) (id : UInt32) :
    ∀ time ∈ durations records id, time < 2 ^ 64 := by
  intro time member
  obtain ⟨r, -, rfl⟩ := List.mem_map.mp member
  exact (Nat.sub_le _ _).trans_lt r.2.time_end.toNat_lt

private theorem totalCalls_group {records : List RecordT} (sized : records.length < 2 ^ 64) (id : UInt32) :
    ((records.filter fun r => r.2.function_id = id).foldl PerformanceSummary.add {}).totalCalls.toNat =
      (durations records id).length := by
  have within : (records.filter fun r => r.2.function_id = id).length < 2 ^ 64 :=
    (List.length_filter_le _ _).trans_lt sized
  rw [totalCalls_foldl {} (by simpa using within), durations, List.length_map]
  exact Nat.zero_add _

private theorem totalDuration_group {records : List RecordT}
    (ended : ∀ r ∈ records, r.2.time_start ≤ r.2.time_end) (total : (records.map elapsed).sum < 2 ^ 64)
    (id : UInt32) :
    ((records.filter fun r => r.2.function_id = id).foldl
      PerformanceSummary.add {}).totalDuration.toNat = (durations records id).sum := by
  have bounded : (durations records id).sum < 2 ^ 64 := by
    refine lt_of_le_of_lt ?_ total
    exact (List.filter_sublist.map elapsed).sum_le_sum fun _ _ => Nat.zero_le _
  have ownEnded : ∀ r ∈ records.filter fun r => r.2.function_id = id, r.2.time_start ≤ r.2.time_end :=
    fun r member => ended r (List.mem_filter.mp member).1
  rw [totalDuration_foldl ownEnded {} (by simpa [durations] using bounded)]
  exact Nat.zero_add _

/-- The rows of a summary over some records state them. -/
theorem states_records {records : List RecordT} (sized : records.length < 2 ^ 64)
    (ended : ∀ r ∈ records, r.2.time_start ≤ r.2.time_end)
    (total : (records.map elapsed).sum < 2 ^ 64) :
    StatesGroup ((records.foldl collectPerf .empty).items.map summaryRow) records := by
  -- What a row is made of: a nonempty list of calls, within the bounds of all calls.
  have made {row : SummaryRow}
      (member : row ∈ (records.foldl collectPerf .empty).items.map summaryRow) :
      let own := records.filter fun r => r.2.function_id = row.functionId
      own ≠ [] ∧ row = summaryRow (row.functionId, own.foldl PerformanceSummary.add {}) := by
    obtain ⟨⟨id, ps⟩, found, rfl⟩ := List.mem_map.mp member
    obtain ⟨present, rfl⟩ := (find_collectPerf records).mp found
    exact ⟨present, rfl⟩
  have ownEnded (id : UInt32) : ∀ r ∈ records.filter fun r => r.2.function_id = id,
      r.2.time_start ≤ r.2.time_end := fun r member => ended r (List.mem_filter.mp member).1
  have present {row : SummaryRow}
      (member : row ∈ (records.foldl collectPerf .empty).items.map summaryRow) :
      durations records row.functionId ≠ [] := fun none => (made member).1 (List.map_eq_nil_iff.mp none)
  refine ⟨?_, fun id => ?_, ?_, ?_, ?_, ?_⟩
  · have keys := (records.foldl collectPerf .empty).sorted.imp fun before => UInt32.ne_of_lt before
    rw [List.map_map, List.Nodup, List.pairwise_map]
    exact keys
  · constructor
    · intro member
      obtain ⟨row, rowIn, rfl⟩ := List.mem_map.mp member
      obtain ⟨r, inside⟩ := List.exists_mem_of_ne_nil _ (made rowIn).1
      obtain ⟨recorded, own⟩ := List.mem_filter.mp inside
      exact List.mem_map.mpr ⟨r, recorded, of_decide_eq_true own⟩
    · intro member
      obtain ⟨r, recorded, rfl⟩ := List.mem_map.mp member
      have present : (records.filter fun other => other.2.function_id = r.2.function_id) ≠ [] :=
        List.ne_nil_of_mem (List.mem_filter.mpr ⟨recorded, decide_eq_true rfl⟩)
      have found := (find_collectPerf records).mpr ⟨present, rfl⟩
      exact List.mem_map.mpr ⟨_, List.mem_map.mpr ⟨_, found, rfl⟩, rfl⟩
  · intro row member
    rw [(made member).2]
    exact totalCalls_group sized row.functionId
  · intro row member
    rw [(made member).2]
    change _ = some ((_ : PerformanceSummary).minDuration.toNat)
    rw [minDuration_foldl (ownEnded row.functionId), ← durations]
    exact (foldl_min_fresh (present member) (durations_lt records row.functionId)).symm
  · intro row member
    rw [(made member).2]
    change _ = some ((_ : PerformanceSummary).maxDuration.toNat)
    rw [maxDuration_foldl (ownEnded row.functionId), ← durations]
    exact (foldl_max_fresh (present member)).symm
  · intro row member
    rw [(made member).2]
    change (_ / _ : UInt64).toNat = _
    rw [UInt64.toNat_div, totalDuration_group ended total, totalCalls_group sized]
    rfl

/-! ## The printed summaries -/

private theorem summaries_append (first second : List Printed) :
    summaries (first ++ second) = summaries first ++ summaries second :=
  List.filterMap_append

/-- The loop over the threads prints no summary, and what it leaves is about all records. -/
theorem threadLoop_summary (opts : PrintOptions) (lastThread : Bytes) (perfMap : PerfMap)
    (records : List RecordT) :
    summaries (threadLoop opts lastThread perfMap records).1 = [] ∧
      (threadLoop opts lastThread perfMap records).2.2 = records.foldl collectPerf perfMap := by
  induction records generalizing lastThread perfMap with
  | nil => exact ⟨rfl, rfl⟩
  | cons r records ih =>
    obtain ⟨quiet, collected⟩ := ih r.1 (collectPerf perfMap r)
    refine ⟨?_, collected⟩
    have boundary : summaries (if lastThread ≠ r.1 then
        (if lastThread ≠ [] then [.endThread lastThread] else []) ++ [.startThread r.1] else []) = [] := by
      split
      · split <;> rfl
      · rfl
    rw [threadLoop]
    change summaries (_ ++ .record r opts.verbose :: _) = []
    rw [summaries_append, boundary]
    exact quiet

/-- With either grouping, one summary is printed, and it is about all records. -/
theorem summaries_printed {group : PrintGroup} {verbose : Bool} {records : List RecordT}
    {printed : List Printed} (prints : PrintsTrace ⟨group, verbose, true⟩ records printed) :
    ∃ collected : List RecordT, collected.Perm records ∧
      summaries printed = [(collected.foldl collectPerf .empty).items.map summaryRow] := by
  cases prints with
  | byThread grouped =>
    obtain ⟨quiet, collected⟩ :=
      threadLoop_summary ⟨group, verbose, true⟩ [] .empty records
    refine ⟨records, List.Perm.refl _, ?_⟩
    rw [printByThread]
    change summaries (_ ++ summaryIf _ _ ++ [Printed.endThread _]) = _
    rw [summaries_append, summaries_append, quiet, collected]
    rfl
  | @sorted sorted all sorts =>
    refine ⟨sorted, sorts.perm, ?_⟩
    have quiet : summaries (sorted.flatMap fun r => [.thread r.1, .record r verbose]) = [] := by
      rw [summaries, List.filterMap_eq_nil_iff]
      intro item member
      obtain ⟨r, -, inside⟩ := List.mem_flatMap.mp member
      simp only [List.mem_cons, List.not_mem_nil, or_false] at inside
      rcases inside with rfl | rfl <;> rfl
    rw [printSorted, summaries_append, quiet]
    rfl

/-- What rows state does not depend on the order of the records. -/
theorem StatesGroup.perm {rows : List SummaryRow} {group other : List RecordT}
    (states : StatesGroup rows group) (perm : group.Perm other) : StatesGroup rows other := by
  have own (id : UInt32) : (durations group id).Perm (durations other id) :=
    (perm.filter _).map elapsed
  refine ⟨states.once, fun id => ?_, fun row member => ?_, fun row member => ?_, fun row member => ?_,
    fun row member => ?_⟩
  · rw [states.occurs id, (perm.map _).mem_iff]
  · rw [states.calls row member, (own _).length_eq]
  · have least := List.min?_eq_some_iff.mp (states.least row member)
    refine List.min?_eq_some_iff.mpr ⟨(own _).mem_iff.mp least.1, fun time inside => ?_⟩
    exact least.2 time ((own _).mem_iff.mpr inside)
  · have greatest := List.max?_eq_some_iff.mp (states.greatest row member)
    refine List.max?_eq_some_iff.mpr ⟨(own _).mem_iff.mp greatest.1, fun time inside => ?_⟩
    exact greatest.2 time ((own _).mem_iff.mpr inside)
  · rw [states.average row member, (own _).sum_eq, (own _).length_eq]

/-- With times that do not run backwards and a total that fits, a summary is printed for each group,
about exactly its calls, if and only if there is no grouping or one thread has all the records. -/
theorem summary_per_group_iff (records : RecordVector)
    (ended : ∀ r ∈ records.data, r.2.time_start ≤ r.2.time_end)
    (total : (records.data.map elapsed).sum < 2 ^ 64) (group : PrintGroup) (verbose : Bool) :
    (∀ printed, PrintsTrace ⟨group, verbose, true⟩ records.data printed →
        List.Forall₂ StatesGroup (summaries printed) (printedGroups group records.data)) ↔
      (group = .thread → (printedGroups .thread records.data).length = 1) := by
  constructor
  · rintro always rfl
    have prints : PrintsTrace ⟨.thread, verbose, true⟩ records.data _ := .byThread rfl
    obtain ⟨_, -, summary⟩ := summaries_printed prints
    have lengths := (always _ prints).length_eq
    rw [summary] at lengths
    exact lengths.symm
  · intro single printed prints
    obtain ⟨collected, perm, summary⟩ := summaries_printed prints
    have groups : printedGroups group records.data = [records.data] := by
      cases group with
      | none => rfl
      | thread =>
        obtain ⟨all, whole⟩ := List.length_eq_one_iff.mp (single rfl)
        have joined : (printedGroups .thread records.data).flatten = records.data :=
          List.flatten_splitBy _ _
        rw [whole, List.flatten_singleton] at joined
        rw [whole, joined]
    rw [summary, groups, List.forall₂_cons]
    refine ⟨?_, .nil⟩
    have states := states_records (perm.length_eq.trans_lt records.sized)
      (fun r member => ended r (perm.mem_iff.mp member)) ((perm.map elapsed).sum_eq.trans_lt total)
    exact states.perm perm

/-- Two calls of one function on the main thread. -/
def mainRecords : List RecordT :=
  [(str "main", { function_id := 3, time_start := 10, time_end := 14 }),
    (str "main", { function_id := 3, time_start := 20, time_end := 23 })]

theorem summary_per_group_iff_main :
    ∃ printed, PrintsTrace ⟨.thread, false, true⟩ mainRecords printed ∧
      List.Forall₂ StatesGroup (summaries printed) [mainRecords] :=
  ⟨_, .byThread rfl, (summary_per_group_iff ⟨mainRecords, by decide⟩ (by decide) (by decide)
    .thread false).mpr (fun _ => rfl) _ (.byThread rfl)⟩

/-- One call on each of two threads: there are two groups and one summary. -/
theorem not_summary_per_group :
    ¬∀ printed, PrintsTrace ⟨.thread, false, true⟩
        [(str "main", { function_id := 3, time_start := 10, time_end := 14 }),
          (str "t1", { function_id := 4, time_start := 20, time_end := 23 })] printed →
      List.Forall₂ StatesGroup (summaries printed)
        (printedGroups .thread
          [(str "main", { function_id := 3, time_start := 10, time_end := 14 }),
            (str "t1", { function_id := 4, time_start := 20, time_end := 23 })]) := by
  intro always
  have lengths := (always _ (.byThread rfl)).length_eq
  exact absurd lengths (by decide)

end DpcppTrace.Soundness
