import DpcppTrace.Foundation.Sorting
import DpcppTrace.Foundation.Tally
import DpcppTrace.Model.Options
import DpcppTrace.Model.PrettyPrinters
import DpcppTrace.Model.TraceFile

/-! # Printing a trace

`printTrace` on the records of a directory, behind the descriptors of its images: grouped by thread
in the order in which the files were read, or in the order of a sort by start time. What is printed
is a sequence of items, each with its text. The names of the APIs come from `pi.def`, outside the
repository.
-/

namespace DpcppTrace.Model

open Foundation

/-- `std::vector<RecordT>`: its size is a `size_t`. -/
structure RecordVector where
  data : List RecordT
  sized : data.length < 2 ^ 64

/-- `PerformanceSummary`, with the members' values after value-initialisation. -/
structure PerformanceSummary where
  totalCalls : UInt64 := 0
  maxDuration : UInt64 := 0
  minDuration : UInt64 := 0xffffffffffffffff
  totalDuration : UInt64 := 0
deriving DecidableEq

abbrev PerfMap := Dictionary UInt32 PerformanceSummary

/-- A line of the summary. -/
structure SummaryRow where
  functionId : UInt32
  totalCalls : UInt64
  minDuration : UInt64
  maxDuration : UInt64
  avgDuration : UInt64
deriving DecidableEq

/-- What `printTrace` prints. -/
inductive Printed where
  | startThread (name : Bytes)
  | endThread (name : Bytes)
  | thread (name : Bytes)
  | record (r : RecordT) (verbose : Bool)
  | performanceSummary (rows : List SummaryRow)

/-- What `--group`, `--verbose` and `--perf` choose. -/
structure PrintOptions where
  print_group : PrintGroup
  verbose : Bool
  performance_summary : Bool

/-! ## Texts -/

def padLeft (width : ℕ) (text : Bytes) : Bytes :=
  List.replicate (width - text.length) 0x20 ++ text

def padRight (width : ℕ) (text : Bytes) : Bytes :=
  text ++ List.replicate (width - text.length) 0x20

def center (width : ℕ) (text : Bytes) : Bytes :=
  let missing := width - text.length
  List.replicate (missing / 2) 0x20 ++ text ++ List.replicate (missing - missing / 2) 0x20

/-- `getAPIName`; `apis` is the table of `pi.def`. -/
def getAPIName (apis : UInt32 → Option Bytes) (id : UInt32) : Bytes :=
  (apis id).getD (str "UNKNOWN ID : " ++ decimal id.toNat)

/-- `r.second.time_end() - r.second.time_start()`. -/
def duration (r : RecordT) : UInt64 := r.2.time_end - r.2.time_start

/-- `printRecord`. -/
def printRecord (apis : UInt32 → Option Bytes) (r : RecordT) (verbose : Bool) : Bytes :=
  let header :=
    str "\n>~~~~~~~~~~~~~~~~~~~~~~~~~~~~~~~~~~~\n\n" ++
      padRight 18 (str "Thread ID") ++ str " : " ++ r.1 ++ str "\n" ++
      padRight 18 (str "Call duration") ++ str " : " ++ decimal (duration r).toNat ++ str "\n" ++
      padRight 18 (str "Captured outputs") ++ str " : " ++
      decimal (r.2.small_outputs.length + r.2.mem_obj_outputs.length) ++ str "\n\n"
  let call :=
    str "----> " ++ getAPIName apis r.2.function_id ++ str "(\n" ++ (printArgs r.2.args).flatten ++
      str ") : " ++ decimal r.2.return_value.toNat ++ str "\n"
  if verbose then header ++ call ++ str "\n<~~~~~~~~~~~~~~~~~~~~~~~~~~~~~~~~~~~\n" else call

def SummaryRow.text (apis : UInt32 → Option Bytes) (row : SummaryRow) : Bytes :=
  padLeft 35 (getAPIName apis row.functionId) ++ str " | " ++
    padLeft 15 (decimal row.totalCalls.toNat) ++ str " | " ++
    padLeft 13 (decimal row.minDuration.toNat) ++ str "us | " ++
    padLeft 13 (decimal row.maxDuration.toNat) ++ str "us | " ++
    padLeft 13 (decimal row.avgDuration.toNat) ++ str "us |\n"

def Printed.text (apis : UInt32 → Option Bytes) : Printed → Bytes
  | .startThread name => str "~START THREAD : " ++ name ++ str "\n\n"
  | .endThread name => str "~END THREAD : " ++ name ++ str "\n\n"
  | .thread name => str "THREAD : " ++ name ++ str "\n"
  | .record r verbose => printRecord apis r verbose
  | .performanceSummary rows =>
    str "Performance summary:\n" ++ padLeft 35 (str " ") ++ str " | " ++ center 15 (str "Calls") ++
      str " | " ++ center 15 (str "Min time") ++ str " | " ++ center 15 (str "Max time") ++ str " | " ++
      center 15 (str "Avg time") ++ str " |\n" ++ rows.flatMap (·.text apis)

/-! ## The summary -/

/-- What `collectPerf` does to the summary of the record's function. -/
def PerformanceSummary.add (ps : PerformanceSummary) (r : RecordT) : PerformanceSummary where
  totalCalls := ps.totalCalls + 1
  maxDuration := max ps.maxDuration (duration r)
  minDuration := min ps.minDuration (duration r)
  totalDuration := ps.totalDuration + duration r

/-- `collectPerf`. -/
def collectPerf (perfMap : PerfMap) (r : RecordT) : PerfMap :=
  perfMap.count (fun r : RecordT => r.2.function_id) {} PerformanceSummary.add r

def summaryRow (pair : UInt32 × PerformanceSummary) : SummaryRow where
  functionId := pair.1
  totalCalls := pair.2.totalCalls
  minDuration := pair.2.minDuration
  maxDuration := pair.2.maxDuration
  avgDuration := pair.2.totalDuration / pair.2.totalCalls

/-- `printPerformanceSummary`. -/
def printPerformanceSummary (perfMap : PerfMap) : Printed :=
  .performanceSummary (perfMap.items.map summaryRow)

def summaryIf (opts : PrintOptions) (perfMap : PerfMap) : List Printed :=
  if opts.performance_summary then [printPerformanceSummary perfMap] else []

/-! ## The two groupings -/

/-- The loop over the records grouped by thread, from a last thread and a summary on. -/
def threadLoop (opts : PrintOptions) : Bytes → PerfMap → List RecordT →
    List Printed × Bytes × PerfMap
  | lastThread, perfMap, [] => ([], lastThread, perfMap)
  | lastThread, perfMap, r :: records =>
    let boundary :=
      if lastThread ≠ r.1 then
        (if lastThread ≠ [] then [.endThread lastThread] else []) ++ [.startThread r.1]
      else []
    let (printed, final) := threadLoop opts r.1 (collectPerf perfMap r) records
    (boundary ++ .record r opts.verbose :: printed, final)

/-- `printTrace` with grouping `thread`. -/
def printByThread (opts : PrintOptions) (records : List RecordT) : List Printed :=
  let (printed, lastThread, perfMap) := threadLoop opts [] .empty records
  printed ++ summaryIf opts perfMap ++ [.endThread lastThread]

/-- `printTrace` with grouping `none`, behind the sort. -/
def printSorted (opts : PrintOptions) (records : List RecordT) : List Printed :=
  records.flatMap (fun r => [.thread r.1, .record r opts.verbose]) ++
    summaryIf opts (records.foldl collectPerf .empty)

/-- The loop over the trace files of the directory; `junk` is what `parseTraceFile` finds on
its stack. -/
def readTraces (pb : Protobuf) (junk : Bytes → ℕ → StackFrame) (fuel : ℕ) :
    List RecordT → List (Bytes × IStream) → Option (Except ReadFault (List RecordT))
  | records, [] => some (.ok records)
  | records, (threadId, file) :: files =>
    match parseTraceFile pb (junk threadId) fuel records threadId file with
    | some (.ok records) => readTraces pb junk fuel records files
    | other => other

/-- What `printTrace` may print for the records; the sort compares start times. -/
inductive PrintsTrace (opts : PrintOptions) (records : List RecordT) : List Printed → Prop
  | byThread (grouped : opts.print_group = .thread) :
      PrintsTrace opts records (printByThread opts records)
  | sorted {sorted : List RecordT} (all : opts.print_group = .none)
      (sorts : Sorts (fun r : RecordT => r.2.time_start.toNat) records sorted) :
      PrintsTrace opts records (printSorted opts sorted)

end DpcppTrace.Model
