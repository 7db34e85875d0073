import DpcppTrace.Foundation.Bytes

/-! # Parsing the command line

One parser a command, each a loop over `argv` from the third entry on that looks at the entry under
its index and may advance the index itself, for the value of an option. `argv` has `argc` entries;
to read the null pointer behind them as a string is a fault of the model, beside the errors that the
parsers report.
-/

namespace DpcppTrace.Model

open Foundation

/-- How a parser ends without options. -/
inductive OptionFault where
  /-- A string made of an entry of `argv` that is not below `argc`. -/
  | pastEnd (index : ℕ)
  | thrown (what : Bytes)
  | terminated (message : Bytes)
  | exited (message : Bytes)
deriving DecidableEq

/-- `options::mode`. -/
inductive Mode where
  | record | replay | print | info | pack | unpack | debug
deriving DecidableEq

/-- `options::print_group_by`. -/
inductive PrintGroup where
  | none | thread
deriving DecidableEq

/-- What the parsers fill of `options`. -/
structure Options where
  mInput : Bytes := []
  mOutput : Bytes := []
  mArguments : List Bytes := []
  mMode : Option Mode := none
  mPringGroup : PrintGroup := .none
  mPrintPerformanceSummary : Bool := false
  mVerbose : Bool := false
  mRecordSkipMemObjs : Bool := false
  mRecordOverrideTrace : Bool := false
  mNoFork : Bool := false
  mPrintOnly : Bool := false
  mDebugServerOnly : Bool := false
deriving DecidableEq

/-- A string made of `argv[i]`. -/
def argument (argv : List Bytes) (i : ℕ) : Except OptionFault Bytes :=
  match argv[i]? with
  | some text => .ok text
  | none => .error (.pastEnd i)

/-- `opt[0]`, the terminator of an empty string. -/
def firstChar (opt : Bytes) : UInt8 := opt.headD 0

/-- The loop over the arguments behind the separator. -/
def extraArguments (argv : List Bytes) (i : ℕ) : Except OptionFault (List Bytes) :=
  (List.range' i (argv.length - i)).mapM (argument argv)

/-- What a loop's body does with an option: `taken` entries behind it are used up as well, or the
loop is left. -/
inductive OptionPass where
  | next (taken : ℕ) (opts : Options)
  | stop (opts : Options)

/-- The body of a loop, at an index, with the option there and what was parsed before. -/
abbrev OptionBody := ℕ → Bytes → Options → Except OptionFault OptionPass

/-- `while (i < argc)`: whether the loop was left by `break`, the index then, and the options. -/
def optionLoop (argv : List Bytes) (body : OptionBody) (i : ℕ) (opts : Options) :
    Except OptionFault (Bool × ℕ × Options) :=
  if i < argv.length then
    match argument argv i with
    | .error fault => .error fault
    | .ok opt =>
      match body i opt opts with
      | .error fault => .error fault
      | .ok (.next taken opts) => optionLoop argv body (i + taken + 1) opts
      | .ok (.stop opts) => .ok (true, i + 1, opts)
  else .ok (false, i, opts)
termination_by argv.length - i

/-- `mOutput = argv[++i]` behind the test of `i + 1`; `missing` is how the parser reports that there
is no value. -/
def takeOutput (argv : List Bytes) (i : ℕ) (missing : OptionFault) (opts : Options) :
    Except OptionFault OptionPass :=
  if i + 1 ≥ argv.length then .error missing
  else do
    let value ← argument argv (i + 1)
    pure (.next 1 { opts with mOutput := value })

/-- `if (hasExtraOpts)`: store the arguments behind the separator. -/
def storeArguments (argv : List Bytes) (hasExtraOpts : Bool) (i : ℕ) (opts : Options) :
    Except OptionFault Options :=
  if hasExtraOpts then do
    let arguments ← extraArguments argv i
    pure { opts with mArguments := opts.mArguments ++ arguments }
  else pure opts

/-! ## The loop, by what is left of the vector -/

section Loop

variable {argv : List Bytes} {i : ℕ} {opt : Bytes} {rest : List Bytes}

theorem argument_of_drop (left : argv.drop i = opt :: rest) : argument argv i = .ok opt := by
  have here : argv[i]? = some opt := by rw [← List.head?_drop, left, List.head?_cons]
  rw [argument, here]

theorem drop_next (left : argv.drop i = opt :: rest) : argv.drop (i + 1) = rest := by
  rw [← List.tail_drop, left, List.tail_cons]

theorem lt_of_drop (left : argv.drop i = opt :: rest) : i < argv.length := by
  have := congrArg List.length left
  simp only [List.length_drop, List.length_cons] at this
  omega

theorem optionLoop_nil (body : OptionBody) (opts : Options) (left : argv.drop i = []) :
    optionLoop argv body i opts = .ok (false, i, opts) := by
  have behind : argv.length ≤ i := List.drop_eq_nil_iff.mp left
  rw [optionLoop, if_neg (by omega)]

theorem optionLoop_cons (body : OptionBody) (opts : Options) (left : argv.drop i = opt :: rest) :
    optionLoop argv body i opts =
      match body i opt opts with
      | .error fault => .error fault
      | .ok (.next taken opts) => optionLoop argv body (i + taken + 1) opts
      | .ok (.stop opts) => .ok (true, i + 1, opts) := by
  rw [optionLoop, if_pos (lt_of_drop left), argument_of_drop left]

theorem takeOutput_missing (missing : OptionFault) (opts : Options) (left : argv.drop i = [opt]) :
    takeOutput argv i missing opts = .error missing := by
  have behind : argv.length ≤ i + 1 := List.drop_eq_nil_iff.mp (drop_next left)
  rw [takeOutput, if_pos behind]

theorem takeOutput_present {value : Bytes} (missing : OptionFault) (opts : Options)
    (left : argv.drop i = opt :: value :: rest) :
    takeOutput argv i missing opts = .ok (.next 1 { opts with mOutput := value }) := by
  have inside : i + 1 < argv.length := lt_of_drop (drop_next left)
  rw [takeOutput, if_neg (by omega), argument_of_drop (drop_next left)]
  rfl

private theorem mapM_argument (argv : List Bytes) (count i : ℕ) (inside : i + count ≤ argv.length) :
    (List.range' i count).mapM (argument argv) = .ok ((argv.drop i).take count) := by
  induction count generalizing i with
  | zero => simp [pure, Except.pure]
  | succ count ih =>
    have left : argv.drop i = argv[i] :: argv.drop (i + 1) := List.drop_eq_getElem_cons (by omega)
    rw [List.range'_succ, List.mapM_cons, argument_of_drop left, ih (i + 1) (by omega), left]
    rfl

private theorem extraArguments_eq (argv : List Bytes) (i : ℕ) :
    extraArguments argv i = .ok (argv.drop i) := by
  by_cases inside : i ≤ argv.length
  · rw [extraArguments, mapM_argument argv _ i (by omega), List.take_of_length_le (by simp)]
  · rw [extraArguments, Nat.sub_eq_zero_of_le (by omega), List.drop_eq_nil_of_le (by omega)]
    rfl

theorem storeArguments_eq (argv : List Bytes) (hasExtraOpts : Bool) (i : ℕ) (opts : Options) :
    storeArguments argv hasExtraOpts i opts =
      .ok { opts with
        mArguments := opts.mArguments ++ if hasExtraOpts then argv.drop i else [] } := by
  cases hasExtraOpts
  · simp [storeArguments, pure, Except.pure]
  · rw [storeArguments, if_pos rfl, extraArguments_eq]
    rfl

end Loop

/-- The body of the loop in `parseRecordOptions`. -/
def recordBody (argv : List Bytes) : OptionBody := fun i opt opts =>
  if firstChar opt ≠ 0x2d ∧ opts.mInput = [] then .ok (.next 0 { opts with mInput := opt })
  else if opt = str "--" then .ok (.stop opts)
  else if (opt = str "--output" ∨ opt = str "-o") ∧ opts.mOutput = [] then
    takeOutput argv i (.thrown (str "--output requires an argument\n")) opts
  else if opt = str "--override" ∧ opts.mRecordOverrideTrace = false then
    .ok (.next 0 { opts with mRecordOverrideTrace := true })
  else if (opt = str "--skip-mem-objects" ∨ opt = str "-s") ∧ opts.mRecordSkipMemObjs = false then
    .ok (.next 0 { opts with mRecordSkipMemObjs := true })
  else if opt = str "--no-fork" ∧ opts.mNoFork = false then
    .ok (.next 0 { opts with mNoFork := true })
  else .error (.thrown (str "unrecognized option " ++ opt))

/-- An output is taken once; a second one falls through all branches. -/
theorem recordBody_output (argv : List Bytes) {opt : Bytes}
    (named : opt = str "--output" ∨ opt = str "-o") (i : ℕ) (opts : Options) :
    recordBody argv i opt opts =
      if opts.mOutput = [] then
        takeOutput argv i (.thrown (str "--output requires an argument\n")) opts
      else .error (.thrown (str "unrecognized option " ++ opt)) := by
  have dash : firstChar opt = 0x2d := by rcases named with rfl | rfl <;> rfl
  have inside : opt ≠ str "--" := by rcases named with rfl | rfl <;> decide
  rw [recordBody, if_neg (fun positional => positional.1 dash), if_neg inside]
  by_cases first : opts.mOutput = []
  · rw [if_pos ⟨named, first⟩, if_pos first]
  · have override : opt ≠ str "--override" := by rcases named with rfl | rfl <;> decide
    have skip : ¬(opt = str "--skip-mem-objects" ∨ opt = str "-s") := by
      rcases named with rfl | rfl <;> decide
    have noFork : opt ≠ str "--no-fork" := by rcases named with rfl | rfl <;> decide
    rw [if_neg (fun output => first output.2), if_neg (fun flag => override flag.1),
      if_neg (fun flag => skip flag.1), if_neg (fun flag => noFork flag.1), if_neg first]

/-- `options::parseRecordOptions`. -/
def parseRecordOptions (argv : List Bytes) (opts : Options) : Except OptionFault Options := do
  let (hasExtraOpts, i, opts) ← optionLoop argv (recordBody argv) 2 opts
  let opts ← storeArguments argv hasExtraOpts i opts
  if opts.mInput = [] then .error (.thrown (str "input is required"))
  else if opts.mOutput = [] then .error (.thrown (str "output is required"))
  else pure opts

/-- The body of the loop in `parseReplayOptions`, without the notice it logs. -/
def replayBody (argv : List Bytes) : OptionBody := fun i opt opts =>
  if firstChar opt ≠ 0x2d then .ok (.next 0 { opts with mInput := opt })
  else if opt = str "--" then .ok (.stop opts)
  else if opt = str "--output" ∨ opt = str "-o" ∨ opt = str "-t" then
    takeOutput argv i (.terminated (opt ++ str " requires an argument\n")) opts
  else if opt = str "--no-fork" ∧ opts.mNoFork = false then
    .ok (.next 0 { opts with mNoFork := true })
  else if (opt = str "--print-only" ∨ opt = str "-p") ∧ opts.mPrintOnly = false then
    .ok (.next 0 { opts with mPrintOnly := true })
  else .ok (.next 0 opts)

/-- `options::parseReplayOptions`. -/
def parseReplayOptions (argv : List Bytes) (opts : Options) : Except OptionFault Options := do
  let (hasExtraOpts, i, opts) ← optionLoop argv (replayBody argv) 2 opts
  let opts ← storeArguments argv hasExtraOpts i opts
  if opts.mInput = [] then .error (.terminated (str "input is required\n")) else pure opts

/-- The body of the loop in `parsePrintOptions`; the value of `--group` is read without a test. -/
def printBody (argv : List Bytes) : OptionBody := fun i opt opts =>
  if firstChar opt ≠ 0x2d then .ok (.next 0 { opts with mInput := opt })
  else if opt = str "--group" then do
    let group ← argument argv (i + 1)
    if group = str "none" then pure (.next 1 { opts with mPringGroup := .none })
    else if group = str "thread" then pure (.next 1 { opts with mPringGroup := .thread })
    else
      .error (.terminated
        (str "Expected none or thread for --group argument. Got " ++ group ++ str "\n"))
  else if opt = str "--verbose" then .ok (.next 0 { opts with mVerbose := true })
  else if opt = str "--perf" then .ok (.next 0 { opts with mPrintPerformanceSummary := true })
  else .ok (.next 0 opts)

/-- `options::parsePrintOptions`. -/
def parsePrintOptions (argv : List Bytes) (opts : Options) : Except OptionFault Options := do
  let (_, _, opts) ← optionLoop argv (printBody argv) 2 opts
  if opts.mInput = [] then .error (.terminated (str "input is required\n")) else pure opts

/-- The body of the loops in `parsePackOptions` and `parseUnpackOptions`. -/
def packBody (argv : List Bytes) : OptionBody := fun i opt opts =>
  if firstChar opt ≠ 0x2d then .ok (.next 0 { opts with mInput := opt })
  else if opt = str "--output" ∨ opt = str "-o" then
    takeOutput argv i (.terminated (opt ++ str " requires an argument\n")) opts
  else .ok (.next 0 opts)

/-- The body of the loop in `parseDebugOptions`. -/
def debugBody : OptionBody := fun _ opt opts =>
  if firstChar opt ≠ 0x2d then .ok (.next 0 { opts with mInput := opt })
  else if opt = str "--server" ∧ opts.mDebugServerOnly = false then
    .ok (.next 0 { opts with mDebugServerOnly := true })
  else .ok (.next 0 opts)

/-- The parsers that demand an argument and check nothing behind their loop. -/
def parseArguments (command : Bytes) (body : OptionBody) (argv : List Bytes) (opts : Options) :
    Except OptionFault Options :=
  if argv.length ≤ 2 then .error (.exited (command ++ str " requires arguments\n"))
  else do
    let (_, _, opts) ← optionLoop argv body 2 opts
    pure opts

/-- `options::parsePackOptions`. -/
def parsePackOptions (argv : List Bytes) : Options → Except OptionFault Options :=
  parseArguments (str "pack") (packBody argv) argv

/-- `options::parseUnpackOptions`. -/
def parseUnpackOptions (argv : List Bytes) : Options → Except OptionFault Options :=
  parseArguments (str "unpack") (packBody argv) argv

/-- `options::parseDebugOptions`. -/
def parseDebugOptions (argv : List Bytes) : Options → Except OptionFault Options :=
  parseArguments (str "debug") debugBody argv

/-- `parseInfoOptions`. -/
def parseInfoOptions (argv : List Bytes) (opts : Options) : Except OptionFault Options :=
  if argv.length > 2 then .error (.thrown (str "info does not take any arguments")) else .ok opts

/-- The command that `argv[1]` names. -/
def commandMode (command : Bytes) : Option Mode :=
  if command = str "record" then some .record
  else if command = str "replay" then some .replay
  else if command = str "print" then some .print
  else if command = str "info" ∨ command = str "--help" ∨ command = str "-h" then some .info
  else if command = str "pack" then some .pack
  else if command = str "unpack" then some .unpack
  else if command = str "debug" then some .debug
  else none

/-- The parser of a command. -/
def parseMode (mode : Mode) (argv : List Bytes) (opts : Options) : Except OptionFault Options :=
  match mode with
  | .record => parseRecordOptions argv opts
  | .replay => parseReplayOptions argv opts
  | .print => parsePrintOptions argv opts
  | .info => parseInfoOptions argv opts
  | .pack => parsePackOptions argv opts
  | .unpack => parseUnpackOptions argv opts
  | .debug => parseDebugOptions argv opts

/-- The constructor, from the command on. -/
def parseOptions (argv : List Bytes) : Except OptionFault Options :=
  if argv.length < 2 then
    .error (.terminated (str "Use dpcpp_trace info to see available options"))
  else do
    let command ← argument argv 1
    match commandMode command with
    | some mode => parseMode mode argv { mMode := some mode }
    | none => pure {}

end DpcppTrace.Model
