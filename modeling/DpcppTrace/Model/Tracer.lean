import DpcppTrace.Foundation.Bytes
import DpcppTrace.Foundation.Machine
import DpcppTrace.Foundation.Seccomp

/-! # The tracer of system calls

The first task installs the filter and attaches to the tool before it runs the program, and the tool
asks for the stops of the filter. The worker waits for the first task and no other; it calls a
handler at each stop of the filter and leaves its loop at some signals. When the tool then ends, so
does the attachment.
-/

namespace DpcppTrace.Model

open Foundation

def NR_stat : ℕ := 4
def NR_openat : ℕ := 257
def NR_newfstatat : ℕ := 262

def SIGINT : ℕ := 2
def SIGILL : ℕ := 4
def SIGABRT : ℕ := 6
def SIGFPE : ℕ := 8
def SIGSEGV : ℕ := 11
def SIGTERM : ℕ := 15

namespace NativeTracer

def filter : Filter :=
  [.loadNumber,
    .jumpEqual NR_newfstatat 0 1,
    .ret .trace,
    .jumpEqual NR_openat 0 1,
    .ret .trace,
    .jumpEqual NR_stat 0 1,
    .ret .trace,
    .ret .allow]

/-- `PTRACE_TRACEME` and `PR_SET_SECCOMP`. -/
def traceMe (task : Task) : Task := { task with filter := some filter, tracer := some {} }

/-- `setopt`. -/
def setopt (task : Task) (options : TraceOptions) : Task :=
  { task with tracer := task.tracer.map fun _ => options }

inductive ResultType where
  | success | signal
deriving DecidableEq

/-- `wait` on a task that was stopped by a signal. -/
def waitStopped (signal : ℕ) : ResultType :=
  if signal ∈ [SIGTERM, SIGSEGV, SIGINT, SIGILL, SIGABRT, SIGFPE] then .signal else .success

/-- A system call of one of the tasks. The file name is what `readString` finds, if it ever finds an
end: it goes on over memory that cannot be read. -/
structure Call where
  task : ℕ
  number : ℕ
  filename : Option Bytes
deriving DecidableEq

inductive Handler where
  | openFile | stat
deriving DecidableEq

/-- What becomes of a call: it executes unseen, is given to a handler before it executes, is held, or
fails. -/
inductive Outcome where
  | executed
  | delivered (handler : Handler) (filename : Bytes)
  | held
  | failed
deriving DecidableEq

/-- The worker: in its loop, in a `readString` that does not end, or out of its loop; and when the
whole tool has ended. -/
inductive Worker where
  | running | reading | returned | ended
deriving DecidableEq

/-- `readString` and the call of a handler. -/
def callHandler (handler : Handler) : Option Bytes → Outcome × Worker
  | some filename => (.delivered handler filename, .running)
  | none => (.held, .reading)

/-- The worker at a stop of the filter. -/
def atSeccompStop (call : ℕ) (filename : Option Bytes) : Outcome × Worker :=
  if call = NR_stat then callHandler .stat filename
  else if call = NR_newfstatat then callHandler .stat filename
  else if call = NR_openat then callHandler .openFile filename
  else (.executed, .running)

/-- The tasks in the order of their creation, the worker, and what became of the calls so far. -/
structure State where
  tasks : List Task
  worker : Worker
  log : List (Call × Outcome)
deriving DecidableEq

inductive Event where
  | create (parent : ℕ) (how : Creation)
  | call (call : Call)
  /-- The first task is about to get a signal. -/
  | signal (signal : ℕ)
  /-- The tool ends, which detaches its tracees. -/
  | toolEnds
deriving DecidableEq

/-- The first task runs only while the worker waits for it, or without the tool. -/
def State.Runs (state : State) (task : ℕ) : Prop :=
  task < state.tasks.length ∧ (task = 0 → state.worker = .running ∨ state.worker = .ended)

instance (state : State) (task : ℕ) : Decidable (state.Runs task) :=
  inferInstanceAs (Decidable (_ ∧ _))

/-- A call of a task with these attributes. -/
def State.called (state : State) (task : Task) (call : Call) : State :=
  match task.dispose call.number with
  | .executes => { state with log := state.log ++ [(call, .executed)] }
  | .fails => { state with log := state.log ++ [(call, .failed)] }
  | .stops =>
    -- nobody waits for a stop of another task
    if call.task = 0 ∧ state.worker = .running then
      let (outcome, worker) := atSeccompStop call.number call.filename
      { state with worker := worker, log := state.log ++ [(call, outcome)] }
    else { state with log := state.log ++ [(call, .held)] }

def State.step (state : State) : Event → Option State
  | .create parent how =>
    if state.Runs parent then
      state.tasks[parent]?.map fun task => { state with tasks := state.tasks ++ [task.child how] }
    else none
  | .call call =>
    if state.Runs call.task then state.tasks[call.task]?.map fun task => state.called task call
    else none
  | .signal signal =>
    match state.worker with
    | .running =>
      if waitStopped signal = .success then some state else some { state with worker := .returned }
    | .ended => some state
    | _ => none
  | .toolEnds =>
    if state.worker = .returned ∨ state.worker = .reading then
      some { state with
        worker := .ended
        tasks := state.tasks.map fun task => { task with tracer := none } }
    else none

/-- `fork`, up to the first `PTRACE_CONT`. -/
def forked : State where
  tasks := [setopt (traceMe {}) { traceSeccomp := true }]
  worker := .running
  log := []

def machine : Machine State Event := ⟨State.step⟩

end NativeTracer

end DpcppTrace.Model
