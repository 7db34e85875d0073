import DpcppTrace.Model.TraceeMemory

/-! # The loop of the worker

The worker continues the tracee, waits for it, and decodes the packed status that it gets. What the
tracee does between two waits is a change of its state; the kernel packs each change into a status,
and the registers and the memory of a stopped tracee can be read.
-/

namespace DpcppTrace.Model.NativeTracer

open Foundation

def SIGTRAP : ℕ := 5
def SIGSTOP : ℕ := 19
def PTRACE_EVENT_SECCOMP : ℕ := 7
def ORIG_RAX : ℕ := 15

/-- The number of a signal. -/
structure Signal where
  number : ℕ
  positive : 0 < number
  bounded : number ≤ 64
deriving DecidableEq

/-! ## What the kernel reports -/

/-- What happens to the tracee: it exits, is killed, is about to get a signal, stops with its whole
group, or is stopped by the filter. -/
inductive Change where
  | exited (code : UInt8)
  | killed (signal : Signal) (core : Bool)
  | signalStop (signal : Signal)
  | groupStop (signal : Signal)
  | seccompStop
deriving DecidableEq

/-- The packed status of a change. -/
def Change.status : Change → ℕ
  | .exited code => code.toNat <<< 8
  | .killed signal core => signal.number ||| (if core then 0x80 else 0)
  | .signalStop signal => signal.number <<< 8 ||| 0x7f
  | .groupStop signal => signal.number <<< 8 ||| 0x7f
  | .seccompStop => (SIGTRAP ||| PTRACE_EVENT_SECCOMP <<< 8) <<< 8 ||| 0x7f

/-- A change, and what can be read of the tracee behind it. A stopped tracee can be killed before it is
continued: then the kernel answers only so many of the requests that come first. -/
structure Report where
  change : Change
  tracee : Tracee
  killed : Option ℕ := none

/-! ## Decoding -/

def WIFEXITED (status : ℕ) : Bool := status &&& 0x7f = 0
def WEXITSTATUS (status : ℕ) : ℕ := (status &&& 0xff00) >>> 8
def WTERMSIG (status : ℕ) : ℕ := status &&& 0x7f
def WIFSIGNALED (status : ℕ) : Bool := (0 : Int8) < Int8.ofNat ((status &&& 0x7f) + 1) >>> 1
def WIFSTOPPED (status : ℕ) : Bool := status &&& 0xff = 0x7f
def WSTOPSIG (status : ℕ) : ℕ := WEXITSTATUS status
def WIFCONTINUED (status : ℕ) : Bool := status = 0xffff

inductive WaitType where
  | success | signal | fail | exited
deriving DecidableEq

structure WaitResult where
  type : WaitType
  code : ℕ
  status : ℕ
deriving DecidableEq

/-- `wait`, once `waitpid` has given a status. -/
def wait (status : ℕ) : WaitResult :=
  if WIFEXITED status then ⟨.exited, WEXITSTATUS status, status⟩
  else if WIFSIGNALED status then ⟨.signal, WTERMSIG status, status⟩
  else if WIFSTOPPED status then
    let signal := WSTOPSIG status
    ⟨if waitStopped signal = .signal then .signal else .success, signal, status⟩
  else if WIFCONTINUED status then ⟨.success, 0, status⟩
  else ⟨.fail, 0, status⟩

def WaitResult.isSeccomp (res : WaitResult) : Bool :=
  res.status >>> 8 = (SIGTRAP ||| PTRACE_EVENT_SECCOMP <<< 8)

/-! ## The loop -/

/-- What the worker does to the tracee, and the handlers it calls. -/
inductive Action where
  | cont (signal : ℕ)
  | call (handler : Handler) (filename : Bytes)

/-- Where the worker is: waiting for a change, in a `readString` that has not ended, or out of its
loop with an exit code or an exception. -/
inductive Place where
  | waiting
  | reading
  | returned (code : ℕ)
  | threw
deriving DecidableEq

structure TraceRun where
  log : List Action
  place : Place

/-- Put actions in front of those of a run. -/
def TraceRun.behind (run : TraceRun) (actions : List Action) : TraceRun :=
  { run with log := actions ++ run.log }

/-- `readString`, for so many words at most, and the call of a handler. -/
def callWith (handler : Handler) (words : ℕ) (memory : MappedMemory) (addr : UInt64) :
    Option (List Action) :=
  (readString memory addr words).map fun filename => [.call handler filename]

/-- The `switch` over the call that the filter stopped. -/
def atCall (words : ℕ) (tracee : Tracee) : Option (List Action) :=
  let call := (tracee.user (longSize * ORIG_RAX)).toNat
  if call = NR_stat then callWith .stat words tracee.memory (tracee.user (longSize * RDI))
  else if call = NR_newfstatat then
    callWith .stat words tracee.memory (tracee.user (longSize * RSI))
  else if call = NR_openat then
    callWith .openFile words tracee.memory (tracee.user (longSize * RSI))
  else some []

/-- A stop of the filter in which the tracee is killed behind so many requests. `PTRACE_GETREGS` throws
if it fails. The number of the call and the words of its path are not checked: they are minus one, which
is no call and ends no string. `PTRACE_CONT` throws behind the `switch`. -/
def killedStop (words : ℕ) (tracee : Tracee) : ℕ → TraceRun
  | 0 => ⟨[.cont 0], .threw⟩
  | 1 => ⟨[.cont 0], .threw⟩
  | read + 2 =>
    match atCall (min words read) tracee with
    | none => ⟨[.cont 0], .reading⟩
    | some actions => ⟨.cont 0 :: actions, .threw⟩

/-- The loop over the changes that the tracee still goes through, where its next `PTRACE_CONT` succeeds. -/
def traceLoop (words : ℕ) : List Report → TraceRun
  | [] => ⟨[.cont 0], .waiting⟩
  | report :: rest =>
    let res := wait report.change.status
    if res.type ≠ .success then
      if res.type = .fail then ⟨[.cont 0], .threw⟩ else ⟨[.cont 0], .returned res.code⟩
    else if !res.isSeccomp then
      match report.killed with
      | some _ => ⟨[.cont 0], .threw⟩
      | none => (traceLoop words rest).behind [.cont 0]
    else
      match report.killed with
      | some requests => killedStop words report.tracee requests
      | none =>
        match atCall words report.tracee with
        | none => ⟨[.cont 0], .reading⟩
        | some actions => (traceLoop words rest).behind (.cont 0 :: actions)

/-- `start`. The first `PTRACE_CONT` fails if the tracee was killed in the stop that it starts with. -/
def start (words : ℕ) (alive : Bool) (reports : List Report) : TraceRun :=
  if alive then traceLoop words reports else ⟨[], .threw⟩

end DpcppTrace.Model.NativeTracer
