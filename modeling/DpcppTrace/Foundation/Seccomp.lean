import Mathlib.Tactic.Common

/-! # Seccomp filters and ptrace attachments

A filter is a classic BPF program over the number of a system call. New tasks inherit the filter of
their parent, and its attachment to a tracer only under the option for the way they were made. A call
that the filter gives to a tracer stops if there is one that asked for it, and fails otherwise.
-/

namespace DpcppTrace.Foundation

inductive FilterAction where
  | allow | trace
deriving DecidableEq

/-- `BPF_LD` of the call number, `BPF_JMP + BPF_JEQ + BPF_K`, and `BPF_RET + BPF_K`. -/
inductive FilterInstruction where
  | loadNumber
  | jumpEqual (k jt jf : ℕ)
  | ret (action : FilterAction)
deriving DecidableEq

abbrev Filter := List FilterInstruction

/-- Run a program on a call number, with a number of instructions to be jumped over first; none when
it runs off its end, as no installed program does. -/
def Filter.run (number : ℕ) : (skip accumulator : ℕ) → Filter → Option FilterAction
  | _, _, [] => none
  | skip + 1, accumulator, _ :: rest => run number skip accumulator rest
  | 0, _, .loadNumber :: rest => run number 0 number rest
  | 0, accumulator, .jumpEqual k jt jf :: rest =>
    run number (if accumulator = k then jt else jf) accumulator rest
  | 0, _, .ret action :: _ => some action

/-- What the program answers to a call. -/
def Filter.answer (filter : Filter) (number : ℕ) : Option FilterAction := run number 0 0 filter

/-- A test that returns when it succeeds and jumps over the return when it fails. -/
theorem Filter.run_test (number accumulator k : ℕ) (action : FilterAction) (rest : Filter) :
    run number 0 accumulator (.jumpEqual k 0 1 :: .ret action :: rest) =
      if accumulator = k then some action else run number 0 accumulator rest := by
  rw [run]
  split <;> rfl

/-- How a task makes another one. -/
inductive Creation where
  | clone | fork | vfork
deriving DecidableEq

/-- `PTRACE_O_TRACESECCOMP`, `PTRACE_O_TRACECLONE`, `PTRACE_O_TRACEFORK`, `PTRACE_O_TRACEVFORK`. -/
structure TraceOptions where
  traceSeccomp : Bool := false
  traceClone : Bool := false
  traceFork : Bool := false
  traceVfork : Bool := false
deriving DecidableEq

def TraceOptions.follow (options : TraceOptions) : Creation → Bool
  | .clone => options.traceClone
  | .fork => options.traceFork
  | .vfork => options.traceVfork

/-- What decides about the system calls of a task: its filter, and the options of its tracer. -/
structure Task where
  filter : Option Filter := none
  tracer : Option TraceOptions := none
deriving DecidableEq

def Task.child (task : Task) (how : Creation) : Task where
  filter := task.filter
  tracer := task.tracer.filter (·.follow how)

/-- What becomes of a system call: `ENOSYS` is the failure. -/
inductive Disposition where
  | executes | stops | fails
deriving DecidableEq

def Task.dispose (task : Task) (number : ℕ) : Disposition :=
  match task.filter.bind (·.answer number) with
  | some .trace => if task.tracer.any (·.traceSeccomp) then .stops else .fails
  | _ => .executes

theorem Task.child_untraced {task : Task} (untraced : task.tracer = none) (how : Creation) :
    task.child how = task := by
  rcases task with ⟨filter, tracer⟩
  subst untraced
  rfl

end DpcppTrace.Foundation
