import DpcppTrace.Foundation.Machine
import DpcppTrace.Foundation.Naming

/-! # Thread names and the trace files they select

The injected library wraps `pthread_create`: the creator first starts the thread, then reads its
own name, appends an underscore and its counter, and renames the new thread. A thread opens its
trace file at its first PI call, from the name it has then; recorder and replay plugin compute the
file name alike. Threads are identified by the indices of the creations that lead to them from the
main thread. A new thread starts with its creator's name and runs at once, and the system rejects
names of more than fifteen characters.
-/

namespace DpcppTrace.Model

open Foundation

/-- The creations that lead from the main thread to a thread. -/
abbrev ThreadPath := List ℕ

/-- `kPiTraceExt`. -/
def kPiTraceExt : Bytes := str ".pi_trace"

/-- The length of the longest name `pthread_setname_np` accepts. -/
def maxThreadName : ℕ := 15

namespace Threads

/-- Where a thread stands in `pthread_create`. -/
inductive Point where
  | running
  | created (thread : ThreadPath)
  | named (thread : ThreadPath) (newName : Bytes)
deriving DecidableEq

/-- The names of the threads that exist, each thread's creation counter and position, and the
trace file each thread has open. -/
structure State where
  name : ThreadPath → Option Bytes
  threadCouner : ThreadPath → ℕ
  point : ThreadPath → Point
  opened : ThreadPath → Option Bytes

/-- The state after `setMainThreadName`. -/
def initial : State :=
  { name := fun thread => if thread = [] then some (str "main") else none
    threadCouner := fun _ => 0
    point := fun _ => .running
    opened := fun _ => none }

inductive Label where
  | create (self : ThreadPath)
  | readName (self : ThreadPath)
  | rename (self : ThreadPath)
  | piCall (self : ThreadPath)
deriving DecidableEq

/-- `pthread_setname_np`: a name that is too long leaves the old one. -/
def State.setName (s : State) (thread : ThreadPath) (newName : Bytes) : State :=
  if newName.length ≤ maxThreadName then
    { s with name := Function.update s.name thread (some newName) }
  else s

def State.goto (s : State) (self : ThreadPath) (point : Point) : State :=
  { s with point := Function.update s.point self point }

/-- One step of one thread: the three steps of `pthread_create`, or a PI call. -/
def step (s : State) : Label → Option State
  | .create self =>
    match s.point self, s.name self with
    | .running, some own =>
      let thread := self ++ [s.threadCouner self]
      some ({ s with name := Function.update s.name thread (some own) }.goto self (.created thread))
    | _, _ => none
  | .readName self =>
    match s.point self, s.name self with
    | .created thread, some own =>
      let newName := own ++ str "_" ++ decimal (s.threadCouner self)
      some ({ s with
        threadCouner := Function.update s.threadCouner self (s.threadCouner self + 1)
        }.goto self (.named thread newName))
    | _, _ => none
  | .rename self =>
    match s.point self with
    | .named thread newName => some ((s.setName thread newName).goto self .running)
    | _ => none
  | .piCall self =>
    match s.point self, s.name self with
    | .running, some own =>
      if s.opened self = none then
        some { s with opened := Function.update s.opened self (some (own ++ kPiTraceExt)) }
      else some s
    | _, _ => none

def machine : Machine State Label := ⟨step⟩

/-- The creator of the thread has finished naming it. -/
def State.settled (s : State) (thread : ThreadPath) : Prop :=
  ∀ parent newName, s.point parent ≠ .created thread ∧ s.point parent ≠ .named thread newName

/-- The step does not use a name that is still to be assigned, and assigns none that is too long. -/
def orderly (s : State) : Label → Prop
  | .create _ => True
  | .readName self => s.settled self
  | .rename self =>
    ∀ thread newName, s.point self = .named thread newName → newName.length ≤ maxThreadName
  | .piCall self => s.opened self = none → s.settled self

/-- The name the documentation promises: the creator's name, an underscore and the index. -/
def pathName (path : ThreadPath) : Bytes := qualified 0x5f decimal (str "main") path

end Threads

end DpcppTrace.Model
