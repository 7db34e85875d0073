import DpcppTrace.Soundness.ReplayRuns
import DpcppTrace.Soundness.ThreadedReplay

/-! # What a replay writes

An entry writes to the places that the application lends it for the results of the call, and to objects
that it has just allocated. The lengths come from the record: of a repeated call they are those that the
application asks for, except that a kernel's program is always stored as a whole pointer. What a freed
array holds is up to the allocator from then on. So a replay changes nothing else in memory, whatever the
schedule.
-/

namespace DpcppTrace.Soundness

open Foundation Model Effect Interleaving

/-! ## Places -/

section Bodies

variable {host : ReplayHost} {α β : Type} {first count : ℕ} {places : Set ℕ}

/-- When the computation returns from a state with so many allocations, it has written to these places
only. -/
def Confined (first : ℕ) (places : Set ℕ) (action : Effect α) : Prop :=
  ∀ world value next, world.allocations = first → action world = .ok (value, next) →
    ∀ place ∉ places, next.memory place = world.memory place

theorem Confined.bind {action : Effect α} {rest : α → Effect β} (before : Confined first places action)
    (moves : Moves booksOf (bump count) action)
    (then_ : ∀ value, Confined (first + count) places (rest value)) :
    Confined first places (action >>= rest) := by
  intro world result final start ran place outside
  obtain ⟨value, next, front, later⟩ := bind_eq_ok_iff.mp ran
  have allocated : next.allocations = first + count := by
    rw [← start]
    exact congrArg Books.allocations (moves world value next front)
  rw [then_ value next result final allocated later place outside,
    before world value next start front place outside]

/-- The same behind a computation that allocates nothing. -/
theorem Confined.then_ {action : Effect α} {rest : α → Effect β} (before : Confined first places action)
    (moves : Moves booksOf id action) (then_ : ∀ value, Confined first places (rest value)) :
    Confined first places (action >>= rest) := by
  have none : Moves booksOf (bump 0) action := moves
  exact before.bind none then_

section Buffers

variable {handler : RecordHandler} {record : APICall} {after : CallEnd} {outputs : Outputs}
  {size event : UInt64} (stored : record.mem_obj_outputs = outputs.mem_obj_outputs)
  (saving : handler.mSkipMemObjects = true)

include stored saving

end Buffers

end Bodies

section Table

variable {host : ReplayHost} {handler : RecordHandler} {call : PiCall} {after : CallEnd}
  {outputs : Outputs} {first : ℕ} {places : Set ℕ}

end Table

/-! ## Runs -/

section Runs

variable {Thread : Type} {host : ReplayHost} {name : Thread → Bytes} {skip : Bool}

variable [DecidableEq Thread] {events : List (Turn Thread PiEvent Empty)}
  {recorded : Together Thread (Option RecordHandler) TraceOutput}

end Runs

end DpcppTrace.Soundness
