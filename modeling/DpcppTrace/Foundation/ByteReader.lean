import DpcppTrace.Foundation.Bytes
import Mathlib.Data.List.Infix

/-! # Code that reads bytes one by one

Code that is handed a place in memory may stop before it has read all that it was promised there, and
where it reads next depends on what it has read. A reader is the tree of its reads: run on the bytes that
are there, it stops with a value, or at a read outside of them. More bytes behind change nothing for a
reader that stops with a value.
-/

namespace DpcppTrace.Foundation

inductive ByteReader (α : Type) where
  | done (value : α)
  | read (index : ℕ) (next : UInt8 → ByteReader α)

namespace ByteReader

variable {α β : Type} {bound start count : ℕ} {reader : ByteReader α} {there : Bytes}

/-- The value at the end; `none` where a byte is read that is not there. -/
def run : ByteReader α → Bytes → Option α
  | .done value, _ => some value
  | .read index next, there =>
    match there[index]? with
    | some byte => (next byte).run there
    | none => none

/-- Only bytes below the bound are read, whatever they are. -/
def Within (bound : ℕ) : ByteReader α → Prop
  | .done _ => True
  | .read index next => index < bound ∧ ∀ byte, (next byte).Within bound

def bind : ByteReader α → (α → ByteReader β) → ByteReader β
  | .done value, rest => rest value
  | .read index next, rest => .read index fun byte => (next byte).bind rest

/-- So many bytes from a place on. -/
def bytes (start : ℕ) : ℕ → ByteReader Bytes
  | 0 => .done []
  | count + 1 => .read start fun byte => (bytes (start + 1) count).bind fun rest => .done (byte :: rest)

theorem run_bind (reader : ByteReader α) (rest : α → ByteReader β) (there : Bytes) :
    (reader.bind rest).run there = (reader.run there).bind fun value => (rest value).run there := by
  induction reader with
  | done value => rfl
  | read index next ih =>
    rw [bind, run, run]
    cases there[index]? with
    | none => rfl
    | some byte => exact ih byte

theorem Within.bind {rest : α → ByteReader β} (first : reader.Within bound)
    (later : ∀ value, (rest value).Within bound) : (reader.bind rest).Within bound := by
  induction reader with
  | done value => exact later value
  | read index next ih => exact ⟨first.1, fun byte => ih byte (first.2 byte)⟩

theorem within_bytes (inside : start + count ≤ bound) : (bytes start count).Within bound := by
  induction count generalizing start with
  | zero => trivial
  | succ count ih => exact ⟨by omega, fun byte => (ih (by omega)).bind fun _ => trivial⟩

theorem run_bytes (inside : start + count ≤ there.length) :
    (bytes start count).run there = some ((there.drop start).take count) := by
  induction count generalizing start with
  | zero => rfl
  | succ count ih =>
    have here : start < there.length := by omega
    rw [bytes, run, List.getElem?_eq_getElem here]
    simp only [run_bind, ih (by omega : start + 1 + count ≤ there.length), Option.bind_some, run,
      List.drop_eq_getElem_cons here, List.take_succ_cons]

/-- A reader that stays within the bytes that are there comes to its end. -/
theorem Within.returns (within : reader.Within bound) (enough : bound ≤ there.length) :
    ∃ value, reader.run there = some value := by
  induction reader with
  | done value => exact ⟨value, rfl⟩
  | read index next ih =>
    rw [run, List.getElem?_eq_getElem (lt_of_lt_of_le within.1 enough)]
    exact ih _ (within.2 _)

theorem run_append {value : α} (ran : reader.run there = some value) (more : Bytes) :
    reader.run (there ++ more) = some value := by
  induction reader with
  | done _ => exact ran
  | read index next ih =>
    rw [run] at ran ⊢
    cases here : there[index]? with
    | none =>
      rw [here] at ran
      cases ran
    | some byte =>
      rw [here] at ran
      obtain ⟨inside, -⟩ := List.getElem?_eq_some_iff.mp here
      rw [List.getElem?_append_left inside, here]
      exact ih byte ran

/-- What is there behind the bound does not matter. -/
theorem Within.run_append (within : reader.Within bound) (enough : bound ≤ there.length) (more : Bytes) :
    reader.run (there ++ more) = reader.run there := by
  obtain ⟨value, ran⟩ := within.returns enough
  rw [ran, ByteReader.run_append ran more]

/-- On the front of some bytes a reader comes to the value that it has on all of them, or it reads behind
the front. -/
theorem run_prefix {front whole : Bytes} {value : α} (short : front <+: whole)
    (ran : reader.run whole = some value) :
    reader.run front = none ∨ reader.run front = some value := by
  obtain ⟨more, rfl⟩ := short
  cases early : reader.run front with
  | none => exact .inl rfl
  | some other =>
    rw [ByteReader.run_append early more] at ran
    exact .inr ran

end ByteReader

end DpcppTrace.Foundation
