import DpcppTrace.Foundation.Bytes
import Mathlib.Order.Nat

/-! # Flat byte-addressed memory

A memory gives every address a byte. Reading takes a range; writing replaces the range a byte
string covers and leaves the rest alone, so what a later read sees is decided address by address.
-/

namespace DpcppTrace.Foundation

/-- The byte at each address. -/
abbrev Memory := ℕ → UInt8

namespace Memory

/-- The `count` bytes from `address` on. -/
def read (memory : Memory) (address count : ℕ) : Bytes :=
  (List.range count).map fun offset => memory (address + offset)

/-- Replace the bytes from `address` on. -/
def write (memory : Memory) (address : ℕ) (bytes : Bytes) : Memory := fun location =>
  if address ≤ location then bytes[location - address]?.getD (memory location) else memory location

@[simp] theorem read_length (memory : Memory) (address count : ℕ) :
    (memory.read address count).length = count := by
  simp [read]

theorem getElem?_read (memory : Memory) (address : ℕ) {count offset : ℕ} (inside : offset < count) :
    (memory.read address count)[offset]? = some (memory (address + offset)) := by
  simp [read, inside]

theorem write_inside (memory : Memory) (address : ℕ) {bytes : Bytes} {offset : ℕ} {byte : UInt8}
    (inside : bytes[offset]? = some byte) : memory.write address bytes (address + offset) = byte := by
  rw [write, if_pos (by omega), Nat.add_sub_cancel_left, inside, Option.getD_some]

theorem write_outside (memory : Memory) {address : ℕ} {bytes : Bytes} {location : ℕ}
    (outside : location < address ∨ address + bytes.length ≤ location) :
    memory.write address bytes location = memory location := by
  rcases outside with below | beyond
  · rw [write, if_neg (by omega)]
  · have missing : bytes[location - address]? = none := List.getElem?_eq_none_iff.mpr (by omega)
    rw [write, missing, Option.getD_none, ite_self]

/-- Two ranges share no address. -/
def Apart (first firstCount second secondCount : ℕ) : Prop :=
  ∀ i < firstCount, ∀ j < secondCount, first + i ≠ second + j

instance (first firstCount second secondCount : ℕ) :
    Decidable (Apart first firstCount second secondCount) :=
  inferInstanceAs (Decidable (∀ i < firstCount, ∀ j < secondCount, first + i ≠ second + j))

theorem read_congr {first second : Memory} {address other count : ℕ}
    (same : ∀ offset < count, first (address + offset) = second (other + offset)) :
    first.read address count = second.read other count :=
  List.map_congr_left fun offset member => same offset (List.mem_range.mp member)

/-- What was written is read. -/
theorem read_write (memory : Memory) (address : ℕ) (bytes : Bytes) :
    (memory.write address bytes).read address bytes.length = bytes := by
  apply List.ext_getElem (by simp)
  intro offset inside _
  have here : offset < bytes.length := by simpa using inside
  have found := getElem?_read (memory.write address bytes) address here
  rw [write_inside memory address (List.getElem?_eq_getElem here)] at found
  exact (List.getElem?_eq_some_iff.mp found).2

/-- What lies apart from a write is read as before. -/
theorem read_write_apart {memory : Memory} {address other count : ℕ} {bytes : Bytes}
    (apart : Apart address bytes.length other count) :
    (memory.write address bytes).read other count = memory.read other count := by
  apply read_congr
  intro offset inside
  apply write_outside
  by_contra overlaps
  have shared := apart (other + offset - address) (by omega) offset inside
  omega

end Memory

end DpcppTrace.Foundation
