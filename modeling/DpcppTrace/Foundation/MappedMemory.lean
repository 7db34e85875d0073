import DpcppTrace.Foundation.Bytes

/-! # Memory with unmapped addresses

A process sees a byte at the addresses that are mapped. Addresses are machine words, and offsets wrap
around with them. Loading a range needs all of it mapped; storing over consecutive ranges is storing
the joined bytes. A C string lies at an address when its bytes do, with a zero byte behind them.
-/

namespace DpcppTrace.Foundation

/-- The byte at each mapped address. -/
abbrev MappedMemory := UInt64 → Option UInt8

namespace MappedMemory

variable {memory : MappedMemory} {address : UInt64} {bytes : Bytes} {count : ℕ}

/-- The `count` addresses from `address` on are mapped. -/
def Mapped (memory : MappedMemory) (address : UInt64) (count : ℕ) : Prop :=
  ∀ i < count, (memory (address + UInt64.ofNat i)).isSome = true

/-- Memory is mapped in whole pages of this size. -/
def Paged (page : ℕ) (memory : MappedMemory) : Prop :=
  ∀ first second : UInt64, first.toNat / page = second.toNat / page →
    (memory first).isSome = (memory second).isSome

/-- There are so many addresses below this one, and they are mapped. -/
def MappedBelow (memory : MappedMemory) (address : UInt64) (count : ℕ) : Prop :=
  ∀ distance, 0 < distance → distance ≤ count →
    ∃ location : UInt64, location.toNat + distance = address.toNat ∧
      (memory location).isSome = true

/-- The bytes from `address` on, if all of them are mapped. -/
def load (memory : MappedMemory) (address : UInt64) : ℕ → Option Bytes
  | 0 => some []
  | count + 1 =>
    match memory address, load memory (address + 1) count with
    | some byte, some rest => some (byte :: rest)
    | _, _ => none

/-- Replace the bytes from `address` on. -/
def store (memory : MappedMemory) (address : UInt64) (bytes : Bytes) : MappedMemory :=
  fun location => bytes[(location - address).toNat]?.or (memory location)

/-- These bytes lie at the address. -/
def HoldsBytes (memory : MappedMemory) (address : UInt64) (bytes : Bytes) : Prop :=
  ∀ i byte, bytes[i]? = some byte → memory (address + UInt64.ofNat i) = some byte

/-- A C string lies at the address. -/
structure HoldsString (memory : MappedMemory) (address : UInt64) (text : Bytes) : Prop where
  noNul : 0 ∉ text
  bytes : HoldsBytes memory address (text ++ [0])

/-! ## Loading -/

private theorem ofNat_succ (i : ℕ) : UInt64.ofNat (i + 1) = 1 + UInt64.ofNat i := by
  rw [Nat.add_comm, UInt64.ofNat_add]
  rfl

private theorem mapped_succ : Mapped memory address (count + 1) ↔
    (memory address).isSome = true ∧ Mapped memory (address + 1) count := by
  constructor
  · intro mapped
    refine ⟨by simpa using mapped 0 (by omega), fun i inside => ?_⟩
    have here := mapped (i + 1) (by omega)
    rwa [ofNat_succ, ← UInt64.add_assoc] at here
  · rintro ⟨first, rest⟩ i inside
    cases i with
    | zero => simpa using first
    | succ i =>
      rw [ofNat_succ, ← UInt64.add_assoc]
      exact rest i (by omega)

theorem holdsBytes_nil : HoldsBytes memory address [] := by
  intro i byte found
  simp at found

theorem holdsBytes_cons {byte : UInt8} : HoldsBytes memory address (byte :: bytes) ↔
    memory address = some byte ∧ HoldsBytes memory (address + 1) bytes := by
  constructor
  · intro holds
    refine ⟨by simpa using holds 0 byte rfl, fun i other found => ?_⟩
    have here := holds (i + 1) other found
    rwa [ofNat_succ, ← UInt64.add_assoc] at here
  · rintro ⟨first, rest⟩ i other found
    cases i with
    | zero =>
      obtain rfl : byte = other := by simpa using found
      simpa using first
    | succ i =>
      rw [ofNat_succ, ← UInt64.add_assoc]
      exact rest i other found

theorem load_eq_some_iff :
    memory.load address count = some bytes ↔
      bytes.length = count ∧ HoldsBytes memory address bytes := by
  induction count generalizing address bytes with
  | zero =>
    rw [load, Option.some.injEq]
    constructor
    · rintro rfl
      exact ⟨rfl, holdsBytes_nil⟩
    · rintro ⟨empty, -⟩
      exact (List.eq_nil_of_length_eq_zero empty).symm
  | succ count ih =>
    cases bytes with
    | nil =>
      rw [load]
      split <;> simp
    | cons byte bytes =>
      rw [holdsBytes_cons, List.length_cons, Nat.add_right_cancel_iff, and_left_comm, ← ih, load]
      cases memory address with
      | none => simp
      | some first =>
        cases memory.load (address + 1) count with
        | none => simp
        | some rest => simp

theorem load_isSome_iff : (memory.load address count).isSome = true ↔ Mapped memory address count := by
  induction count generalizing address with
  | zero => simp [load, Mapped]
  | succ count ih =>
    rw [mapped_succ, ← ih, load]
    cases memory address with
    | none => simp
    | some first =>
      cases memory.load (address + 1) count with
      | none => simp
      | some rest => simp

theorem HoldsBytes.mapped (holds : HoldsBytes memory address bytes) :
    Mapped memory address bytes.length := by
  intro i inside
  rw [holds i _ (List.getElem?_eq_getElem inside)]
  rfl

theorem HoldsBytes.append_right {front rest : Bytes}
    (holds : HoldsBytes memory address (front ++ rest)) :
    HoldsBytes memory (address + UInt64.ofNat front.length) rest := by
  intro i byte found
  rw [UInt64.add_assoc, ← UInt64.ofNat_add]
  apply holds
  rw [List.getElem?_append_right (by omega), Nat.add_sub_cancel_left, found]

theorem HoldsBytes.append_left {front rest : Bytes}
    (holds : HoldsBytes memory address (front ++ rest)) : HoldsBytes memory address front := by
  intro i byte found
  have inside := (List.getElem?_eq_some_iff.mp found).choose
  exact holds i byte (by rw [List.getElem?_append_left inside, found])

/-- Of two texts at one address the shorter one is a prefix of the other. -/
theorem HoldsBytes.isPrefix {other : Bytes} (holds : HoldsBytes memory address bytes)
    (others : HoldsBytes memory address other) (shorter : bytes.length ≤ other.length) :
    bytes <+: other := by
  rw [List.prefix_iff_eq_take]
  apply List.ext_getElem? fun i => ?_
  rcases Nat.lt_or_ge i bytes.length with inside | outside
  · have first := holds i _ (List.getElem?_eq_getElem inside)
    have second := others i _ (List.getElem?_eq_getElem (by omega))
    rw [List.getElem?_take_of_lt inside, List.getElem?_eq_getElem inside,
      List.getElem?_eq_getElem (by omega), ← first, ← second]
  · rw [List.getElem?_eq_none outside, List.getElem?_eq_none (by simpa using .inl outside)]

/-- A C string ends at the first zero byte of what lies at its address. -/
theorem HoldsBytes.string (holds : HoldsBytes memory address (bytes ++ [0])) :
    HoldsString memory address (bytes.takeWhile (· != 0)) := by
  have nonzero : 0 ∉ bytes.takeWhile (· != 0) := by
    intro zero
    have kept := List.all_eq_true.mp List.all_takeWhile 0 zero
    exact absurd kept (by decide)
  refine ⟨nonzero, ?_⟩
  rw [← List.takeWhile_append_dropWhile (p := (· != 0)) (l := bytes)] at holds
  cases behind : bytes.dropWhile (· != 0) with
  | nil =>
    rw [behind, List.append_nil] at holds
    exact holds
  | cons byte rest =>
    have zero : byte = 0 := by
      have first := List.head_dropWhile_not (· != 0) (l := bytes) (by simp [behind])
      simpa [behind] using first
    rw [behind, zero, List.append_assoc, List.cons_append, ← List.singleton_append,
      ← List.append_assoc] at holds
    exact holds.append_left

private theorem HoldsString.eq_of_le {text other : Bytes} (holds : HoldsString memory address text)
    (others : HoldsString memory address other) (shorter : text.length ≤ other.length) :
    text = other := by
  have front := holds.bytes.isPrefix others.bytes (by simpa using shorter)
  rcases List.prefix_concat_iff.mp front with whole | inside
  · exact List.append_cancel_right whole
  · exact absurd (inside.subset (by simp)) others.noNul

/-- At most one C string lies at an address. -/
theorem HoldsString.unique {text other : Bytes} (holds : HoldsString memory address text)
    (others : HoldsString memory address other) : text = other := by
  rcases Nat.le_total text.length other.length with shorter | longer
  · exact holds.eq_of_le others shorter
  · exact (others.eq_of_le holds longer).symm

/-- Mapped addresses below another one form a range that ends in front of it. -/
theorem MappedBelow.mapped (below : MappedBelow memory address count) :
    count ≤ address.toNat ∧ Mapped memory (address - UInt64.ofNat count) count := by
  have enough : count ≤ address.toNat := by
    rcases Nat.eq_zero_or_pos count with rfl | positive
    · exact Nat.zero_le _
    · obtain ⟨location, sum, -⟩ := below count positive le_rfl
      omega
  have bound := address.toNat_lt
  refine ⟨enough, fun i inside => ?_⟩
  obtain ⟨location, sum, mapped⟩ := below (count - i) (by omega) (by omega)
  have same : address - UInt64.ofNat count + UInt64.ofNat i = location := by
    apply UInt64.toNat.inj
    rw [UInt64.toNat_add, UInt64.toNat_sub, UInt64.toNat_ofNat', UInt64.toNat_ofNat']
    omega
  rwa [same]

/-- Pages of a multiple of so many bytes hold whole blocks of that size. -/
theorem Paged.mapped_block {page block : ℕ} (paged : Paged page memory) (divides : block ∣ page)
    (aligned : block ∣ address.toNat) (fits : address.toNat + block ≤ 2 ^ 64)
    (first : (memory address).isSome = true) : Mapped memory address block := by
  intro i inside
  rw [paged (address + UInt64.ofNat i) address, first]
  have sum : (address + UInt64.ofNat i).toNat = address.toNat + i := by
    rw [UInt64.toNat_add, UInt64.toNat_ofNat']
    omega
  obtain ⟨blocks, rfl⟩ := divides
  obtain ⟨index, same⟩ := aligned
  rw [sum, same, ← Nat.div_div_eq_div_mul, ← Nat.div_div_eq_div_mul,
    Nat.mul_add_div (by omega), Nat.mul_div_cancel_left _ (by omega), Nat.div_eq_of_lt inside,
    Nat.add_zero]

/-! ## Storing -/

private theorem toNat_offset (address : UInt64) {i : ℕ} (small : i < 2 ^ 64) :
    (address + UInt64.ofNat i - address).toNat = i := by
  rw [UInt64.add_comm, UInt64.add_sub_cancel, UInt64.toNat_ofNat', Nat.mod_eq_of_lt small]

/-- What was stored lies at the address. -/
theorem holdsBytes_store (sized : bytes.length ≤ 2 ^ 64) :
    HoldsBytes (memory.store address bytes) address bytes := by
  intro i byte found
  have inside := (List.getElem?_eq_some_iff.mp found).choose
  rw [store, toNat_offset address (by omega), found]
  rfl

/-- Addresses behind the bytes are left alone. -/
theorem store_outside {location : UInt64} (outside : bytes.length ≤ (location - address).toNat) :
    memory.store address bytes location = memory location := by
  rw [store, List.getElem?_eq_none outside]
  rfl

theorem store_nil : memory.store address [] = memory := by
  funext location
  exact store_outside (Nat.zero_le _)

/-- Storing keeps what is mapped. -/
theorem store_isSome {location : UInt64} (mapped : (memory location).isSome = true) :
    (memory.store address bytes location).isSome = true := by
  rw [store]
  cases bytes[(location - address).toNat]? with
  | none => exact mapped
  | some byte => rfl

/-- Storing behind what was stored is storing both. -/
theorem store_store (memory : MappedMemory) (address : UInt64) {front rest : Bytes}
    (sized : front.length + rest.length < 2 ^ 64) :
    (memory.store address front).store (address + UInt64.ofNat front.length) rest =
      memory.store address (front ++ rest) := by
  funext location
  have shifted : (location - (address + UInt64.ofNat front.length)).toNat =
      ((location - address).toNat + (2 ^ 64 - front.length)) % 2 ^ 64 := by
    have start := address.toNat_lt
    rw [UInt64.toNat_sub, UInt64.toNat_add, UInt64.toNat_sub, UInt64.toNat_ofNat']
    omega
  have bound := (location - address).toNat_lt
  rw [store, store, store, shifted]
  rcases Nat.lt_or_ge (location - address).toNat front.length with before | behind
  · have far : rest.length ≤ ((location - address).toNat + (2 ^ 64 - front.length)) % 2 ^ 64 := by
      omega
    rw [List.getElem?_eq_none far, List.getElem?_append_left before]
    rfl
  · have back : ((location - address).toNat + (2 ^ 64 - front.length)) % 2 ^ 64 =
        (location - address).toNat - front.length := by
      omega
    rw [back, List.getElem?_append_right behind, List.getElem?_eq_none behind]
    rfl

end MappedMemory

end DpcppTrace.Foundation
