import Mathlib.Data.Nat.Digits.Defs
import Mathlib.Data.List.Basic

/-! # Byte strings, machine words and sized buffers

Traces, archives and packets are all byte strings. A machine word of `width` bytes is stored
little endian; its value is Mathlib's positional reading in base 256, so storing and loading
compose without any bit-level reasoning. A buffer is a byte string whose length is a `size_t`.
-/

namespace DpcppTrace.Foundation

/-- A finite byte string. -/
abbrev Bytes := List UInt8

/-- The bytes of an ASCII literal. -/
def str (text : String) : Bytes := text.toList.map fun c => UInt8.ofNat c.toNat

theorem str_append (front rest : String) : str (front ++ rest) = str front ++ str rest := by
  simp [str]

/-- `std::to_string` of a natural number. -/
def decimal (n : ℕ) : Bytes :=
  if n = 0 then [0x30] else (Nat.digits 10 n).reverse.map fun digit => UInt8.ofNat (0x30 + digit)

/-- The decimal text of an integer. -/
def signedDecimal : ℤ → Bytes
  | .ofNat n => decimal n
  | .negSucc n => 0x2d :: decimal (n + 1)

/-- The value of a little-endian word. -/
def ofLe (bytes : Bytes) : ℕ := Nat.ofDigits 256 (bytes.map UInt8.toNat)

/-- The low `width` bytes of a value, least significant byte first. -/
def leBytes : ℕ → ℕ → Bytes
  | 0, _ => []
  | width + 1, value => UInt8.ofNat value :: leBytes width (value / 256)

@[simp] theorem ofLe_nil : ofLe [] = 0 := rfl

@[simp] theorem ofLe_cons (byte : UInt8) (rest : Bytes) :
    ofLe (byte :: rest) = byte.toNat + 256 * ofLe rest := by
  simp only [ofLe, List.map_cons, Nat.ofDigits_cons]

@[simp] theorem leBytes_length (width value : ℕ) : (leBytes width value).length = width := by
  induction width generalizing value with
  | zero => rfl
  | succ width ih => simp only [leBytes, List.length_cons, ih]

theorem ofLe_lt (bytes : Bytes) : ofLe bytes < 256 ^ bytes.length := by
  have digits : ∀ digit ∈ bytes.map UInt8.toNat, digit < 256 := by
    intro digit member
    obtain ⟨byte, -, rfl⟩ := List.mem_map.mp member
    exact byte.toNat_lt
  have bound := Nat.ofDigits_lt_base_pow_length (by decide : 1 < 256) digits
  rwa [List.length_map] at bound

/-- Loading a stored word truncates it to its width. -/
theorem ofLe_leBytes (width value : ℕ) : ofLe (leBytes width value) = value % 256 ^ width := by
  induction width generalizing value with
  | zero => simp [leBytes, Nat.mod_one]
  | succ width ih =>
    have head : (UInt8.ofNat value).toNat = value % 256 := by simp
    rw [leBytes, ofLe_cons, ih, head, pow_succ', Nat.mod_mul]

theorem ofLe_leBytes_of_lt {width value : ℕ} (fits : value < 256 ^ width) :
    ofLe (leBytes width value) = value := by
  rw [ofLe_leBytes, Nat.mod_eq_of_lt fits]

/-- A byte string whose length fits a `size_t`. -/
structure Buffer where
  data : Bytes
  sized : data.length < 2 ^ 64

namespace Buffer

instance : Inhabited Buffer := ⟨⟨[], by decide⟩⟩

/-- A buffer for a short byte string. -/
def short (data : Bytes) (small : data.length < 0x10000) : Buffer := ⟨data, by omega⟩

end Buffer

end DpcppTrace.Foundation
