import DpcppTrace.Foundation.Bytes
import Mathlib.Data.Nat.Digits.Lemmas

/-! # Names of the nodes of a tree

A node's name is its parent's name, a separator and the text of its index among the siblings. Such
names tell the nodes apart when the root's name and the index texts avoid the separator, and
different indices have different texts. Decimal numerals are such texts.
-/

namespace DpcppTrace.Foundation

section Qualified

variable {α ι : Type*}

/-- The name of the node that the child indices `path` lead to, from the root's name. -/
def qualified (separator : α) (text : ι → List α) (root : List α) (path : List ι) : List α :=
  path.foldl (fun name index => name ++ separator :: text index) root

variable {separator : α} {text : ι → List α} {root : List α}

@[simp] theorem qualified_nil : qualified separator text root [] = root := rfl

theorem qualified_concat (path : List ι) (index : ι) :
    qualified separator text root (path ++ [index]) =
      qualified separator text root path ++ separator :: text index := by
  simp [qualified]

/-- The last separator of a list determines both parts. -/
theorem append_separator_inj {left right first second : List α} (avoids : separator ∉ first)
    (alsoAvoids : separator ∉ second)
    (same : left ++ separator :: first = right ++ separator :: second) :
    left = right ∧ first = second := by
  rw [List.append_eq_append_iff] at same
  rcases same with ⟨middle, rfl, tail⟩ | ⟨middle, rfl, tail⟩
  · cases middle with
    | nil => simpa using tail
    | cons head middle =>
      rw [List.cons_append, List.cons.injEq] at tail
      exact absurd (by rw [tail.2]; simp) avoids
  · cases middle with
    | nil => simpa [eq_comm] using tail
    | cons head middle =>
      rw [List.cons_append, List.cons.injEq] at tail
      exact absurd (by rw [tail.2]; simp) alsoAvoids

theorem qualified_injective (rootAvoids : separator ∉ root)
    (textAvoids : ∀ index, separator ∉ text index) (injective : Function.Injective text) :
    Function.Injective (qualified separator text root) := by
  intro first
  induction first using List.reverseRecOn with
  | nil =>
    intro second same
    induction second using List.reverseRecOn with
    | nil => rfl
    | append_singleton second index _ =>
      rw [qualified_nil, qualified_concat] at same
      exact absurd (by rw [same]; simp) rootAvoids
  | append_singleton first index ih =>
    intro second same
    induction second using List.reverseRecOn with
    | nil =>
      rw [qualified_nil, qualified_concat] at same
      exact absurd (by rw [← same]; simp) rootAvoids
    | append_singleton second other _ =>
      rw [qualified_concat, qualified_concat] at same
      obtain ⟨parents, texts⟩ := append_separator_inj (textAvoids index) (textAvoids other) same
      rw [ih parents, injective texts]

end Qualified

/-- A decimal numeral consists of digits. -/
theorem digit_of_mem_decimal {n : ℕ} {byte : UInt8} (member : byte ∈ decimal n) :
    0x30 ≤ byte.toNat ∧ byte.toNat < 0x3a := by
  rw [decimal] at member
  split at member
  · rw [List.mem_singleton.mp member]
    decide
  · obtain ⟨digit, present, rfl⟩ := List.mem_map.mp member
    have small : digit < 10 := Nat.digits_lt_base (by norm_num) (List.mem_reverse.mp present)
    rw [UInt8.toNat_ofNat', Nat.mod_eq_of_lt (by omega)]
    omega

theorem decimal_injective : Function.Injective decimal := by
  have digits (n : ℕ) : ((decimal n).map fun byte => byte.toNat - 0x30).reverse =
      if n = 0 then [0] else Nat.digits 10 n := by
    rw [decimal]
    split
    · decide
    · rw [List.map_map, ← List.map_reverse, List.reverse_reverse, List.map_congr_left, List.map_id]
      intro digit present
      have small : digit < 10 := Nat.digits_lt_base (by norm_num) present
      simp only [Function.comp_apply, id]
      rw [UInt8.toNat_ofNat', Nat.mod_eq_of_lt (by omega), Nat.add_sub_cancel_left]
  have value (n : ℕ) :
      Nat.ofDigits 10 ((decimal n).map fun byte => byte.toNat - 0x30).reverse = n := by
    rw [digits]
    split
    · simp_all
    · exact Nat.ofDigits_digits 10 n
  intro first second same
  rw [← value first, ← value second, same]

/-- A number and what follows it are both known where it ends with something that is no digit. -/
theorem decimal_append_inj {first second : ℕ} {c d : UInt8} {left right : Bytes}
    (ends : ¬(0x30 ≤ c.toNat ∧ c.toNat < 0x3a)) (alsoEnds : ¬(0x30 ≤ d.toNat ∧ d.toNat < 0x3a))
    (same : decimal first ++ c :: left = decimal second ++ d :: right) :
    first = second ∧ c = d ∧ left = right := by
  let digit (byte : UInt8) : Bool := 0x30 ≤ byte.toNat ∧ byte.toNat < 0x3a
  have front (n : ℕ) {e : UInt8} (rest : Bytes) (stops : ¬(0x30 ≤ e.toNat ∧ e.toNat < 0x3a)) :
      (decimal n ++ e :: rest).takeWhile digit = decimal n := by
    rw [List.takeWhile_append_of_pos, List.takeWhile_cons_of_neg (by simpa [digit] using stops),
      List.append_nil]
    intro byte member
    simpa [digit] using digit_of_mem_decimal member
  have numbers : decimal first = decimal second := by
    rw [← front first left ends, same, front second right alsoEnds]
  rw [numbers] at same
  exact ⟨decimal_injective numbers, List.cons.inj (List.append_cancel_left same)⟩

/-- The minus sign tells negative numbers from the others. -/
theorem signedDecimal_injective : Function.Injective signedDecimal := by
  have unsigned (n : ℕ) : 0x2d ∉ decimal n := fun member =>
    absurd (digit_of_mem_decimal member).1 (by decide)
  intro first second same
  cases first with
  | ofNat n =>
    cases second with
    | ofNat m => exact congrArg Int.ofNat (decimal_injective same)
    | negSucc m =>
      rw [signedDecimal.eq_1] at same
      exact absurd (by rw [same]; simp [signedDecimal]) (unsigned n)
  | negSucc n =>
    cases second with
    | ofNat m =>
      rw [signedDecimal.eq_1] at same
      exact absurd (by rw [← same]; simp [signedDecimal]) (unsigned m)
    | negSucc m =>
      have magnitudes := decimal_injective (List.cons.inj same).2
      exact congrArg Int.negSucc (by omega)

end DpcppTrace.Foundation
