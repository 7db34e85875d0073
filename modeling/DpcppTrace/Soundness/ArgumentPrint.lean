import DpcppTrace.Foundation.Naming
import DpcppTrace.Model.CollectArgs
import DpcppTrace.Model.PrettyPrinters
import Mathlib.Data.List.Forall2

/-! # Arguments from the call to the print

Every argument gets its line. Because the recorder takes the pointer branch for a string and the
signed branch for every integer, a string shows its address, and an unsigned integer in the upper
half of its range shows a negative number.
-/

namespace DpcppTrace.Soundness

open Foundation Model

/-- What the line of an argument is to show. -/
def shown : Argument → Bytes
  | .string _ text => text
  | .pointer address => str "0x" ++ hexNumeral address.toNat
  | .uint32 value => decimal value.toNat
  | .int32 value => signedDecimal value.toInt
  | .uint64 value => decimal value.toNat
  | .int64 value => signedDecimal value.toInt

/-- The line has a label in its column, and behind it the argument. -/
def Shows (line : Bytes) (arg : Argument) : Prop :=
  ∃ label : Bytes, label.length = 20 ∧ line = label ++ str " : " ++ shown arg ++ str "\n"

/-- Strings whose characters happen to be their own address, and unsigned integers in the lower
half of their range. -/
def Printable : Argument → Prop
  | .string address text => text = str "0x" ++ hexNumeral address.toNat
  | .pointer _ | .int32 _ | .int64 _ => True
  | .uint32 value => value.toNat < 2 ^ 31
  | .uint64 value => value.toNat < 2 ^ 63

/-! ## One line -/

private theorem shows_printLine {label : Bytes} (narrow : label.length ≤ 20) (value : Bytes)
    (arg : Argument) : Shows (printLine label value) arg ↔ value = shown arg := by
  have width : (List.replicate (20 - label.length) 0x20 ++ label).length = 20 := by
    rw [List.length_append, List.length_replicate]
    omega
  constructor
  · rintro ⟨other, otherWidth, same⟩
    simp only [printLine, List.append_assoc] at same
    rw [← List.append_assoc] at same
    obtain ⟨-, rest⟩ := List.append_inj same (width.trans otherWidth.symm)
    exact List.append_cancel_right (List.append_cancel_left rest)
  · rintro rfl
    exact ⟨_, width, rfl⟩

/-- Half of the words of 64 bits keep their value as signed integers. -/
theorem toInt_toInt64_eq_iff (value : UInt64) :
    value.toInt64.toInt = value.toNat ↔ value.toNat < 2 ^ 63 := by
  have word : value.toInt64.toInt = Int.bmod value.toNat (2 ^ 64) := by
    change value.toBitVec.toInt = _
    rw [BitVec.toInt_eq_toNat_bmod]
    rfl
  have bounded := value.toNat_lt
  rw [word, Int.bmod_def]
  omega

private theorem toInt_toInt32_eq_iff (value : UInt32) :
    value.toUInt64.toInt64.toInt32.toInt = value.toNat ↔ value.toNat < 2 ^ 31 := by
  have bounded := value.toNat_lt
  have wide : value.toUInt64.toInt64.toInt = value.toNat := by
    rw [← UInt32.toNat_toUInt64, toInt_toInt64_eq_iff, UInt32.toNat_toUInt64]
    omega
  rw [Int64.toInt_toInt32, wide, Int.bmod_def]
  omega

private theorem decimal_eq_signedDecimal (n : ℕ) : decimal n = signedDecimal n := rfl

/-- The line of a recorded argument shows the argument exactly if it is printable. -/
theorem shows_printArg (arg : Argument) :
    Shows (printArg (collectArg true arg)) arg ↔ Printable arg := by
  cases arg with
  | string address text =>
    change Shows (printLine _ (str "0x" ++ hexNumeral address.toNat)) _ ↔ _
    rw [shows_printLine (by decide), shown, Printable, eq_comm]
  | pointer address =>
    change Shows (printLine _ (str "0x" ++ hexNumeral address.toNat)) _ ↔ _
    rw [shows_printLine (by decide), shown, Printable, eq_self]
  | uint32 value =>
    change Shows (printLine _ (signedDecimal value.toUInt64.toInt64.toInt32.toInt)) _ ↔ _
    rw [shows_printLine (by decide), shown, Printable, decimal_eq_signedDecimal,
      signedDecimal_injective.eq_iff, toInt_toInt32_eq_iff]
  | int32 value =>
    change Shows (printLine _ (signedDecimal value.toInt64.toUInt64.toInt64.toInt32.toInt)) _ ↔ _
    rw [shows_printLine (by decide), shown, Printable, Int64.toInt64_toUInt64,
      Int32.toInt32_toInt64, eq_self]
  | uint64 value =>
    change Shows (printLine _ (signedDecimal value.toInt64.toInt)) _ ↔ _
    rw [shows_printLine (by decide), shown, Printable, decimal_eq_signedDecimal,
      signedDecimal_injective.eq_iff, toInt_toInt64_eq_iff]
  | int64 value =>
    change Shows (printLine _ (signedDecimal value.toUInt64.toInt64.toInt)) _ ↔ _
    rw [shows_printLine (by decide), shown, Printable, Int64.toInt64_toUInt64, eq_self]

/-- The print of a record shows its arguments, one line for each in order, exactly if they are
printable. -/
theorem arguments_shown_iff (args : List Argument) :
    List.Forall₂ Shows (printArgs (collectArgs args)) args ↔ ∀ arg ∈ args, Printable arg := by
  rw [printArgs, collectArgs, List.map_map, List.forall₂_map_left_iff, List.forall₂_same]
  simp only [Function.comp_apply, shows_printArg]

/-- The name of a kernel. -/
theorem not_arguments_shown :
    ¬∀ args : List Argument, List.Forall₂ Shows (printArgs (collectArgs args)) args := by
  intro always
  have lines := always [.string 0x4000 (str "main")]
  rw [printArgs, collectArgs, List.map_map, List.forall₂_map_left_iff, List.forall₂_same] at lines
  have printable := (shows_printArg _).mp (lines _ List.mem_cons_self)
  exact absurd (congrArg List.head? printable) (by decide)

end DpcppTrace.Soundness
