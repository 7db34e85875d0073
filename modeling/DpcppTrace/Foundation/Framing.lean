import Mathlib.Data.List.Basic
import Mathlib.Order.Nat
import Mathlib.Tactic.Common

/-! # Cutting a concatenation of frames

A writer appends whole frames; a reader may see only the first `n` elements of the result. The
frames that survive the cut are a prefix of the sequence, and a frame survives exactly when the
concatenation up to and including it is no longer than the cut. What follows the last whole
frame is a proper part of the next one. Frames that say where they end are determined by their
concatenation.
-/

namespace DpcppTrace.Foundation.Framing

variable {α : Type*}

/-- How many leading frames lie wholly within the first `n` elements. -/
def wholeCount : ℕ → List (List α) → ℕ
  | _, [] => 0
  | n, frame :: rest => if frame.length ≤ n then wholeCount (n - frame.length) rest + 1 else 0

/-- The end position of frame `index` in the concatenation. -/
def frameEnd (frames : List (List α)) (index : ℕ) : ℕ := (frames.take (index + 1)).flatten.length

theorem wholeCount_le (n : ℕ) (frames : List (List α)) : wholeCount n frames ≤ frames.length := by
  induction frames generalizing n with
  | nil => exact le_rfl
  | cons frame rest ih =>
    simp only [wholeCount, List.length_cons]
    split
    · exact Nat.succ_le_succ (ih _)
    · exact Nat.zero_le _

/-- A cut behind the last frame leaves all of them. -/
theorem wholeCount_flatten (frames : List (List α)) :
    wholeCount frames.flatten.length frames = frames.length := by
  induction frames with
  | nil => rfl
  | cons frame rest ih =>
    rw [List.flatten_cons, List.length_append, wholeCount, if_pos (Nat.le_add_right _ _),
      Nat.add_sub_cancel_left, ih, List.length_cons]

/-- A frame is counted exactly when it ends within the cut. -/
theorem lt_wholeCount_iff (n : ℕ) (frames : List (List α)) (index : ℕ) (present : index < frames.length) :
    index < wholeCount n frames ↔ frameEnd frames index ≤ n := by
  induction frames generalizing n index with
  | nil => simp at present
  | cons frame rest ih =>
    have first : frame.length ≤ frameEnd (frame :: rest) index := by simp [frameEnd]
    by_cases whole : frame.length ≤ n
    · rw [wholeCount, if_pos whole]
      cases index with
      | zero => simpa [frameEnd] using whole
      | succ index =>
        have later : frameEnd (frame :: rest) (index + 1) = frame.length + frameEnd rest index := by
          simp [frameEnd]
        rw [Nat.add_lt_add_iff_right, ih _ _ (by simpa using present), later]
        omega
    · rw [wholeCount, if_neg whole]
      omega

/-- Past its first frame, a cut is a cut of the remaining frames. -/
theorem take_cons_of_whole (frame : List α) (rest : List (List α)) {n : ℕ} (whole : frame.length ≤ n) :
    (frame :: rest).flatten.take n = frame ++ rest.flatten.take (n - frame.length) := by
  rw [List.flatten_cons, List.take_append, List.take_of_length_le whole]

/-- A cut inside the first frame keeps a proper part of it only. -/
theorem take_cons_of_inside (frame : List α) (rest : List (List α)) {n : ℕ} (inside : n < frame.length) :
    (frame :: rest).flatten.take n = frame.take n := by
  rw [List.flatten_cons, List.take_append_of_le_length (by omega)]

/-- A concatenation of frames that say where they end determines what was framed. -/
theorem flatMap_inj {β : Type*} {frame : β → List α} {good : β → Prop}
    (nonempty : ∀ value, good value → frame value ≠ [])
    (delimited : ∀ {value other rest more}, good value → good other →
      frame value ++ rest = frame other ++ more → value = other ∧ rest = more)
    {values others : List β} (fine : ∀ value ∈ values, good value) (fine' : ∀ other ∈ others, good other)
    (same : values.flatMap frame = others.flatMap frame) : values = others := by
  induction values generalizing others with
  | nil =>
    cases others with
    | nil => rfl
    | cons other others =>
      have empty := List.append_eq_nil_iff.mp same.symm
      exact absurd empty.1 (nonempty other (fine' other List.mem_cons_self))
  | cons value values ih =>
    obtain ⟨here, later⟩ := List.forall_mem_cons.mp fine
    cases others with
    | nil => exact absurd (List.append_eq_nil_iff.mp same).1 (nonempty value here)
    | cons other others =>
      obtain ⟨here', later'⟩ := List.forall_mem_cons.mp fine'
      obtain ⟨rfl, rest⟩ := delimited here here' same
      rw [ih later later' rest]

end DpcppTrace.Foundation.Framing
