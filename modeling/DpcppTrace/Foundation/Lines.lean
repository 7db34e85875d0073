import Mathlib.Data.List.Basic

/-! # Texts of separated lines

A line format without quoting: a writer ends every entry with the separator, and a reader takes the
text apart at the separators, like `std::getline`. What is read back are the pieces of the entries,
so an entry comes back whole exactly if it does not contain the separator.
-/

namespace DpcppTrace.Foundation

universe u

variable {α : Type u} [DecidableEq α]

/-- The lines that `std::getline` delivers until the end of the text. -/
def getlines (separator : α) (text : List α) : List (List α) :=
  let pieces := text.splitOn separator
  if pieces.getLast? = some [] then pieces.dropLast else pieces

/-- Every entry followed by the separator. -/
def putlines (separator : α) (entries : List (List α)) : List α :=
  entries.flatMap (· ++ [separator])

variable {separator : α}

private theorem splitOn_putlines (entries : List (List α)) :
    (putlines separator entries).splitOn separator =
      entries.flatMap (List.splitOn separator) ++ [[]] := by
  induction entries with
  | nil => rfl
  | cons entry entries ih =>
    rw [putlines] at ih
    rw [putlines, List.flatMap_cons, List.append_assoc, List.singleton_append,
      List.splitOn_append_cons_self, ih, List.flatMap_cons, List.append_assoc]

/-- The lines read back are the pieces of the entries. -/
theorem getlines_putlines (entries : List (List α)) :
    getlines separator (putlines separator entries) =
      entries.flatMap (List.splitOn separator) := by
  rw [getlines, splitOn_putlines, List.getLast?_concat, if_pos rfl, List.dropLast_concat]

/-- A piece does not contain the separator. -/
theorem notMem_of_mem_splitOn {text piece : List α} (member : piece ∈ text.splitOn separator) :
    separator ∉ piece := by
  induction text generalizing piece with
  | nil =>
    rw [List.splitOn_nil, List.mem_singleton] at member
    rw [member]
    exact List.not_mem_nil
  | cons element text ih =>
    rw [List.splitOn_cons_eq_if_modifyHead] at member
    split at member
    · rcases List.mem_cons.mp member with rfl | later
      · exact List.not_mem_nil
      · exact ih later
    · rename_i differs
      obtain ⟨first, rest, pieces⟩ := List.exists_cons_of_ne_nil (List.splitOn_ne_nil separator text)
      rw [pieces, List.modifyHead_cons] at member
      rcases List.mem_cons.mp member with rfl | later
      · rw [List.mem_cons, not_or]
        refine ⟨fun same => differs (by rw [same, beq_self_eq_true]), ih ?_⟩
        rw [pieces]
        exact List.mem_cons_self
      · exact ih (by rw [pieces]; exact List.mem_cons_of_mem _ later)

/-- The first piece is what stands in front of the first separator. -/
theorem splitOn_head_prefix (separator : α) (text : List α) :
    ∃ first rest, text.splitOn separator = first :: rest ∧ first <+: text := by
  induction text with
  | nil => exact ⟨[], [], rfl, List.nil_prefix⟩
  | cons element text ih =>
    obtain ⟨first, rest, pieces, front⟩ := ih
    rw [List.splitOn_cons_eq_if_modifyHead]
    split
    · exact ⟨[], _, rfl, List.nil_prefix⟩
    · exact ⟨element :: first, rest, by rw [pieces, List.modifyHead_cons],
        List.cons_prefix_cons.mpr ⟨rfl, front⟩⟩

end DpcppTrace.Foundation
