import Mathlib.Data.List.Sort
import Mathlib.Order.Defs.LinearOrder

/-! # Sorts that may reorder ties

An unstable sort promises a permutation in the order of a key and nothing about elements whose keys
are equal. Where a sequence is merged from sources that each are in order, it keeps the order within
every source exactly if a tie inside a source is between equal elements.
-/

namespace DpcppTrace.Foundation

universe u v w

variable {α : Type u} {τ : Type v} {κ : Type w} [LinearOrder τ] [DecidableEq κ]

/-- What `std::sort` may return, sorting by a key. -/
structure Sorts (key : α → τ) (input output : List α) : Prop where
  perm : output.Perm input
  ordered : output.Pairwise fun first second => key first ≤ key second

namespace Sorts

variable {key : α → τ} {source : α → κ} {input output : List α}

theorem exists_output (key : α → τ) (input : List α) : ∃ output, Sorts key input output := by
  refine ⟨input.mergeSort fun first second => decide (key first ≤ key second),
    List.mergeSort_perm _ _, ?_⟩
  have ordered : (input.mergeSort fun first second => decide (key first ≤ key second)).Pairwise
      fun first second => decide (key first ≤ key second) = true := by
    apply List.pairwise_mergeSort
    · intro a b c first second
      exact decide_eq_true (le_trans (of_decide_eq_true first) (of_decide_eq_true second))
    · intro a b
      simpa using le_total (key a) (key b)
  exact ordered.imp fun before => of_decide_eq_true before

/-- Two elements with equal keys can come out next to each other in either order. -/
theorem exists_adjacent {first second : α} {others : List α} (tie : key first = key second)
    (perm : input.Perm (first :: second :: others)) :
    ∃ below above, Sorts key input (below ++ first :: second :: above) ∧
      Sorts key input (below ++ second :: first :: above) := by
  obtain ⟨sorted, rearranged, ordered⟩ := exists_output key others
  let below := sorted.filter fun other => decide (key other < key first)
  let above := sorted.filter fun other => !decide (key other < key first)
  have parts : (below ++ above).Perm others :=
    (List.filter_append_perm _ sorted).trans rearranged
  have beneath : ∀ other ∈ below, key other ≤ key first := fun other member =>
    (of_decide_eq_true (List.mem_filter.mp member).2).le
  have beyond : ∀ other ∈ above, key first ≤ key other := fun other member => by
    simpa using (List.mem_filter.mp member).2
  have arranged (one two : α) (same : key one = key first) (again : key two = key first) :
      (below ++ one :: two :: above).Pairwise fun first second => key first ≤ key second := by
    rw [List.pairwise_append, List.pairwise_cons, List.pairwise_cons]
    refine ⟨ordered.filter _, ⟨?_, ?_, ordered.filter _⟩, ?_⟩
    · rw [same]
      exact List.forall_mem_cons.mpr ⟨again.ge, beyond⟩
    · rw [again]
      exact beyond
    · intro other member
      rw [List.forall_mem_cons, List.forall_mem_cons, same, again]
      exact ⟨beneath other member, beneath other member, fun last inside =>
        (beneath other member).trans (beyond last inside)⟩
  have gathered (one two : α) : (below ++ one :: two :: above).Perm (one :: two :: others) := by
    have front : (below ++ one :: two :: above).Perm (one :: below ++ two :: above) :=
      List.perm_middle
    have next : (below ++ two :: above).Perm (two :: (below ++ above)) := List.perm_middle
    exact front.trans ((next.trans (parts.cons two)).cons one)
  refine ⟨below, above, ⟨(gathered first second).trans perm.symm, arranged _ _ rfl tie.symm⟩, ?_⟩
  exact ⟨(gathered second first).trans ((List.Perm.swap first second others).trans perm.symm),
    arranged _ _ tie.symm rfl⟩

/-- Every sort keeps the order within each source exactly if a tie inside a source is between equal
elements. -/
theorem order_kept_iff
    (monotone : ∀ place, (input.filter fun element => source element = place).Pairwise
      fun first second => key first ≤ key second) :
    (∀ output, Sorts key input output → ∀ place,
        output.filter (fun element => source element = place) =
          input.filter fun element => source element = place) ↔
      ∀ first ∈ input, ∀ second ∈ input, source first = source second → key first = key second →
        first = second := by
  classical
  constructor
  · intro kept first firstIn second secondIn same tie
    by_contra differs
    have behind : second ∈ input.erase first := (List.mem_erase_of_ne (Ne.symm differs)).mpr secondIn
    have perm : input.Perm (first :: second :: (input.erase first).erase second) :=
      (List.perm_cons_erase firstIn).trans ((List.perm_cons_erase behind).cons first)
    obtain ⟨below, above, forward, backward⟩ := exists_adjacent tie perm
    have orders := (kept _ forward (source first)).trans (kept _ backward (source first)).symm
    simp only [List.filter_append, List.filter_cons, same, decide_true, if_true] at orders
    exact differs (List.cons.inj (List.append_cancel_left orders)).1
  · intro ties output sorts place
    have alike := sorts.perm.filter fun element => decide (source element = place)
    refine alike.eq_of_pairwise ?_ (sorts.ordered.filter _) (monotone place)
    intro first second firstIn secondIn before after
    have firstIn := List.mem_filter.mp (alike.mem_iff.mp firstIn)
    have secondIn := List.mem_filter.mp secondIn
    have firstPlace : source first = place := of_decide_eq_true firstIn.2
    have secondPlace : source second = place := of_decide_eq_true secondIn.2
    exact ties first firstIn.1 second secondIn.1 (firstPlace.trans secondPlace.symm)
      (le_antisymm before after)

end Sorts

end DpcppTrace.Foundation
