import DpcppTrace.Foundation.Memory

/-! # Blocks placed in one image

An image is put together from blocks, each placed at its own start. Placing a block makes the image
as long as the block needs, fills the gap before it and replaces what was there. Blocks that share no
place can be placed in any order: each is found again where it was placed, and the image ends where
the last of them does.
-/

namespace DpcppTrace.Foundation

variable {α : Type}

/-- The elements from a start on, so many of them as there are. -/
def slice (image : List α) (start count : ℕ) : List α := (image.drop start).take count

theorem getElem?_slice (image : List α) (start count i : ℕ) :
    (slice image start count)[i]? = if i < count then image[start + i]? else none := by
  rw [slice, List.getElem?_take, List.getElem?_drop]

/-- A slice of a slice is a slice. -/
theorem slice_slice (image : List α) {start count inner length : ℕ} (inside : inner + length ≤ count) :
    slice (slice image start count) inner length = slice image (start + inner) length := by
  apply List.ext_getElem?
  intro i
  rw [getElem?_slice, getElem?_slice, getElem?_slice, Nat.add_assoc]
  split
  · rw [if_pos (by omega)]
  · rfl

structure Block (α : Type) where
  start : ℕ
  content : List α

namespace Block

def stop (block : Block α) : ℕ := block.start + block.content.length

/-- Two blocks share no place. -/
def Apart (first second : Block α) : Prop :=
  Memory.Apart first.start first.content.length second.start second.content.length

end Block

section Place

variable (fill : α)

def place (image : List α) (block : Block α) : List α :=
  let grown := image ++ List.replicate (block.stop - image.length) fill
  grown.take block.start ++ (block.content ++ grown.drop block.stop)

theorem length_place (image : List α) (block : Block α) :
    (place fill image block).length = max image.length block.stop := by
  simp only [place, Block.stop, List.length_append, List.length_take, List.length_drop,
    List.length_replicate]
  omega

theorem getElem?_place_inside (image : List α) (block : Block α) {i : ℕ}
    (inside : i < block.content.length) :
    (place fill image block)[block.start + i]? = block.content[i]? := by
  have front : ((image ++ List.replicate (block.stop - image.length) fill).take block.start).length =
      block.start := by
    simp only [Block.stop, List.length_append, List.length_take, List.length_replicate]
    omega
  rw [place, List.getElem?_append_right (by omega), front, Nat.add_sub_cancel_left,
    List.getElem?_append_left inside]

theorem getElem?_place_outside (image : List α) (block : Block α) {i : ℕ} (inside : i < image.length)
    (outside : i < block.start ∨ block.stop ≤ i) : (place fill image block)[i]? = image[i]? := by
  have front : ((image ++ List.replicate (block.stop - image.length) fill).take block.start).length =
      block.start := by
    simp only [Block.stop, List.length_append, List.length_take, List.length_replicate]
    omega
  rw [place]
  rcases outside with before | behind
  · rw [List.getElem?_append_left (by omega), List.getElem?_take_of_lt before,
      List.getElem?_append_left inside]
  · unfold Block.stop at behind
    rw [List.getElem?_append_right (by omega), front, List.getElem?_append_right (by omega),
      List.getElem?_drop, Block.stop, List.getElem?_append_left (by omega)]
    congr 1
    omega

/-- A block is found where it was placed. -/
theorem slice_place (image : List α) (block : Block α) :
    slice (place fill image block) block.start block.content.length = block.content := by
  apply List.ext_getElem?
  intro i
  rw [getElem?_slice]
  split
  · exact getElem?_place_inside fill image block ‹_›
  · exact (List.getElem?_eq_none_iff.mpr (by omega)).symm

/-- What lies apart from a block stays. -/
theorem slice_place_of_apart (image : List α) (block : Block α) {start count : ℕ}
    (inside : start + count ≤ image.length)
    (apart : Memory.Apart start count block.start block.content.length) :
    slice (place fill image block) start count = slice image start count := by
  apply List.ext_getElem?
  intro i
  rw [getElem?_slice, getElem?_slice]
  split
  · next within =>
    apply getElem?_place_outside fill image block (by omega)
    by_contra overlap
    simp only [Block.stop, not_or, not_lt, not_le] at overlap
    exact apart i within (start + i - block.start) (by omega) (by omega)
  · rfl

/-- All the blocks, in their order. -/
def placeAll (image : List α) (blocks : List (Block α)) : List α := blocks.foldl (place fill) image

/-- Where the last block ends. -/
def extent (blocks : List (Block α)) : ℕ := (blocks.map Block.stop).foldr max 0

theorem length_placeAll (image : List α) (blocks : List (Block α)) :
    (placeAll fill image blocks).length = max image.length (extent blocks) := by
  induction blocks generalizing image with
  | nil => exact (Nat.max_zero _).symm
  | cons block blocks ih =>
    rw [placeAll, List.foldl_cons, ← placeAll, ih, length_place, Nat.max_assoc]
    rfl

theorem slice_placeAll_of_apart (image : List α) (blocks : List (Block α)) {start count : ℕ}
    (inside : start + count ≤ image.length)
    (apart : ∀ block ∈ blocks, Memory.Apart start count block.start block.content.length) :
    slice (placeAll fill image blocks) start count = slice image start count := by
  induction blocks generalizing image with
  | nil => rfl
  | cons block blocks ih =>
    obtain ⟨here, later⟩ := List.forall_mem_cons.mp apart
    have grown : start + count ≤ (place fill image block).length := by
      rw [length_place]
      omega
    rw [placeAll, List.foldl_cons, ← placeAll, ih _ grown later,
      slice_place_of_apart fill image block inside here]

/-- Blocks that share no place are all found again. -/
theorem slice_placeAll (image : List α) {blocks : List (Block α)} (disjoint : blocks.Pairwise Block.Apart)
    {block : Block α} (member : block ∈ blocks) :
    slice (placeAll fill image blocks) block.start block.content.length = block.content := by
  induction blocks generalizing image with
  | nil => cases member
  | cons first blocks ih =>
    obtain ⟨apart, rest⟩ := List.pairwise_cons.mp disjoint
    rw [placeAll, List.foldl_cons, ← placeAll]
    rcases List.mem_cons.mp member with rfl | later
    · have room : block.start + block.content.length ≤ (place fill image block).length := by
        rw [length_place, Block.stop]
        omega
      rw [slice_placeAll_of_apart fill _ blocks room apart, slice_place]
    · exact ih _ rest later

end Place

end DpcppTrace.Foundation
