import Mathlib.Data.List.Basic
import Mathlib.Logic.Function.Basic

/-! # Dictionaries in key order

A dictionary keeps one item for each key, in the order of the keys, so iterating over it meets the
smaller keys first. Setting a key puts its item in place or replaces the one it has. A table without
an order keeps what was last written under a name.
-/

namespace DpcppTrace.Foundation

universe u v

/-- Items in increasing order of their keys. -/
structure Dictionary (κ : Type u) (ν : Type v) [LT κ] where
  items : List (κ × ν)
  sorted : items.Pairwise fun first second => first.1 < second.1

namespace Dictionary

variable {κ : Type u} {ν : Type v} [LE κ] [LT κ] [Std.LawfulOrderLT κ]

def empty : Dictionary κ ν := ⟨[], List.Pairwise.nil⟩

/-- A key has one item. -/
theorem value_unique {dictionary : Dictionary κ ν} {first second : κ × ν}
    (firstIn : first ∈ dictionary.items) (secondIn : second ∈ dictionary.items)
    (same : first.1 = second.1) : first = second := by
  by_contra differs
  have ordered := dictionary.sorted
  rw [List.pairwise_iff_getElem] at ordered
  obtain ⟨i, inside, rfl⟩ := List.getElem_of_mem firstIn
  obtain ⟨j, bounded, rfl⟩ := List.getElem_of_mem secondIn
  rcases Nat.lt_trichotomy i j with before | rfl | after
  · have below := ordered i j inside bounded before
    rw [same] at below
    exact Std.lt_irrefl below
  · exact differs rfl
  · have below := ordered j i bounded inside after
    rw [same] at below
    exact Std.lt_irrefl below

/-- The value of a key. -/
def find [DecidableEq κ] (dictionary : Dictionary κ ν) (key : κ) : Option ν :=
  (dictionary.items.find? fun item => item.1 = key).map (·.2)

theorem find_eq_some [DecidableEq κ] {dictionary : Dictionary κ ν} {key : κ} {value : ν} :
    dictionary.find key = some value ↔ (key, value) ∈ dictionary.items := by
  rw [find, Option.map_eq_some_iff]
  constructor
  · rintro ⟨⟨other, _⟩, found, rfl⟩
    have same : other = key := by simpa using List.find?_some found
    rw [← same]
    exact List.mem_of_find?_eq_some found
  · intro member
    rcases found : dictionary.items.find? (fun item => item.1 = key) with _ | item
    · have missing := List.find?_eq_none.mp found (key, value) member
      simp at missing
    · have same : item.1 = key := by simpa using List.find?_some found
      exact ⟨item, found, by
        rw [value_unique (List.mem_of_find?_eq_some found) member same]⟩

variable [Std.IsLinearOrder κ]

/-- The first item with a property has the smallest key. -/
theorem le_of_find?_eq_some {dictionary : Dictionary κ ν} {holds : κ × ν → Bool} {first : κ × ν}
    (found : dictionary.items.find? holds = some first) {other : κ × ν}
    (member : other ∈ dictionary.items) (fits : holds other = true) :
    first.1 ≤ other.1 := by
  obtain ⟨-, before, after, split, earlier⟩ := List.find?_eq_some_iff_append.mp found
  have ordered := dictionary.sorted
  rw [split] at member ordered
  rcases List.mem_append.mp member with earlierIn | member
  · have missed := earlier other earlierIn
    rw [fits] at missed
    exact absurd missed Bool.false_ne_true
  · rcases List.mem_cons.mp member with rfl | later
    · exact Std.le_refl _
    · exact Std.le_of_lt ((List.pairwise_cons.mp (List.pairwise_append.mp ordered).2.1).1 other later)

variable [DecidableLT κ]

/-- The items with the key's item put in place. -/
def insertItem (key : κ) (value : ν) : List (κ × ν) → List (κ × ν)
  | [] => [(key, value)]
  | item :: items =>
    if key < item.1 then (key, value) :: item :: items
    else if item.1 < key then item :: insertItem key value items
    else (key, value) :: items

theorem mem_insertItem {key : κ} {value : ν} {items : List (κ × ν)}
    (sorted : items.Pairwise fun first second => first.1 < second.1) {item : κ × ν} :
    item ∈ insertItem key value items ↔ item = (key, value) ∨ item.1 ≠ key ∧ item ∈ items := by
  induction items with
  | nil => simp [insertItem]
  | cons head items ih =>
    obtain ⟨first, rest⟩ := List.pairwise_cons.mp sorted
    rw [insertItem]
    split
    · rename_i below
      have later : ∀ other ∈ head :: items, other.1 ≠ key := by
        rintro other member rfl
        rcases List.mem_cons.mp member with rfl | member
        · exact Std.lt_irrefl below
        · exact Std.lt_irrefl (Std.lt_trans below (first other member))
      rw [List.mem_cons]
      exact or_congr_right ⟨fun member => ⟨later item member, member⟩, And.right⟩
    · split
      · rename_i above
        have differs : head.1 ≠ key := by
          intro same
          rw [same] at above
          exact Std.lt_irrefl above
        rw [List.mem_cons, ih rest, List.mem_cons]
        constructor
        · rintro (rfl | rfl | ⟨other, member⟩)
          · exact .inr ⟨differs, .inl rfl⟩
          · exact .inl rfl
          · exact .inr ⟨other, .inr member⟩
        · rintro (rfl | ⟨other, rfl | member⟩)
          · exact .inr (.inl rfl)
          · exact .inl rfl
          · exact .inr (.inr ⟨other, member⟩)
      · rename_i notBelow notAbove
        have same : head.1 = key := by
          rcases Std.lt_trichotomy key head.1 with below | equal | above
          · exact absurd below notBelow
          · exact equal.symm
          · exact absurd above notAbove
        have later : ∀ other ∈ items, other.1 ≠ key := by
          rintro other member rfl
          have beyond := first other member
          rw [same] at beyond
          exact Std.lt_irrefl beyond
        rw [List.mem_cons, List.mem_cons]
        refine or_congr_right ⟨fun member => ⟨later item member, .inr member⟩, ?_⟩
        rintro ⟨differs, rfl | member⟩
        · exact absurd same differs
        · exact member

theorem sorted_insertItem {key : κ} {value : ν} {items : List (κ × ν)}
    (sorted : items.Pairwise fun first second => first.1 < second.1) :
    (insertItem key value items).Pairwise fun first second => first.1 < second.1 := by
  induction items with
  | nil => exact List.pairwise_singleton _ _
  | cons head items ih =>
    obtain ⟨first, rest⟩ := List.pairwise_cons.mp sorted
    rw [insertItem]
    split
    · rename_i below
      refine List.pairwise_cons.mpr ⟨fun other member => ?_, sorted⟩
      rcases List.mem_cons.mp member with rfl | member
      · exact below
      · exact Std.lt_trans below (first other member)
    · split
      · rename_i above
        refine List.pairwise_cons.mpr ⟨fun other member => ?_, ih rest⟩
        rcases (mem_insertItem rest).mp member with rfl | ⟨-, member⟩
        · exact above
        · exact first other member
      · rename_i notBelow notAbove
        have same : head.1 = key := by
          rcases Std.lt_trichotomy key head.1 with below | equal | above
          · exact absurd below notBelow
          · exact equal.symm
          · exact absurd above notAbove
        exact List.pairwise_cons.mpr ⟨fun other member => same ▸ first other member, rest⟩

def set (dictionary : Dictionary κ ν) (key : κ) (value : ν) : Dictionary κ ν :=
  ⟨insertItem key value dictionary.items, sorted_insertItem dictionary.sorted⟩

theorem mem_set {dictionary : Dictionary κ ν} {key : κ} {value : ν} {item : κ × ν} :
    item ∈ (dictionary.set key value).items ↔
      item = (key, value) ∨ item.1 ≠ key ∧ item ∈ dictionary.items :=
  mem_insertItem dictionary.sorted

end Dictionary

section Tables

variable {κ : Type u} {ν : Type v} [DecidableEq κ]

/-- A table after writes to some names. -/
def writeAll (table : κ → Option ν) (writes : List (κ × ν)) : κ → Option ν :=
  writes.foldl (fun table write => Function.update table write.1 (some write.2)) table

theorem writeAll_of_not_mem {table : κ → Option ν} {writes : List (κ × ν)} {name : κ}
    (missing : name ∉ writes.map Prod.fst) : writeAll table writes name = table name := by
  induction writes generalizing table with
  | nil => rfl
  | cons write writes ih =>
    obtain ⟨other, later⟩ := not_or.mp (mt List.mem_cons.mpr missing)
    rw [writeAll, List.foldl_cons, ← writeAll, ih later, Function.update_of_ne other]

theorem writeAll_of_mem {table : κ → Option ν} {writes : List (κ × ν)}
    (distinct : (writes.map Prod.fst).Nodup) {write : κ × ν} (member : write ∈ writes) :
    writeAll table writes write.1 = some write.2 := by
  induction writes generalizing table with
  | nil => cases member
  | cons first writes ih =>
    obtain ⟨fresh, distinct⟩ := List.nodup_cons.mp distinct
    rw [writeAll, List.foldl_cons, ← writeAll]
    rcases List.mem_cons.mp member with rfl | later
    · rw [writeAll_of_not_mem fresh, Function.update_self]
    · exact ih distinct later

end Tables

end DpcppTrace.Foundation
