import Mathlib.Data.List.Nodup
import Mathlib.Logic.Function.Basic

/-! # Slots that are filled at most once

A record of slots takes items one after another, each for the slot of its key, and refuses an item
whose slot has a content. What can be put together from a list of items does not depend on their
order: it is refused exactly when two items share a slot, and otherwise each slot has its item.
-/

namespace DpcppTrace.Foundation

universe u v w

/-- Records with a slot for each key. The law is about the items that can be told from no item. -/
structure Slots (σ : Type u) (ι : Type v) (κ : Type w) [DecidableEq κ] where
  key : ι → κ
  content : σ → κ → Option ι
  put : σ → ι → σ
  proper : ι → Prop
  content_put : ∀ state item, proper item →
    content (put state item) = Function.update (content state) (key item) (some item)

namespace Slots

variable {σ : Type u} {ι : Type v} {κ : Type w} [DecidableEq κ] (slots : Slots σ ι κ)

/-- Put the items one after another, each into a slot without a content. -/
def fill : σ → List ι → Option σ
  | state, [] => some state
  | state, item :: rest =>
    if (slots.content state (slots.key item)).isNone then fill (slots.put state item) rest else none

variable {slots} {state final : σ} {items : List ι}

theorem content_put_self {item : ι} (proper : slots.proper item) :
    slots.content (slots.put state item) (slots.key item) = some item := by
  rw [slots.content_put state item proper, Function.update_self]

theorem content_put_other {item : ι} (proper : slots.proper item) {other : κ}
    (differs : other ≠ slots.key item) :
    slots.content (slots.put state item) other = slots.content state other := by
  rw [slots.content_put state item proper, Function.update_of_ne differs]

/-- Filling succeeds when no two items share a slot and the slots had no content before. -/
theorem fill_isSome_iff (proper : ∀ item ∈ items, slots.proper item) :
    (slots.fill state items).isSome ↔
      (items.map slots.key).Nodup ∧ ∀ item ∈ items, slots.content state (slots.key item) = none := by
  induction items generalizing state with
  | nil => simp [fill]
  | cons item rest ih =>
    obtain ⟨here, later⟩ := List.forall_mem_cons.mp proper
    rw [fill, List.map_cons, List.nodup_cons, List.forall_mem_cons]
    by_cases free : slots.content state (slots.key item) = none
    · rw [if_pos (by simp [free]), ih later]
      constructor
      · rintro ⟨distinct, empty⟩
        have alone : slots.key item ∉ rest.map slots.key := by
          intro shared
          obtain ⟨other, member, same⟩ := List.mem_map.mp shared
          have taken := empty other member
          rw [same, content_put_self here] at taken
          cases taken
        refine ⟨⟨alone, distinct⟩, free, fun other member => ?_⟩
        have differs : slots.key other ≠ slots.key item := fun same =>
          alone (List.mem_map.mpr ⟨other, member, same⟩)
        rw [← content_put_other here differs]
        exact empty other member
      · rintro ⟨⟨alone, distinct⟩, -, empty⟩
        refine ⟨distinct, fun other member => ?_⟩
        have differs : slots.key other ≠ slots.key item := fun same =>
          alone (List.mem_map.mpr ⟨other, member, same⟩)
        rw [content_put_other here differs]
        exact empty other member
    · rw [if_neg (by simpa [Option.isNone_iff_eq_none] using free)]
      simp [free]

/-- Afterwards a slot has its item, or what it had before. -/
theorem content_of_fill (proper : ∀ item ∈ items, slots.proper item)
    (filled : slots.fill state items = some final) (key : κ) (item : ι) :
    slots.content final key = some item ↔
      (item ∈ items ∧ slots.key item = key) ∨ slots.content state key = some item := by
  induction items generalizing state with
  | nil =>
    obtain rfl := Option.some.inj filled
    simp
  | cons first rest ih =>
    obtain ⟨here, later⟩ := List.forall_mem_cons.mp proper
    rw [fill] at filled
    split_ifs at filled with free
    rw [Option.isNone_iff_eq_none] at free
    rw [ih later filled, List.mem_cons]
    by_cases own : key = slots.key first
    · subst own
      rw [content_put_self here, free]
      simp only [Option.some.injEq, reduceCtorEq, or_false]
      constructor
      · rintro (⟨member, same⟩ | rfl)
        · exact ⟨.inr member, same⟩
        · exact ⟨.inl rfl, rfl⟩
      · rintro ⟨rfl | member, same⟩
        · exact .inr rfl
        · exact .inl ⟨member, same⟩
    · rw [content_put_other here own]
      constructor
      · rintro (⟨member, same⟩ | before)
        · exact .inl ⟨.inr member, same⟩
        · exact .inr before
      · rintro (⟨rfl | member, same⟩ | before)
        · exact absurd same.symm own
        · exact .inl ⟨member, same⟩
        · exact .inr before

end Slots

end DpcppTrace.Foundation
