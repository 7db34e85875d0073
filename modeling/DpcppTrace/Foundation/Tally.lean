import DpcppTrace.Foundation.Dictionary
import Mathlib.Algebra.BigOperators.Group.List.Basic

/-! # Accumulators kept by key

A tally runs through items and keeps one accumulator for each key that occurs. What it finds under a
key is what the items of that key alone accumulate, in their order. The same is true of any state whose
steps concern one key each.
-/

namespace DpcppTrace.Foundation

universe u v w x

section Keyed

variable {σ : Type u} {ε : Type v} {κ : Type w} {ν : Type x} [DecidableEq κ]

/-- If a step changes what is seen under its own key only, as it is seen there, then a run leaves under
a key what the steps of that key leave there, in their order. -/
theorem view_foldl {step : σ → ε → σ} {key : ε → κ} {view : σ → κ → ν} {take : ν → ε → ν}
    {inv : σ → Prop} (keeps : ∀ state event, inv state → inv (step state event))
    (own : ∀ state event, inv state → view (step state event) (key event) =
      take (view state (key event)) event)
    (others : ∀ state event other, inv state → other ≠ key event →
      view (step state event) other = view state other)
    {start : σ} (holds : inv start) (events : List ε) (wanted : κ) :
    view (events.foldl step start) wanted =
      (events.filter fun event => key event = wanted).foldl take (view start wanted) := by
  induction events generalizing start with
  | nil => rfl
  | cons event events ih =>
    rw [List.foldl_cons, ih (keeps start event holds), List.filter_cons]
    by_cases same : key event = wanted
    · subst same
      simp [own start event holds]
    · rw [if_neg (by simpa using same), others start event wanted holds (Ne.symm same)]

end Keyed

namespace Dictionary

variable {α : Type w} {κ : Type u} {ν : Type v} [LE κ] [LT κ] [Std.LawfulOrderLT κ]
  [Std.IsLinearOrder κ] [DecidableLT κ] [DecidableEq κ]

theorem find_set (dictionary : Dictionary κ ν) (key other : κ) (value : ν) :
    (dictionary.set key value).find other =
      if other = key then some value else dictionary.find other := by
  apply Option.ext
  intro found
  rw [find_eq_some, mem_set]
  split
  · rename_i same
    subst same
    simp [eq_comm]
  · rename_i differs
    rw [find_eq_some]
    simp [differs]

/-- One item: the accumulator of its key, or a fresh one, takes it. -/
def count (key : α → κ) (fresh : ν) (take : ν → α → ν) (dictionary : Dictionary κ ν) (item : α) :
    Dictionary κ ν :=
  dictionary.set (key item) (take ((dictionary.find (key item)).getD fresh) item)

/-- All items, one after another. -/
def tally (key : α → κ) (fresh : ν) (take : ν → α → ν) (dictionary : Dictionary κ ν)
    (items : List α) : Dictionary κ ν :=
  items.foldl (count key fresh take) dictionary

/-- Under a key stands what the items of that key accumulate. -/
theorem find_tally (key : α → κ) (fresh : ν) (take : ν → α → ν) (dictionary : Dictionary κ ν)
    (items : List α) (wanted : κ) :
    (tally key fresh take dictionary items).find wanted =
      (items.filter fun item => key item = wanted).foldl
        (fun found item => some (take (found.getD fresh) item)) (dictionary.find wanted) := by
  induction items generalizing dictionary with
  | nil => rfl
  | cons item items ih =>
    rw [tally, List.foldl_cons, ← tally, ih, count, find_set, List.filter_cons]
    by_cases own : key item = wanted
    · subst own
      simp
    · rw [if_neg (Ne.symm own), if_neg (by simpa using own)]

/-- What a nonempty list accumulates from nothing. -/
theorem foldl_some (fresh : ν) (take : ν → α → ν) (start : ν) (items : List α) :
    items.foldl (fun found item => some (take (found.getD fresh) item)) (some start) =
      some (items.foldl take start) := by
  induction items generalizing start with
  | nil => rfl
  | cons item items ih => exact ih (take start item)

/-- In an empty tally, a key that occurs has the accumulator of its items and no other key has one. -/
theorem find_tally_empty (key : α → κ) (fresh : ν) (take : ν → α → ν) (items : List α)
    (wanted : κ) :
    (tally key fresh take empty items).find wanted =
      let own := items.filter fun item => key item = wanted
      if own = [] then none else some (own.foldl take fresh) := by
  have nothing : (empty : Dictionary κ ν).find wanted = none := rfl
  rw [find_tally, nothing]
  dsimp only
  rcases items.filter (fun item => key item = wanted) with _ | ⟨item, more⟩
  · rfl
  · rw [if_neg (List.cons_ne_nil _ _)]
    exact foldl_some fresh take (take fresh item) more

end Dictionary

end DpcppTrace.Foundation
