import Mathlib.Tactic.Common
import Mathlib.Order.Nat

/-! # Labeled machines and the rules for their runs

A machine takes one labeled step at a time; a label that is not enabled has no successor, and a
run that meets one has no end. A side condition on steps is judged in the state before each step.
Invariants are carried along every run, or along the runs whose steps all meet a side condition; a
run that does not meet one splits at an offending step.
-/

namespace DpcppTrace.Foundation

universe u v

/-- The successor of a state under a label, when the label is enabled there. -/
structure Machine (σ : Type u) (ε : Type v) where
  step : σ → ε → Option σ

namespace Machine

variable {σ : Type u} {ε : Type v} {m : Machine σ ε}

/-- Take the labels one after another. -/
def run (m : Machine σ ε) : σ → List ε → Option σ
  | start, [] => some start
  | start, label :: labels =>
    match m.step start label with
    | some next => m.run next labels
    | none => none

/-- Every step of the run satisfies `good` in the state where it is taken. -/
def Meets (m : Machine σ ε) (good : σ → ε → Prop) : σ → List ε → Prop
  | _, [] => True
  | start, label :: labels =>
    good start label ∧ ∀ next, m.step start label = some next → m.Meets good next labels

instance decidableMeets (good : σ → ε → Prop) [∀ here label, Decidable (good here label)] :
    ∀ start labels, Decidable (m.Meets good start labels)
  | _, [] => .isTrue trivial
  | start, label :: labels =>
    match stepped : m.step start label with
    | none => decidable_of_iff (good start label) (by simp [Meets, stepped])
    | some next =>
      have := decidableMeets good next labels
      decidable_of_iff (good start label ∧ m.Meets good next labels) (by simp [Meets, stepped])

theorem run_cons {start final : σ} {label : ε} {labels : List ε} :
    m.run start (label :: labels) = some final ↔
      ∃ next, m.step start label = some next ∧ m.run next labels = some final := by
  rcases stepped : m.step start label with _ | next <;> simp [run, stepped]

theorem meets_cons {good : σ → ε → Prop} {start next : σ} {label : ε} {labels : List ε}
    (stepped : m.step start label = some next) :
    m.Meets good start (label :: labels) ↔ good start label ∧ m.Meets good next labels := by
  simp [Meets, stepped]

theorem Meets.front {good : σ → ε → Prop} {start : σ} {before after : List ε}
    (meets : m.Meets good start (before ++ after)) : m.Meets good start before := by
  induction before generalizing start with
  | nil => trivial
  | cons label before ih => exact ⟨meets.1, fun next stepped => ih (meets.2 next stepped)⟩

theorem Meets.imp {good better : σ → ε → Prop} (stronger : ∀ here label, good here label →
    better here label) {start : σ} {labels : List ε} (meets : m.Meets good start labels) :
    m.Meets better start labels := by
  induction labels generalizing start with
  | nil => trivial
  | cons label labels ih =>
    exact ⟨stronger start label meets.1, fun next stepped => ih (meets.2 next stepped)⟩

/-- Two side conditions that agree wherever an invariant holds are met by the same runs. -/
theorem meets_congr {holds : σ → Prop} {allowed : ε → Prop} {good better : σ → ε → Prop}
    (keeps : ∀ here label next, holds here → allowed label → m.step here label = some next →
      holds next)
    (agree : ∀ here label, holds here → allowed label → (good here label ↔ better here label))
    {start : σ} (initially : holds start) {labels : List ε}
    (restricted : ∀ label ∈ labels, allowed label) :
    m.Meets good start labels ↔ m.Meets better start labels := by
  induction labels generalizing start with
  | nil => exact Iff.rfl
  | cons label labels ih =>
    obtain ⟨first, later⟩ := List.forall_mem_cons.mp restricted
    refine and_congr (agree start label initially first) (forall_congr' fun next => ?_)
    exact imp_congr_right fun stepped => ih (keeps start label next initially first stepped) later

/-- What every step keeps holds at the end of a run that starts with it. -/
theorem invariant {holds : σ → Prop}
    (keeps : ∀ here label next, holds here → m.step here label = some next → holds next)
    {start final : σ} {labels : List ε} (ran : m.run start labels = some final)
    (initially : holds start) : holds final := by
  induction labels generalizing start with
  | nil =>
    obtain rfl := Option.some.inj ran
    exact initially
  | cons label labels ih =>
    obtain ⟨next, stepped, rest⟩ := run_cons.mp ran
    exact ih rest (keeps start label next initially stepped)

/-- The same when only the steps that meet the side condition keep the property. -/
theorem invariant_of_meets {holds : σ → Prop} {good : σ → ε → Prop}
    (keeps : ∀ here label next, holds here → good here label → m.step here label = some next →
      holds next)
    {start final : σ} {labels : List ε} (ran : m.run start labels = some final)
    (meets : m.Meets good start labels) (initially : holds start) : holds final := by
  induction labels generalizing start with
  | nil =>
    obtain rfl := Option.some.inj ran
    exact initially
  | cons label labels ih =>
    obtain ⟨next, stepped, rest⟩ := run_cons.mp ran
    obtain ⟨here, later⟩ := (meets_cons stepped).mp meets
    exact ih rest later (keeps start label next initially here stepped)

/-- The property holds all along a run exactly if its steps meet the side condition, when the steps
that do not break it. -/
theorem invariant_iff_meets {holds : σ → Prop} {good : σ → ε → Prop}
    (keeps : ∀ here label next, holds here → good here label → m.step here label = some next →
      holds next)
    (breaks : ∀ here label, holds here → ¬good here label →
      ∃ next, m.step here label = some next ∧ ¬holds next)
    {start : σ} (initially : holds start) (labels : List ε) :
    (∀ sent final, sent <+: labels → m.run start sent = some final → holds final) ↔
      m.Meets good start labels := by
  constructor
  · intro always
    induction labels generalizing start with
    | nil => trivial
    | cons label labels ih =>
      refine ⟨?_, fun next stepped => ?_⟩
      · by_contra offends
        obtain ⟨next, stepped, broken⟩ := breaks start label initially offends
        have ran : m.run start [label] = some next := run_cons.mpr ⟨next, stepped, rfl⟩
        exact broken (always [label] next ⟨labels, rfl⟩ ran)
      · have later sent final (front : sent <+: labels) (ran : m.run next sent = some final) :
            holds final :=
          always (label :: sent) final (List.cons_prefix_cons.mpr ⟨rfl, front⟩)
            (run_cons.mpr ⟨next, stepped, ran⟩)
        exact ih (later [] next List.nil_prefix rfl) later
  · rintro meets sent final ⟨later, rfl⟩ ran
    exact invariant_of_meets keeps ran meets.front initially

/-- A run that does not meet a side condition contains a step that violates it. -/
theorem exists_violation {good : σ → ε → Prop} {start final : σ} {labels : List ε}
    (ran : m.run start labels = some final) (fails : ¬m.Meets good start labels) :
    ∃ before label after here next, labels = before ++ label :: after ∧
      m.run start before = some here ∧ ¬good here label ∧ m.step here label = some next ∧
      m.run next after = some final := by
  induction labels generalizing start with
  | nil => exact absurd trivial fails
  | cons label labels ih =>
    obtain ⟨next, stepped, rest⟩ := run_cons.mp ran
    rw [meets_cons stepped, not_and_or] at fails
    rcases fails with offends | later
    · exact ⟨[], label, labels, start, next, rfl, rfl, offends, stepped, rest⟩
    · obtain ⟨before, bad, after, here, there, rfl, reached, offends, taken, left⟩ := ih rest later
      exact ⟨label :: before, bad, after, here, there, rfl, run_cons.mpr ⟨next, stepped, reached⟩,
        offends, taken, left⟩

end Machine

end DpcppTrace.Foundation
