import DpcppTrace.Foundation.Machine
import Mathlib.Data.Set.Basic
import Mathlib.Logic.Function.Basic

/-! # Threads that take turns

Each thread has a state of its own, and all of them share one. A turn is a step of one thread, which
leaves the states of the others alone, or a change of the shared state from outside. What a thread
does in a schedule are its labels, in their order; any merge of the threads' labels is a schedule.

A thread is reasoned about alone: from what it is still to do, its own state and the shared one, its
next step is possible, and no other turn takes away what it relies on.
-/

namespace DpcppTrace.Foundation

universe u v w x y z

namespace Machine

variable {σ : Type u} {ε : Type v} {α : Type w} {β : Type x} {m : Machine σ ε}

/-- All that the steps of a run may touch. -/
def touched (m : Machine σ ε) (touches : σ → ε → Set α) : σ → List ε → Set α
  | _, [] => ∅
  | start, label :: labels =>
    touches start label ∪
      match m.step start label with
      | some next => m.touched touches next labels
      | none => ∅

end Machine

/-- What one thread does with a label, from its own state and the shared one, and what may happen to
the shared one besides. -/
structure Interleaving (ι : Type u) (ℓ : Type v) (ω : Type w) (ε : Type x) (κ : Type y) where
  step : ι → ε → ℓ → ω → Option (ℓ × ω)
  outside : κ → ω → ω

/-- The states of all threads, and the shared one. -/
structure Together (ι : Type u) (ℓ : Type v) (ω : Type w) where
  own : ι → ℓ
  shared : ω

inductive Turn (ι : Type u) (ε : Type x) (κ : Type y) where
  | step (thread : ι) (label : ε)
  | outside (change : κ)

namespace Interleaving

variable {ι : Type u} {ℓ : Type v} {ω : Type w} {ε : Type x} {κ : Type y} [DecidableEq ι]

/-- All threads together. -/
def machine (threads : Interleaving ι ℓ ω ε κ) : Machine (Together ι ℓ ω) (Turn ι ε κ) where
  step here
    | .step thread label =>
      (threads.step thread label (here.own thread) here.shared).map fun next =>
        ⟨Function.update here.own thread next.1, next.2⟩
    | .outside change => some { here with shared := threads.outside change here.shared }

/-- What a thread does in a schedule. -/
def labelsOf (thread : ι) : List (Turn ι ε κ) → List ε
  | [] => []
  | .step other label :: rest =>
    if other = thread then label :: labelsOf thread rest else labelsOf thread rest
  | .outside _ :: rest => labelsOf thread rest

section Labels

variable {thread other : ι} {label : ε} {rest : List (Turn ι ε κ)}

@[simp] theorem labelsOf_own :
    labelsOf thread (.step thread label :: rest) = label :: labelsOf thread rest := if_pos rfl

private theorem labelsOf_other (differs : other ≠ thread) :
    labelsOf thread (.step other label :: rest) = labelsOf thread rest := if_neg differs

end Labels

/-- What holds of a thread, its remaining labels, its own state and the shared one stays when others
take their turns. -/
structure Stable (threads : Interleaving ι ℓ ω ε κ) (holds : ι → List ε → ℓ → ω → Prop) : Prop where
  others : ∀ thread other label rest more own theirs shared next, other ≠ thread →
    holds thread rest own shared → holds other (label :: more) theirs shared →
      threads.step other label theirs shared = some next → holds thread rest own next.2
  outside : ∀ thread rest own shared change, holds thread rest own shared →
    holds thread rest own (threads.outside change shared)

section Rules

variable {threads : Interleaving ι ℓ ω ε κ} {holds : ι → List ε → ℓ → ω → Prop}
  {left : ι → List ε} {here final : Together ι ℓ ω} {schedule : List (Turn ι ε κ)}

/-- A step of one thread leaves every thread with what it still has to do. -/
theorem Stable.after (stable : threads.Stable holds) {thread : ι} {label : ε}
    {rest : List (Turn ι ε κ)} {next : ℓ × ω}
    (all : ∀ each, holds each (labelsOf each (.step thread label :: rest) ++ left each)
      (here.own each) here.shared)
    (stepped : threads.step thread label (here.own thread) here.shared = some next)
    (kept : holds thread (labelsOf thread rest ++ left thread) next.1 next.2) (each : ι) :
    holds each (labelsOf each rest ++ left each) (Function.update here.own thread next.1 each)
      next.2 := by
  rcases eq_or_ne each thread with rfl | differs
  · rw [Function.update_self]
    exact kept
  · have before := all each
    have mine := all thread
    rw [labelsOf_other differs.symm] at before
    rw [labelsOf_own, List.cons_append] at mine
    rw [Function.update_of_ne differs]
    exact stable.others each thread label _ _ _ _ _ next differs.symm before mine stepped

/-- What a possible next step of a thread implies holds at every turn of a run, and in the end every
thread stands where its labels have brought it. -/
theorem meets_of_run (stable : threads.Stable holds)
    {good : Together ι ℓ ω → Turn ι ε κ → Prop}
    (keeps : ∀ (here : Together ι ℓ ω) thread label rest next,
      holds thread (label :: rest) (here.own thread) here.shared →
      threads.step thread label (here.own thread) here.shared = some next →
        good here (.step thread label) ∧ holds thread rest next.1 next.2)
    (outside : ∀ here change, good here (.outside change))
    (ran : threads.machine.run here schedule = some final)
    (all : ∀ each, holds each (labelsOf each schedule ++ left each) (here.own each) here.shared) :
    threads.machine.Meets good here schedule ∧
      ∀ each, holds each (left each) (final.own each) final.shared := by
  induction schedule generalizing here with
  | nil =>
    obtain rfl := Option.some.inj ran
    exact ⟨trivial, all⟩
  | cons turn rest ih =>
    obtain ⟨next, stepped, later⟩ := Machine.run_cons.mp ran
    cases turn with
    | outside change =>
      obtain rfl := Option.some.inj stepped
      obtain ⟨meets, ends⟩ := ih later fun each => stable.outside _ _ _ _ change (all each)
      exact ⟨(Machine.meets_cons rfl).mpr ⟨outside here change, meets⟩, ends⟩
    | step thread label =>
      obtain ⟨after, taken, rfl⟩ := Option.map_eq_some_iff.mp stepped
      have mine := all thread
      rw [labelsOf_own, List.cons_append] at mine
      obtain ⟨here_good, kept⟩ := keeps here thread label _ after mine taken
      obtain ⟨meets, ends⟩ := ih later fun each => stable.after all taken kept each
      exact ⟨(Machine.meets_cons stepped).mpr ⟨here_good, meets⟩, ends⟩

/-- In the end of a run every thread stands where its labels have brought it. -/
theorem holds_of_run (stable : threads.Stable holds)
    (keeps : ∀ (here : Together ι ℓ ω) thread label rest next,
      holds thread (label :: rest) (here.own thread) here.shared →
      threads.step thread label (here.own thread) here.shared = some next →
        holds thread rest next.1 next.2)
    (ran : threads.machine.run here schedule = some final)
    (all : ∀ each, holds each (labelsOf each schedule ++ left each) (here.own each) here.shared)
    (each : ι) : holds each (left each) (final.own each) final.shared := by
  have both : threads.machine.Meets (fun _ _ => True) here schedule ∧
      ∀ each, holds each (left each) (final.own each) final.shared :=
    meets_of_run stable (fun here thread label rest next now stepped =>
      ⟨trivial, keeps here thread label rest next now stepped⟩) (fun _ _ => trivial) ran all
  exact both.2 each

end Rules

end Interleaving

end DpcppTrace.Foundation
