import Mathlib.Tactic.Common

/-! # Computations whose effects stay when they throw

A computation on a file system changes it step by step, and an exception leaves the changes made so
far in place. What a computation leaves behind, what it never touches, whether it returns, and what
it can return are decided along sequences and loops.
-/

namespace DpcppTrace.Foundation

universe u

variable {σ ε α β γ : Type u}

/-- The state left behind, whether the computation returned or threw. -/
def leftBehind (action : EStateM ε σ α) (state : σ) : σ :=
  match action.run state with
  | .ok _ next => next
  | .error _ next => next

/-- The computation touches nothing of what `view` sees, whether it returns or throws. -/
def Keeps (view : σ → γ) (action : EStateM ε σ α) : Prop :=
  ∀ state, view (leftBehind action state) = view state

/-- Whatever the state, the computation returns a good value. -/
def Reaches (good : α → Prop) (action : EStateM ε σ α) : Prop :=
  ∀ state, ∃ value next, action.run state = .ok value next ∧ good value

/-- Whatever the state, the computation throws. -/
def Throws (action : EStateM ε σ α) : Prop :=
  ∀ state, ∃ fault next, action.run state = .error fault next

/-- Every value that the computation returns is good. -/
def Gives (good : α → Prop) (action : EStateM ε σ α) : Prop :=
  ∀ state value next, action.run state = .ok value next → good value

theorem run_bind_ok {action : EStateM ε σ α} {state next : σ} {value : α}
    (ran : action.run state = .ok value next) (rest : α → EStateM ε σ β) :
    (action >>= rest).run state = (rest value).run next := by
  change EStateM.bind action rest state = _
  rw [EStateM.bind, show action state = .ok value next from ran]
  rfl

theorem run_bind_error {action : EStateM ε σ α} {state next : σ} {fault : ε}
    (ran : action.run state = .error fault next) (rest : α → EStateM ε σ β) :
    (action >>= rest).run state = .error fault next := by
  change EStateM.bind action rest state = _
  rw [EStateM.bind, show action state = .error fault next from ran]

/-- What is left behind when the first part throws. -/
theorem Throws.leftBehind_bind {action : EStateM ε σ α} (throws : Throws action)
    (rest : α → EStateM ε σ β) (state : σ) :
    leftBehind (action >>= rest) state = leftBehind action state := by
  obtain ⟨fault, next, ran⟩ := throws state
  rw [leftBehind, leftBehind, run_bind_error ran, ran]

/-- What is left behind when the first part returns. -/
theorem Reaches.leftBehind_bind {good : α → Prop} {action : EStateM ε σ α}
    (reaches : Reaches good action) (rest : α → EStateM ε σ β) (state : σ) :
    ∃ value, good value ∧
      leftBehind (action >>= rest) state = leftBehind (rest value) (leftBehind action state) := by
  obtain ⟨value, next, ran, holds⟩ := reaches state
  have first : leftBehind action state = next := by
    rw [leftBehind, ran]
  refine ⟨value, holds, ?_⟩
  rw [leftBehind, run_bind_ok ran, first]
  rfl

/-! ## Sequences -/

section Sequences

variable {view : σ → γ} {action : EStateM ε σ α} {rest : α → EStateM ε σ β}

theorem keeps_pure (value : α) : Keeps view (pure value : EStateM ε σ α) := fun _ => rfl

theorem keeps_throw (fault : ε) : Keeps view (throw fault : EStateM ε σ α) := fun _ => rfl

theorem keeps_modify {change : σ → σ} (same : ∀ state, view (change state) = view state) :
    Keeps view (modify change : EStateM ε σ PUnit) := fun state => same state

theorem Keeps.bind (first : Keeps view action) (then_ : ∀ value, Keeps view (rest value)) :
    Keeps view (action >>= rest) := by
  intro state
  have here := first state
  rcases ran : action.run state with ⟨value, next⟩ | ⟨fault, next⟩
  · rw [leftBehind, ran] at here
    rw [leftBehind, run_bind_ok ran, ← leftBehind, then_ value, here]
  · rw [leftBehind, ran] at here
    rw [leftBehind, run_bind_error ran, here]

theorem reaches_pure {good : α → Prop} {value : α} (holds : good value) :
    Reaches good (pure value : EStateM ε σ α) :=
  fun state => ⟨value, state, rfl, holds⟩

theorem reaches_modify (change : σ → σ) :
    Reaches (fun _ => True) (modify change : EStateM ε σ PUnit) :=
  fun state => ⟨⟨⟩, change state, rfl, trivial⟩

theorem Reaches.bind {before : α → Prop} {good : β → Prop} (first : Reaches before action)
    (then_ : ∀ value, before value → Reaches good (rest value)) :
    Reaches good (action >>= rest) := by
  intro state
  obtain ⟨value, next, ran, holds⟩ := first state
  rw [run_bind_ok ran]
  exact then_ value holds next

theorem throws_throw (fault : ε) : Throws (throw fault : EStateM ε σ α) :=
  fun state => ⟨fault, state, rfl⟩

theorem Throws.bind (throws : Throws action) (rest : α → EStateM ε σ β) :
    Throws (action >>= rest) := by
  intro state
  obtain ⟨fault, next, ran⟩ := throws state
  exact ⟨fault, next, run_bind_error ran rest⟩

theorem Throws.after {before : α → Prop} (first : Reaches before action)
    (throws : ∀ value, before value → Throws (rest value)) : Throws (action >>= rest) := by
  intro state
  obtain ⟨value, next, ran, holds⟩ := first state
  rw [run_bind_ok ran]
  exact throws value holds next

theorem gives_pure {good : α → Prop} {value : α} (holds : good value) :
    Gives good (pure value : EStateM ε σ α) := by
  rintro state result next ⟨⟩
  exact holds

theorem gives_throw {good : α → Prop} (fault : ε) : Gives good (throw fault : EStateM ε σ α) :=
  fun _ _ _ ran => nomatch ran

theorem gives_true (action : EStateM ε σ α) : Gives (fun _ => True) action :=
  fun _ _ _ _ => trivial

theorem Gives.bind {before : α → Prop} {good : β → Prop} (first : Gives before action)
    (then_ : ∀ value, before value → Gives good (rest value)) : Gives good (action >>= rest) := by
  intro state result final ran
  rcases split : action.run state with ⟨value, next⟩ | ⟨fault, next⟩
  · rw [run_bind_ok split] at ran
    exact then_ value (first state value next split) next result final ran
  · rw [run_bind_error split] at ran
    cases ran

end Sequences

/-! ## Loops -/

theorem keeps_foldlM {view : σ → γ} {body : β → α → EStateM ε σ β}
    (kept : ∀ state item, Keeps view (body state item)) (items : List α) (start : β) :
    Keeps view (items.foldlM body start) := by
  induction items generalizing start with
  | nil => exact keeps_pure start
  | cons item items ih =>
    rw [List.foldlM_cons]
    exact (kept start item).bind fun next => ih next

theorem gives_foldlM {good : β → Prop} {body : β → α → EStateM ε σ β}
    (kept : ∀ state item, good state → Gives good (body state item)) (items : List α) {start : β}
    (initially : good start) : Gives good (items.foldlM body start) := by
  induction items generalizing start with
  | nil => exact gives_pure initially
  | cons item items ih =>
    rw [List.foldlM_cons]
    exact (kept start item initially).bind fun next holds => ih holds

end DpcppTrace.Foundation
