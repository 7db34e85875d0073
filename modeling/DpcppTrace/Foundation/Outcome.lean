import Mathlib.Tactic.Common

/-! # Computations that succeed, or fail, from every state

A stateful computation with faults is total when it returns from every state, and failing when it
faults from every state. Both are decided along a sequence: a total prefix passes the verdict on to
what follows, a failing one settles it. Which faults are possible at all, and how a return changes what
is observed of the state, is decided part by part.
-/

namespace DpcppTrace.Foundation

universe u

variable {σ ε α β γ : Type u}

/-- The computation returns, whatever the state. -/
def Total (action : StateT σ (Except ε) α) : Prop :=
  ∀ state, ∃ value next, action state = .ok (value, next)

/-- The computation faults, whatever the state. -/
def Fails (action : StateT σ (Except ε) α) : Prop := ∀ state, ∃ fault, action state = .error fault

/-- The computation faults like this, whatever the state. -/
def FaultsWith (fault : ε) (action : StateT σ (Except ε) α) : Prop :=
  ∀ state, action state = .error fault

/-- The computation returns this value and leaves the state alone. -/
def Returns (action : StateT σ (Except ε) α) (value : α) : Prop :=
  ∀ state, action state = .ok (value, state)

/-- Every fault of the computation is one of these. -/
def Raises (kind : ε → Prop) (action : StateT σ (Except ε) α) : Prop :=
  ∀ state fault, action state = .error fault → kind fault

/-- Whenever the computation returns, what `view` sees has changed like this. -/
def Moves (view : σ → γ) (change : γ → γ) (action : StateT σ (Except ε) α) : Prop :=
  ∀ state value next, action state = .ok (value, next) → view next = change (view state)

/-- A total computation that has nothing to return. -/
theorem Total.ok {action : StateT σ (Except ε) PUnit} (total : Total action) (state : σ) :
    ∃ next, action state = .ok (⟨⟩, next) := by
  obtain ⟨⟨⟩, next, ran⟩ := total state
  exact ⟨next, ran⟩

theorem total_pure (value : α) : Total (pure value : StateT σ (Except ε) α) :=
  fun state => ⟨value, state, rfl⟩

theorem total_get : Total (get : StateT σ (Except ε) σ) := fun state => ⟨state, state, rfl⟩

theorem total_modify (change : σ → σ) : Total (modify change : StateT σ (Except ε) PUnit) :=
  fun state => ⟨⟨⟩, change state, rfl⟩

theorem pure_ok (value : α) (state : σ) :
    (pure value : StateT σ (Except ε) α) state = .ok (value, state) :=
  rfl

theorem bind_ok {action : StateT σ (Except ε) α} {rest : α → StateT σ (Except ε) β}
    {state next : σ} {value : α} (ran : action state = .ok (value, next)) :
    (action >>= rest) state = rest value next := by
  change (action state >>= fun result => rest result.1 result.2) = _
  rw [ran]
  rfl

theorem bind_error {action : StateT σ (Except ε) α} (rest : α → StateT σ (Except ε) β)
    {state : σ} {fault : ε} (ran : action state = .error fault) :
    (action >>= rest) state = .error fault := by
  change (action state >>= fun result => rest result.1 result.2) = _
  rw [ran]
  rfl

/-- A sequence that returns is a return of its front and then one of its rest. -/
theorem bind_eq_ok_iff {action : StateT σ (Except ε) α} {rest : α → StateT σ (Except ε) β}
    {state final : σ} {result : β} :
    (action >>= rest) state = .ok (result, final) ↔
      ∃ value next, action state = .ok (value, next) ∧ rest value next = .ok (result, final) := by
  constructor
  · intro ran
    rcases front : action state with fault | ⟨value, next⟩
    · rw [bind_error rest front] at ran
      cases ran
    · rw [bind_ok front] at ran
      exact ⟨value, next, rfl, ran⟩
  · rintro ⟨value, next, front, ran⟩
    rw [bind_ok front]
    exact ran

theorem Total.bind {action : StateT σ (Except ε) α} {rest : α → StateT σ (Except ε) β}
    (first : Total action) (then_ : ∀ value, Total (rest value)) : Total (action >>= rest) := by
  intro state
  obtain ⟨value, next, ran⟩ := first state
  rw [bind_ok ran]
  exact then_ value next

theorem Fails.bind {action : StateT σ (Except ε) α} (fails : Fails action)
    (rest : α → StateT σ (Except ε) β) : Fails (action >>= rest) := by
  intro state
  obtain ⟨fault, ran⟩ := fails state
  exact ⟨fault, bind_error rest ran⟩

theorem Fails.after {action : StateT σ (Except ε) α} {rest : α → StateT σ (Except ε) β}
    (first : Total action) (fails : ∀ value, Fails (rest value)) : Fails (action >>= rest) := by
  intro state
  obtain ⟨value, next, ran⟩ := first state
  rw [bind_ok ran]
  exact fails value next

theorem FaultsWith.bind {fault : ε} {action : StateT σ (Except ε) α} (faults : FaultsWith fault action)
    (rest : α → StateT σ (Except ε) β) : FaultsWith fault (action >>= rest) :=
  fun state => bind_error rest (faults state)

theorem FaultsWith.after {fault : ε} {action : StateT σ (Except ε) α}
    {rest : α → StateT σ (Except ε) β} (first : Total action)
    (faults : ∀ value, FaultsWith fault (rest value)) : FaultsWith fault (action >>= rest) := by
  intro state
  obtain ⟨value, next, ran⟩ := first state
  rw [bind_ok ran]
  exact faults value next

theorem Returns.bind {action : StateT σ (Except ε) α} {value : α} (first : Returns action value)
    (rest : α → StateT σ (Except ε) β) : action >>= rest = rest value := by
  funext state
  exact bind_ok (first state)

theorem Total.raises {action : StateT σ (Except ε) α} (total : Total action) (kind : ε → Prop) :
    Raises kind action := by
  intro state fault ran
  obtain ⟨value, next, returned⟩ := total state
  rw [returned] at ran
  cases ran

theorem Raises.bind {kind : ε → Prop} {action : StateT σ (Except ε) α}
    {rest : α → StateT σ (Except ε) β} (first : Raises kind action)
    (then_ : ∀ value, Raises kind (rest value)) : Raises kind (action >>= rest) := by
  intro state fault ran
  rcases split : action state with here | ⟨value, next⟩
  · rw [bind_error rest split] at ran
    obtain rfl := Except.error.inj ran
    exact first state here split
  · rw [bind_ok split] at ran
    exact then_ value next fault ran

theorem moves_pure (view : σ → γ) (value : α) : Moves view id (pure value : StateT σ (Except ε) α) := by
  intro state result next ran
  obtain ⟨-, rfl⟩ := Prod.mk.inj (Except.ok.inj ran)
  rfl

theorem moves_modify {view : σ → γ} {update : σ → σ} {change : γ → γ}
    (seen : ∀ state, view (update state) = change (view state)) :
    Moves view change (modify update : StateT σ (Except ε) PUnit) := by
  intro state result next ran
  obtain ⟨-, rfl⟩ := Prod.mk.inj (Except.ok.inj ran)
  exact seen state

theorem Moves.bind {view : σ → γ} {first second : γ → γ} {action : StateT σ (Except ε) α}
    {rest : α → StateT σ (Except ε) β} (before : Moves view first action)
    (then_ : ∀ value, Moves view second (rest value)) :
    Moves view (second ∘ first) (action >>= rest) := by
  intro state result final ran
  obtain ⟨value, next, front, later⟩ := bind_eq_ok_iff.mp ran
  rw [then_ value next result final later, before state value next front]
  rfl

end DpcppTrace.Foundation
