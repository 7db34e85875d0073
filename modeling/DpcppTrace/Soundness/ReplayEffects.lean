import DpcppTrace.Foundation.Outcome
import DpcppTrace.Model.Replayer

/-! # What the parts of a replay entry do

Each part of an entry returns from every state of the plugin or faults from every state, but for a
`delete[]`, which depends on what is live. Of what the plugin keeps besides the memory, a part changes the
number of allocations and the live arrays.
-/

namespace DpcppTrace.Soundness

open Foundation Model Effect

/-! ## Which parts return -/

theorem total_store {address : UInt64} {bytes : Bytes} (writable : address ≠ 0 ∨ bytes = []) :
    Total (store address bytes) := by
  intro world
  have allowed : ¬(address = 0 ∧ bytes ≠ []) := by
    rintro ⟨null, some⟩
    exact writable.elim (fun nonzero => nonzero null) some
  exact ⟨(), _, by rw [store, if_neg allowed]⟩

private theorem fails_store {address : UInt64} {bytes : Bytes} (null : address = 0) (some : bytes ≠ []) :
    Fails (store address bytes) := fun world => ⟨.nullWrite, by rw [store, if_pos ⟨null, some⟩]⟩

/-- A store that is followed by a failure fails, whether it goes through or not. -/
theorem fails_store_bind {address : UInt64} {bytes : Bytes} {rest : Unit → Effect Unit}
    (fails : ∀ value, Fails (rest value)) : Fails (store address bytes >>= rest) := by
  by_cases blocked : address = 0 ∧ bytes ≠ []
  · exact (fails_store blocked.1 blocked.2).bind rest
  · have writable : address ≠ 0 ∨ bytes = [] := by
      simpa only [not_and_or, not_not] using blocked
    exact .after (total_store writable) fails

theorem total_storePointer {address : UInt64} (nonnull : address ≠ 0) (value : UInt64) :
    Total (storePointer address value) := total_store (.inl nonnull)

theorem fails_storePointer {address : UInt64} (null : address = 0) (value : UInt64) :
    Fails (storePointer address value) := fails_store null (List.cons_ne_nil _ _)

theorem total_newInt (host : ReplayHost) : Total (newInt host) := fun _ => ⟨_, _, rfl⟩

theorem newChars_served {host : ReplayHost} {size : ℕ} (fits : size ≤ host.largest)
    (world : World) : newChars host size world =
      .ok (host.heap world.allocations,
        { world with
          allocations := world.allocations + 1
          arrays := Function.update world.arrays (host.heap world.allocations) (some size) }) := by
  rw [newChars, if_neg (by omega)]

theorem total_newChars {host : ReplayHost} {size : ℕ} (fits : size ≤ host.largest) :
    Total (newChars host size) := fun world => ⟨_, _, newChars_served fits world⟩

/-- What follows an allocation may rely on an address that is not null. -/
theorem total_newChars_bind {host : ReplayHost} {size : ℕ} (fits : size ≤ host.largest)
    {rest : UInt64 → Effect Unit} (then_ : ∀ address, address ≠ 0 → Total (rest address)) :
    Total (newChars host size >>= rest) := by
  intro world
  rw [bind_ok (newChars_served fits world)]
  exact then_ _ (host.heap_ne_zero _) _

theorem fails_newChars {host : ReplayHost} {size : ℕ} (large : host.largest < size) :
    Fails (newChars host size) := fun world => ⟨.badAlloc, by rw [newChars, if_pos large]⟩

theorem total_storeHandle {pointer : UInt64} (host : ReplayHost) (nonnull : pointer ≠ 0) :
    Total (storeHandle host pointer) :=
  (total_newInt host).bind fun _ => (total_storePointer nonnull _).bind fun _ => total_pure _

theorem fails_storeHandle {pointer : UInt64} (host : ReplayHost) (null : pointer = 0) :
    Fails (storeHandle host pointer) :=
  .after (total_newInt host) fun _ => (fails_storePointer null _).bind _

theorem total_storeHandles (host : ReplayHost) (array : UInt64) (count : ℕ) :
    Total (storeHandles host array count) := by
  induction count with
  | zero => exact total_pure _
  | succ count ih => exact ih.bind fun _ => (total_newInt host).bind fun _ _ => ⟨_, _, rfl⟩

theorem total_replayCreate {pointer : UInt64} (host : ReplayHost) (nonnull : pointer ≠ 0) :
    Total (replayCreate host pointer) :=
  (total_storeHandle host nonnull).bind fun _ => total_pure _

theorem fails_replayCreate {pointer : UInt64} (host : ReplayHost) (null : pointer = 0) :
    Fails (replayCreate host pointer) := (fails_storeHandle host null).bind _

theorem returns_smallOutput {record : APICall} {output : Bytes} {more : List Bytes}
    (present : record.small_outputs = output :: more) : Returns (smallOutput record) output :=
  fun world => by simp [smallOutput, present]

theorem returns_smallOutputWord {record : APICall} {output : Bytes} {more : List Bytes}
    (present : record.small_outputs = output :: more) (wide : 4 ≤ output.length) :
    Returns (smallOutputWord record) (output.take 4) := by
  intro world
  rw [smallOutputWord, (returns_smallOutput present).bind]
  simp [Nat.not_lt.mpr wide, pure_ok]

theorem returns_openBuffer (host : ReplayHost) {record : APICall} {name : Bytes}
    {more : List Bytes} (present : record.mem_obj_outputs = name :: more) :
    Returns (openBuffer host record) (.opened (host.buffers name)) :=
  fun world => by simp [openBuffer, present]

theorem fails_openBuffer (host : ReplayHost) {record : APICall}
    (missing : record.mem_obj_outputs = []) : Fails (openBuffer host record) :=
  fun world => ⟨.missingMemObj, by simp [openBuffer, missing]⟩

theorem fails_smallOutput {record : APICall} (missing : record.small_outputs = []) :
    Fails (smallOutput record) := fun world => ⟨.missingOutput, by simp [smallOutput, missing]⟩

/-! ## Arrays of characters -/

/-- `delete[]` may be called on the pointer: it is null, or the address of a live array. -/
def Deletable (pointer : UInt64) (arrays : UInt64 → Option ℕ) : Prop :=
  pointer = 0 ∨ arrays pointer ≠ none

instance (pointer : UInt64) (arrays : UInt64 → Option ℕ) : Decidable (Deletable pointer arrays) :=
  inferInstanceAs (Decidable (_ ∨ _))

/-- The live arrays behind a `delete[]`. -/
def withoutArray (pointer : UInt64) (arrays : UInt64 → Option ℕ) : UInt64 → Option ℕ :=
  if pointer = 0 then arrays else Function.update arrays pointer none

theorem deleteChars_eq (pointer : UInt64) (world : World) :
    deleteChars pointer world =
      if Deletable pointer world.arrays then
        .ok ((), { world with arrays := withoutArray pointer world.arrays })
      else .error .invalidFree := by
  rw [deleteChars, withoutArray]
  by_cases null : pointer = 0
  · rw [if_pos null, if_pos (.inl null), if_pos null]
  · rw [if_neg null, if_neg null]
    cases live : world.arrays pointer with
    | some size => rw [if_pos (.inr (by rw [live]; exact Option.some_ne_none size))]
    | none =>
      have dead : ¬Deletable pointer world.arrays := not_or.mpr ⟨null, not_not.mpr live⟩
      rw [if_neg dead]

/-! ## What the parts change -/

section Views

variable {γ : Type} {view : World → γ} {tick : γ → γ} {host : ReplayHost} {record : APICall}

theorem moves_get : Moves view id (get : Effect World) := by
  intro world value next ran
  obtain ⟨-, rfl⟩ := Prod.mk.inj (Except.ok.inj ran)
  rfl

private theorem moves_smallOutput : Moves view id (smallOutput record) := by
  intro world value next ran
  rw [smallOutput] at ran
  split at ran
  · obtain ⟨-, rfl⟩ := Prod.mk.inj (Except.ok.inj ran)
    rfl
  · cases ran

theorem moves_smallOutputWord : Moves view id (smallOutputWord record) := by
  have missing : Moves view id (fault .missingOutput) := fun _ _ _ ran => nomatch ran
  have checked (output : Bytes) : Moves view id
      (do if output.length < 4 then fault .missingOutput
          pure (output.take 4) : Effect Bytes) := by
    split
    · exact missing.bind fun _ => moves_pure view _
    · exact moves_pure view _
  exact moves_smallOutput.bind checked

theorem moves_openBuffer : Moves view id (openBuffer host record) := by
  intro world value next ran
  rw [openBuffer] at ran
  split at ran
  · obtain ⟨-, rfl⟩ := Prod.mk.inj (Except.ok.inj ran)
    rfl
  · cases ran

/-- The view does not see the memory, and `tick` is what it sees of an allocation. -/
structure Counts (view : World → γ) (tick : γ → γ) : Prop where
  memory : ∀ world memory, view { world with memory } = view world
  allocation : ∀ world, view { world with allocations := world.allocations + 1 } = tick (view world)

namespace Counts

variable (counts : Counts view tick)

include counts

theorem store (address : UInt64) (bytes : Bytes) : Moves view id (store address bytes) := by
  intro world value next ran
  rw [Effect.store] at ran
  split_ifs at ran
  obtain ⟨-, rfl⟩ := Prod.mk.inj (Except.ok.inj ran)
  exact counts.memory world _

theorem newInt : Moves view tick (newInt host) := by
  intro world value next ran
  obtain ⟨-, rfl⟩ := Prod.mk.inj (Except.ok.inj ran)
  exact (counts.memory { world with allocations := world.allocations + 1 } _).trans
    (counts.allocation world)

theorem storeHandle (pointer : UInt64) : Moves view tick (storeHandle host pointer) :=
  counts.newInt.bind fun _ => (counts.store _ _).bind fun _ => moves_pure view _

theorem storeHandles (array : UInt64) (count : ℕ) :
    Moves view tick^[count] (storeHandles host array count) := by
  induction count with
  | zero => exact moves_pure view _
  | succ count ih =>
    have element (handle : UInt64) : Moves view id (fun world : World =>
        (.ok ((), { world with
          memory := world.memory.write (array.toNat + 8 * count) (leBytes 8 handle.toNat) }) :
          Except ReplayFault (Unit × World))) := by
      intro world value next ran
      obtain ⟨-, rfl⟩ := Prod.mk.inj (Except.ok.inj ran)
      exact counts.memory world _
    rw [Function.iterate_succ']
    exact ih.bind fun _ => counts.newInt.bind element

theorem replayCreate (pointer : UInt64) : Moves view tick (replayCreate host pointer) :=
  (counts.storeHandle pointer).bind fun _ => moves_pure view _

theorem replayGetInfo (query : InfoQuery) : Moves view id (replayGetInfo record query) :=
  moves_smallOutput.bind fun _ => counts.store _ _

/-- A query whose answer may be replaced from a map. -/
theorem substitute (query : InfoQuery) (replaced : Prop) [Decidable replaced]
    (origin : World → UInt64) :
    Moves view id (do
      Model.replayGetInfo record query
      if replaced then
        let world ← get
        storePointer query.param_value (origin world) : Effect Unit) := by
  have rest : Moves view id (if replaced then
      (get >>= fun world => storePointer query.param_value (origin world)) else pure () :
      Effect Unit) := by
    split
    · exact moves_get.bind fun _ => counts.store _ _
    · exact moves_pure view _
  exact (counts.replayGetInfo query).bind fun _ => rest

/-- The handles of an array are as many allocations. -/
theorem replayCount (numEntries : UInt32) (array count : UInt64) :
    Moves view tick^[if numEntries > 0 ∧ array ≠ 0 then numEntries.toNat else 0]
      (replayCount host record numEntries array count) := by
  have fill : Moves view tick^[if numEntries > 0 ∧ array ≠ 0 then numEntries.toNat else 0]
      (if numEntries > 0 ∧ array ≠ 0 then Effect.storeHandles host array numEntries.toNat
        else pure () : Effect Unit) := by
    split
    · exact counts.storeHandles array _
    · exact moves_pure view _
  rw [Model.replayCount]
  generalize (if numEntries > 0 ∧ array ≠ 0 then numEntries.toNat else 0) = amount at fill ⊢
  split
  · exact moves_smallOutputWord.bind fun _ => (counts.store _ _).bind fun _ => fill
  · exact fill

end Counts

theorem counts_arrays : Counts World.arrays id where
  memory _ _ := rfl
  allocation _ := rfl

end Views

end DpcppTrace.Soundness
