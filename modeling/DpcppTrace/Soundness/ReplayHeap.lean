import DpcppTrace.Soundness.ReplayRuns

/-! # Which runs replay follows

Of the arrays of characters, an entry makes those that it returns and deletes those that it is given, so
that the calls alone decide which arrays are live behind them. A run replays as recorded exactly when
every call of it is replayable, and finds what it deletes live.
-/

namespace DpcppTrace.Soundness

open Foundation Model Effect

/-! ## The live arrays -/

/-- The number of allocations, and the sizes of the live arrays of characters. -/
structure HeapState where
  allocations : ℕ
  arrays : UInt64 → Option ℕ

def heapOf (world : World) : HeapState := ⟨world.allocations, world.arrays⟩

/-- What a call that returns does to the heap; a buffer that it maps has so many bytes. -/
def HeapState.behind (address : ℕ → UInt64) (call : PiCall) (mapped : ℕ) (heap : HeapState) :
    HeapState where
  allocations := heap.allocations + (outParameters call).allocated
  arrays :=
    match call with
    | .piextUSMDeviceAlloc _ _ _ _ size _ | .piextUSMHostAlloc _ _ _ size _ =>
      Function.update heap.arrays (address heap.allocations) (some size.toNat)
    | .piEnqueueMemBufferMap .. =>
      Function.update heap.arrays (address heap.allocations) (some mapped)
    | .piEnqueueMemUnmap _ _ pointer _ _ _ | .piextUSMFree _ pointer =>
      withoutArray pointer heap.arrays
    | _ => heap.arrays

/-- From this heap on, each call finds what it deletes live; with a call goes the size of the buffer that
it maps. -/
def FreesLive (address : ℕ → UInt64) : List (PiCall × ℕ) → HeapState → Prop
  | [], _ => True
  | (call, mapped) :: calls, heap =>
    Releasable call heap.arrays ∧ FreesLive address calls (heap.behind address call mapped)

section Arrays

variable {host : ReplayHost} {handler : RecordHandler} {call : PiCall} {after : CallEnd}
  {outputs : Outputs} {record : APICall}

/-- A new array is live behind whatever else an entry does with it. -/
theorem arrays_newChars_bind {α : Type} {size : ℕ} {rest : UInt64 → Effect α} {world next : World}
    {value : α} (keeps : ∀ address, Moves World.arrays id (rest address))
    (ran : (newChars host size >>= rest) world = .ok (value, next)) :
    next.arrays = Function.update world.arrays (host.heap world.allocations) (some size) := by
  obtain ⟨address, mid, front, later⟩ := bind_eq_ok_iff.mp ran
  rw [newChars] at front
  split_ifs at front
  obtain ⟨-, rfl⟩ := Prod.mk.inj (Except.ok.inj front)
  exact keeps _ _ value next later

private theorem arrays_deleteChars {pointer : UInt64} {world next : World}
    (ran : deleteChars pointer world = .ok ((), next)) :
    next.arrays = withoutArray pointer world.arrays := by
  rw [deleteChars_eq] at ran
  split_ifs at ran
  obtain ⟨-, rfl⟩ := Prod.mk.inj (Except.ok.inj ran)
  rfl

private theorem arrays_unmap {mapped_ptr event : UInt64} {world next : World}
    (ran : replayMemUnmap host mapped_ptr event world = .ok ((), next)) :
    next.arrays = withoutArray mapped_ptr world.arrays := by
  obtain ⟨⟨⟩, mid, created, -⟩ := bind_eq_ok_iff.mp ran
  rw [replayMemUnmap_eq created] at ran
  split_ifs at ran
  obtain ⟨-, rfl⟩ := Prod.mk.inj (Except.ok.inj ran)
  have same : mid.arrays = world.arrays := counts_arrays.replayCreate event world () mid created
  exact congrArg (withoutArray mapped_ptr) same

/-- A buffer that was saved is mapped into a new array; one that was not has no file. -/
private theorem arrays_map {size ret_map event : UInt64}
    (handled : handleEnqueueMemBufferMap handler size ret_map after = some outputs) {world next : World}
    (ran : replayMemBufferMap host (outputs.record host.pi call after) event ret_map world =
      .ok ((), next)) :
    next.arrays = Function.update world.arrays (host.heap world.allocations)
      (some (objSize host handler after)) := by
  rw [handleEnqueueMemBufferMap] at handled
  split_ifs at handled
  · have stored := (saveBuffer_some handled).1
    rw [replayMemBufferMap, (returns_openBuffer host stored).bind] at ran
    exact arrays_newChars_bind (fun _ => (counts_arrays.store _ _).bind fun _ =>
      (counts_arrays.store _ _).bind fun _ => counts_arrays.replayCreate _) ran
  · obtain rfl := Option.some.inj handled
    have unsaved : (Outputs.record {} host.pi call after).mem_obj_outputs = [] := rfl
    obtain ⟨fault, missing⟩ := fails_openBuffer host unsaved world
    obtain ⟨memIS, mid, opened, -⟩ := bind_eq_ok_iff.mp ran
    rw [missing] at opened
    cases opened

/-- The arrays behind an entry that returns on the record of its call. -/
theorem arrays_body (handled : handler.outputs call after = some outputs) {world next : World}
    (ran : (piPluginInit host call).body (outputs.record host.pi call after) world = .ok ((), next)) :
    next.arrays = ((heapOf world).behind host.heap call (objSize host handler after)).arrays := by
  have keeps {action : Effect Unit} {last : World} (moves : Moves World.arrays id action)
      (ran : action world = .ok ((), last)) : last.arrays = world.arrays := moves world () last ran
  cases call with
  | piPlatformsGet | piDevicesGet =>
    have counted := counts_arrays.replayCount _ _ _ world () next ran
    rwa [Function.iterate_id] at counted
  | piPlatformGetInfo | piDeviceGetInfo | piContextGetInfo | piQueueGetInfo | piMemImageGetInfo
  | piProgramGetInfo | piKernelGetGroupInfo => exact keeps (counts_arrays.replayGetInfo _) ran
  | piMemGetInfo | piKernelGetInfo => exact keeps (counts_arrays.substitute _ _ _) ran
  | piextDeviceSelectBinary =>
    exact keeps (moves_smallOutputWord.bind fun _ => counts_arrays.store _ _) ran
  | piContextCreate | piQueueCreate | piProgramCreateWithBinary | piProgramCreate
  | piEnqueueKernelLaunch | piEnqueueEventsWait | piEnqueueEventsWaitWithBarrier
  | piextUSMEnqueueMemset => exact keeps (counts_arrays.replayCreate _) ran
  | piMemBufferCreate | piKernelCreate =>
    refine keeps ?_ ran
    change Moves World.arrays (id ∘ id) _
    exact (counts_arrays.storeHandle _).bind fun _ => moves_modify fun _ => rfl
  | piEnqueueMemUnmap => exact arrays_unmap ran
  | piextUSMFree => exact arrays_deleteChars ran
  | piEnqueueMemBufferMap => exact arrays_map handled ran
  | piEnqueueMemBufferRead =>
    exact keeps (moves_openBuffer.bind fun _ => (counts_arrays.store _ _).bind fun _ =>
      counts_arrays.replayCreate _) ran
  | piextUSMEnqueueMemcpy =>
    refine keeps ?_ ran
    change Moves World.arrays id (replayUSMEnqueueMemcpy host _ _ _ _)
    rw [replayUSMEnqueueMemcpy]
    split
    · exact moves_openBuffer.bind fun _ => (counts_arrays.store _ _).bind fun _ =>
        counts_arrays.replayCreate _
    · exact counts_arrays.replayCreate _
  | piextUSMDeviceAlloc | piextUSMHostAlloc =>
    exact arrays_newChars_bind (fun _ => counts_arrays.store _ _) ran
  | _ => exact keeps (moves_pure World.arrays _) ran

theorem heap_body (handled : handler.outputs call after = some outputs) {world next : World}
    (ran : (piPluginInit host call).body (outputs.record host.pi call after) world = .ok ((), next)) :
    heapOf next = (heapOf world).behind host.heap call (objSize host handler after) := by
  have allocations := congrArg Books.allocations (moves_body call world () next ran)
  rw [heapOf, arrays_body handled ran, show next.allocations = _ from allocations]
  rfl

end Arrays

/-! ## One call -/

section Step

variable {host : ReplayHost} {handler : RecordHandler} {call : PiCall} {after : CallEnd}
  {outputs : Outputs} {records : List APICall} {s : Replay}
  (framable : Framable host.pb (outputs.record host.pi call after))
  (synced : ensureTraceOpened host s =
    { rest := written host.pb (outputs.record host.pi call after :: records) })
  (handled : handler.outputs call after = some outputs)

include framable synced handled

/-- A call that is answered from its own record is replayable, found what it deletes live, and has done
to the heap what it does. -/
theorem own_of_answered {code : Int32} {next : Replay}
    (answered : replay host call s = .ok (code, next)) :
    Replayable host handler after call ∧ Releasable call s.world.arrays ∧
      (piPluginInit host call).body (outputs.record host.pi call after) s.world =
        .ok ((), next.world) := by
  have replayable : Replayable host handler after call := by
    by_contra bad
    exact replay_of_not_replayable framable synced handled bad _ answered
  obtain ⟨record, trace, read, ran, -⟩ := read_of_replay answered
  rw [getNextRecord_framed framable synced] at read
  obtain ⟨rfl, -⟩ := Prod.mk.inj (Except.ok.inj read)
  exact ⟨replayable, (entry_runs handled replayable s.world).2.mp ⟨_, ran⟩, ran⟩

/-- A replayable call that finds what it deletes live returns what it has returned. -/
theorem answered_of_own (replayable : Replayable host handler after call)
    (releasable : Releasable call s.world.arrays) :
    ∃ world, replay host call s =
        .ok (after.result,
          { GTrace := some { rest := written host.pb records }, records := s.records + 1, world }) ∧
      heapOf world = (heapOf s.world).behind host.heap call (objSize host handler after) := by
  obtain ⟨expected, runs⟩ := entry_runs handled replayable s.world
  obtain ⟨world, ran⟩ := runs.mpr releasable
  exact ⟨world, replay_of_body framable synced expected ran, heap_body handled ran⟩

end Step

/-! ## Runs of one thread -/

/-- The rest of a replay run: each call succeeds with the code the recorded call returned, and
leaves the trace right behind its own record. -/
def Follows (host : ReplayHost) : List (PiCall × CallEnd) → List APICall → Replay → Prop
  | [], _, _ => True
  | _ :: _, [], _ => False
  | (call, after) :: calls, _ :: records, s =>
    ∃ next, replay host call s = .ok (after.result, next) ∧
      next.GTrace = some { rest := written host.pb records } ∧ Follows host calls records next

/-- The calls of a thread, and the sizes of the buffers that they map. -/
def sizedCalls (host : ReplayHost) (handler : RecordHandler) (calls : List (PiCall × CallEnd)) :
    List (PiCall × ℕ) :=
  calls.map fun made => (made.1, objSize host handler made.2)

private theorem follows_iff (host : ReplayHost) (handler : RecordHandler) (calls : List (PiCall × CallEnd))
    (records : List APICall) (recorded : recordCalls handler host.pi calls = some records)
    (framable : ∀ record ∈ records, Framable host.pb record) (s : Replay)
    (synced : ensureTraceOpened host s = { rest := written host.pb records }) :
    Follows host calls records s ↔
      (∀ made ∈ calls, Replayable host handler made.2 made.1) ∧
        FreesLive host.heap (sizedCalls host handler calls) (heapOf s.world) := by
  induction calls generalizing records s with
  | nil => simp [Follows, sizedCalls, FreesLive]
  | cons made calls ih =>
    obtain ⟨call, after⟩ := made
    simp only [recordCalls, RecordHandler.handle, Option.bind_eq_bind, Option.bind_eq_some_iff,
      Option.map_eq_some_iff, Option.pure_def, Option.some.injEq] at recorded
    obtain ⟨_, ⟨outputs, handled, rfl⟩, records, later, rfl⟩ := recorded
    have here := framable _ (List.mem_cons_self ..)
    have rest := fun record member => framable record (List.mem_cons_of_mem _ member)
    rw [List.forall_mem_cons, Follows, sizedCalls, List.map_cons, ← sizedCalls, FreesLive]
    constructor
    · rintro ⟨next, answered, stands, follows⟩
      obtain ⟨replayable, releasable, ran⟩ := own_of_answered here synced handled answered
      rw [ih records later rest next (by rw [ensureTraceOpened, stands]), heap_body handled ran]
        at follows
      exact ⟨⟨replayable, follows.1⟩, releasable, follows.2⟩
    · rintro ⟨⟨replayable, all⟩, releasable, live⟩
      obtain ⟨world, answered, heap⟩ := answered_of_own here synced handled replayable releasable
      rw [← heap] at live
      exact ⟨_, answered, rfl, (ih records later rest _ rfl).mpr ⟨all, live⟩⟩

/-- A thread's recorded calls, replayed in the same order, answer with the recorded codes and
consume one record each exactly when every one of them is replayable, and finds what it deletes live. -/
theorem replay_follows_iff (host : ReplayHost) (handler : RecordHandler)
    (calls : List (PiCall × CallEnd)) (records : List APICall)
    (recorded : recordCalls handler host.pi calls = some records)
    (framable : ∀ record ∈ records, Framable host.pb record)
    (stored : host.traceFile = some (written host.pb records)) (world : World) :
    Follows host calls records { GTrace := none, records := 0, world } ↔
      (∀ made ∈ calls, Replayable host handler made.2 made.1) ∧
        FreesLive host.heap (sizedCalls host handler calls) (heapOf world) := by
  apply follows_iff host handler calls records recorded framable
  simp only [ensureTraceOpened, stored, IStream.opened]

/-- A query of the platforms, a failed retain, and an array that is made and freed. -/
def sampleCalls : List (PiCall × CallEnd) :=
  [(.piPlatformsGet 0 0 0x2000, sampleEnd 0),
    (.piPlatformGetInfo 0x3000 ⟨0x0902, 2, 0x4000, 0⟩, sampleEnd 0),
    (.piDeviceRetain 0x5000, sampleEnd (-30)),
    (.piextUSMHostAlloc 0x6000 0 0 64 0, sampleEnd 0),
    (.piextUSMFree 0 0x1000, sampleEnd 0)]

theorem replay_follows_iff_sample :
    ∃ records, recordCalls sampleHandler tableOrder sampleCalls = some records ∧
      Follows (sampleHost (written wire records)) sampleCalls records
        { GTrace := none, records := 0, world := sampleWorld } := by
  obtain ⟨records, recorded, framable⟩ : ∃ records,
      recordCalls sampleHandler tableOrder sampleCalls = some records ∧
        ∀ record ∈ records, Framable wire record := by
    refine ⟨_, rfl, ?_⟩
    unfold Framable
    decide
  refine ⟨records, recorded, (replay_follows_iff (sampleHost (written wire records)) sampleHandler
    sampleCalls records recorded framable rfl sampleWorld).mpr ⟨?_, ?_⟩⟩
  · simp only [sampleCalls, List.forall_mem_cons]
    have fits : (64 : UInt64).toNat ≤ 2 ^ 40 := by decide
    exact ⟨trivial, .inl (by decide), trivial, ⟨fits, by decide⟩, trivial, List.forall_mem_nil _⟩
  · refine ⟨nofun, nofun, nofun, nofun, fun pointer here => ?_, trivial⟩
    obtain rfl := Option.some.inj here
    exact .inr (Option.some_ne_none 64)

/-- A recorded `piMemRetain` is rejected by its own entry. -/
theorem not_follows_memRetain :
    ¬∀ (host : ReplayHost) (handler : RecordHandler) (calls : List (PiCall × CallEnd))
      (records : List APICall), recordCalls handler host.pi calls = some records →
        (∀ record ∈ records, Framable host.pb record) →
        host.traceFile = some (written host.pb records) → ∀ world,
          Follows host calls records { GTrace := none, records := 0, world } := by
  intro always
  obtain ⟨records, recorded, framable⟩ : ∃ records,
      recordCalls sampleHandler tableOrder [(.piMemRetain 0x6000, sampleEnd 0)] = some records ∧
        ∀ record ∈ records, Framable wire record := by
    refine ⟨_, rfl, ?_⟩
    unfold Framable
    decide
  have follows := always (sampleHost (written wire records)) sampleHandler _ records recorded
    framable rfl sampleWorld
  rw [follows_iff (sampleHost (written wire records)) sampleHandler _ records recorded framable _ rfl]
    at follows
  exact follows.1 _ (List.mem_cons_self ..)

end DpcppTrace.Soundness
