import DpcppTrace.Soundness.Replay

/-! # The plugin's books over a run

Whatever an entry reads and writes, of the plugin's own data a call that returns changes only the number
of allocations and, when it creates a kernel or a buffer, the map that remembers from what. A run is
any sequence of returning calls, of any threads and from any records.
-/

namespace DpcppTrace.Soundness

open Foundation Model Effect

/-- What the plugin keeps besides the application's memory. -/
structure Books where
  allocations : ℕ
  kernels : UInt64 → UInt64
  contexts : UInt64 → UInt64

def booksOf (world : World) : Books :=
  ⟨world.allocations, world.GKernelProgramMap, world.GMemContextMap⟩

/-- So many more allocations. -/
def bump (count : ℕ) (books : Books) : Books := { books with allocations := books.allocations + count }

/-! ## The places for what a call creates -/

/-- The parameters through which a call returns new objects, events or memory. -/
inductive OutParameters where
  | absent
  /-- One object or event. -/
  | handle (pointer : UInt64)
  /-- An array of objects; none are wanted where it is null. -/
  | handles (array : UInt64) (numEntries : UInt32)
  /-- An event, and the memory that was mapped. -/
  | mapped (event ret_map : UInt64)
  /-- Memory. -/
  | memory (result_ptr : UInt64)
  /-- A program, for which the entry does nothing. -/
  | linked (ret_program : UInt64)

def outParameters : PiCall → OutParameters
  | .piPlatformsGet numEntries array _ | .piDevicesGet _ _ numEntries array _ =>
    .handles array numEntries
  | .piContextCreate _ _ _ _ _ pointer | .piQueueCreate _ _ _ pointer
  | .piMemBufferCreate _ _ _ _ pointer _ | .piProgramCreateWithBinary _ _ _ _ _ _ _ _ pointer
  | .piProgramCreate _ _ _ pointer | .piKernelCreate _ _ pointer
  | .piEnqueueKernelLaunch _ _ _ _ _ _ _ _ pointer | .piEnqueueMemBufferRead _ _ _ _ _ _ _ _ pointer
  | .piEnqueueMemUnmap _ _ _ _ _ pointer | .piEnqueueEventsWait _ _ _ pointer
  | .piEnqueueEventsWaitWithBarrier _ _ _ pointer | .piextUSMEnqueueMemcpy _ _ _ _ _ _ _ pointer
  | .piextUSMEnqueueMemset _ _ _ _ _ _ pointer => .handle pointer
  | .piProgramLink _ _ _ _ _ _ _ _ ret_program => .linked ret_program
  | .piEnqueueMemBufferMap _ _ _ _ _ _ _ _ event ret_map => .mapped event ret_map
  | .piextUSMDeviceAlloc result_ptr _ _ _ _ _ | .piextUSMHostAlloc result_ptr _ _ _ _ =>
    .memory result_ptr
  | _ => .absent

namespace OutParameters

/-- How many heap allocations a returning call makes for its parameters. -/
def allocated : OutParameters → ℕ
  | .absent | .linked _ => 0
  | .handle _ | .memory _ => 1
  | .handles array numEntries => if numEntries > 0 ∧ array ≠ 0 then numEntries.toNat else 0
  | .mapped _ _ => 2

/-- Which of them are objects, when the first one has the given number; these are never released. -/
def objects (first : ℕ) : OutParameters → List ℕ
  | .absent | .linked _ | .memory _ => []
  | .handle _ => [first]
  | .handles array numEntries =>
    if numEntries > 0 ∧ array ≠ 0 then List.range' first numEntries.toNat else []
  | .mapped _ _ => [first + 1]

/-- The pointer of the single object, and the place of its allocation among those of the call. -/
def single : OutParameters → Option (UInt64 × ℕ)
  | .handle pointer => some (pointer, 0)
  | .mapped event _ => some (event, 1)
  | _ => none

theorem objects_lt {parameters : OutParameters} {first index : ℕ}
    (member : index ∈ parameters.objects first) : first ≤ index ∧ index < first + parameters.allocated := by
  cases parameters with
  | absent | linked | memory => cases member
  | handle | mapped =>
    obtain rfl := List.mem_singleton.mp member
    simp only [allocated]
    omega
  | handles array numEntries =>
    rw [objects] at member
    rw [allocated]
    split at member
    · rw [List.mem_range'_1] at member
      rwa [if_pos ‹_›]
    · cases member

end OutParameters

/-- What a returning call changes in the books. -/
def account (host : ReplayHost) (call : PiCall) (books : Books) : Books where
  allocations := books.allocations + (outParameters call).allocated
  kernels :=
    match call with
    | .piKernelCreate program _ _ =>
      Function.update books.kernels (host.heap books.allocations) program
    | _ => books.kernels
  contexts :=
    match call with
    | .piMemBufferCreate context _ _ _ _ _ =>
      Function.update books.contexts (host.heap books.allocations) context
    | _ => books.contexts

/-! ## What the bodies change -/

section Bodies

variable {host : ReplayHost} {record : APICall}

/-- A new object whose address is stored through the pointer. -/
def issue (host : ReplayHost) (pointer : UInt64) (world : World) : World :=
  let handle := host.heap world.allocations
  { world with
    memory := (world.memory.write handle.toNat (leBytes 4 1)).write pointer.toNat
      (leBytes 8 handle.toNat)
    allocations := world.allocations + 1 }

theorem storeHandle_eq (pointer : UInt64) (world : World) :
    storeHandle host pointer world =
      if pointer = 0 then .error .nullWrite
      else .ok (host.heap world.allocations, issue host pointer world) := by
  have width (value : UInt64) : leBytes 8 value.toNat ≠ [] := List.cons_ne_nil _ _
  have created : newInt host world = .ok (host.heap world.allocations, _) := rfl
  rw [storeHandle, bind_ok created]
  split
  · next null => exact bind_error _ (if_pos ⟨null, width _⟩)
  · next nonnull => exact bind_ok (if_neg fun blocked => nonnull blocked.1)

theorem counts_booksOf : Counts booksOf (bump 1) where
  memory _ _ := rfl
  allocation _ := rfl

private theorem iterate_bump (count : ℕ) : (bump 1)^[count] = bump count := by
  induction count with
  | zero => rfl
  | succ count ih =>
    rw [Function.iterate_succ', ih]
    rfl

private theorem moves_newChars (size : ℕ) : Moves booksOf (bump 1) (newChars host size) := by
  intro world value next ran
  rw [newChars] at ran
  split_ifs at ran
  obtain ⟨-, rfl⟩ := Prod.mk.inj (Except.ok.inj ran)
  rfl

/-- What does not see the live arrays does not see a `delete[]`. -/
theorem moves_deleteChars {γ : Type} {view : World → γ}
    (blind : ∀ world arrays, view { world with arrays } = view world) (pointer : UInt64) :
    Moves view id (deleteChars pointer) := by
  intro world value next ran
  rw [deleteChars_eq] at ran
  split_ifs at ran
  obtain ⟨-, rfl⟩ := Prod.mk.inj (Except.ok.inj ran)
  exact blind world _

private theorem moves_replayCount (numEntries : UInt32) (array count : UInt64) :
    Moves booksOf (bump (OutParameters.handles array numEntries).allocated)
      (replayCount host record numEntries array count) := by
  rw [← iterate_bump]
  exact counts_booksOf.replayCount numEntries array count

/-- A new handle that a map remembers. -/
theorem moves_remember (pointer : UInt64) (remember : UInt64 → World → World)
    (change : UInt64 → Books → Books) (same : ∀ handle world, booksOf (remember handle world) = change handle (booksOf world)) :
    Moves booksOf (fun books => change (host.heap books.allocations) (bump 1 books))
      (storeHandle host pointer >>= fun handle => modify (remember handle)) := by
  intro world value next ran
  obtain ⟨handle, mid, created, stored⟩ := bind_eq_ok_iff.mp ran
  obtain ⟨-, rfl⟩ := Prod.mk.inj (Except.ok.inj stored)
  have address : handle = host.heap world.allocations := by
    rw [storeHandle_eq] at created
    split_ifs at created
    exact (Prod.mk.inj (Except.ok.inj created)).1.symm
  rw [same, address, counts_booksOf.storeHandle pointer world handle mid created]
  rfl

/-- What a call changes in the books when it returns. -/
theorem moves_body (call : PiCall) :
    Moves booksOf (account host call) ((piPluginInit host call).body record) := by
  cases call with
  | piPlatformsGet | piDevicesGet => exact moves_replayCount _ _ _
  | piPlatformGetInfo | piDeviceGetInfo | piContextGetInfo | piQueueGetInfo | piMemImageGetInfo
  | piProgramGetInfo | piKernelGetGroupInfo => exact counts_booksOf.replayGetInfo _
  | piMemGetInfo | piKernelGetInfo => exact counts_booksOf.substitute _ _ _
  | piextDeviceSelectBinary => exact moves_smallOutputWord.bind fun _ => counts_booksOf.store _ _
  | piContextCreate | piQueueCreate | piProgramCreateWithBinary | piProgramCreate
  | piEnqueueKernelLaunch | piEnqueueEventsWait | piEnqueueEventsWaitWithBarrier
  | piextUSMEnqueueMemset => exact counts_booksOf.replayCreate _
  | piMemBufferCreate context =>
    exact moves_remember _ _ (fun mem books =>
      { books with contexts := Function.update books.contexts mem context }) fun _ _ => rfl
  | piKernelCreate program =>
    exact moves_remember _ _ (fun kernel books =>
      { books with kernels := Function.update books.kernels kernel program }) fun _ _ => rfl
  | piEnqueueMemUnmap =>
    exact (counts_booksOf.replayCreate _).bind fun _ => moves_deleteChars (fun _ _ => rfl) _
  | piextUSMFree => exact moves_deleteChars (fun _ _ => rfl) _
  | piEnqueueMemBufferMap =>
    exact moves_openBuffer.bind fun _ => (moves_newChars _).bind fun _ =>
      (counts_booksOf.store _ _).bind fun _ => (counts_booksOf.store _ _).bind fun _ =>
        counts_booksOf.replayCreate _
  | piEnqueueMemBufferRead =>
    exact moves_openBuffer.bind fun _ => (counts_booksOf.store _ _).bind fun _ =>
      counts_booksOf.replayCreate _
  | piextUSMEnqueueMemcpy =>
    change Moves booksOf _ (replayUSMEnqueueMemcpy host record _ _ _)
    rw [replayUSMEnqueueMemcpy]
    split
    · exact moves_openBuffer.bind fun _ => (counts_booksOf.store _ _).bind fun _ =>
        counts_booksOf.replayCreate _
    · exact counts_booksOf.replayCreate _
  | piextUSMDeviceAlloc | piextUSMHostAlloc =>
    exact (moves_newChars _).bind fun _ => counts_booksOf.store _ _
  | _ => exact moves_pure booksOf _

end Bodies

/-! ## What is delivered -/

/-- The handle at an address. -/
def handleAt (world : World) (place : ℕ) : UInt64 := UInt64.ofNat (ofLe (world.memory.read place 8))

theorem handleAt_of_read {world : World} {place : ℕ} {handle : UInt64}
    (read : world.memory.read place 8 = leBytes 8 handle.toNat) : handleAt world place = handle := by
  have bound : handle.toNat < 256 ^ 8 := handle.toNat_lt
  rw [handleAt, read, ofLe_leBytes_of_lt bound, UInt64.ofNat_toNat]

section Delivery

variable {host : ReplayHost} {record : APICall} {α β : Type} {pointer : UInt64}

/-- When the computation returns, the pointer is not null, and its place has the address of one of the
computation's allocations. -/
def LeavesHandle (host : ReplayHost) (pointer : UInt64) (number : ℕ) (action : Effect α) : Prop :=
  ∀ world value next, action world = .ok (value, next) →
    pointer ≠ 0 ∧ handleAt next pointer.toNat = host.heap (world.allocations + number)

private theorem leaves_storeHandle : LeavesHandle host pointer 0 (storeHandle host pointer) := by
  intro world value next ran
  rw [storeHandle_eq] at ran
  split_ifs at ran with null
  obtain ⟨-, rfl⟩ := Prod.mk.inj (Except.ok.inj ran)
  exact ⟨null, handleAt_of_read (Memory.read_write _ _ _)⟩

theorem LeavesHandle.and_then {number : ℕ} {action : Effect α} {rest : α → Effect β}
    (leaves : LeavesHandle host pointer number action)
    (kept : ∀ value, Moves World.memory id (rest value)) :
    LeavesHandle host pointer number (action >>= rest) := by
  intro world value next ran
  obtain ⟨first, mid, front, later⟩ := bind_eq_ok_iff.mp ran
  obtain ⟨nonnull, delivered⟩ := leaves world first mid front
  have same : next.memory = mid.memory := kept first mid value next later
  refine ⟨nonnull, ?_⟩
  rw [handleAt, same]
  exact delivered

theorem LeavesHandle.after {count number : ℕ} {action : Effect α} {rest : α → Effect β}
    (moves : Moves booksOf (bump count) action)
    (leaves : ∀ value, LeavesHandle host pointer number (rest value)) :
    LeavesHandle host pointer (count + number) (action >>= rest) := by
  intro world value next ran
  obtain ⟨first, mid, front, later⟩ := bind_eq_ok_iff.mp ran
  obtain ⟨nonnull, delivered⟩ := leaves first mid value next later
  have allocated : mid.allocations = world.allocations + count :=
    congrArg Books.allocations (moves world first mid front)
  rw [allocated, Nat.add_assoc] at delivered
  exact ⟨nonnull, delivered⟩

theorem LeavesHandle.behind {number : ℕ} {action : Effect α} {rest : α → Effect β}
    (quiet : Moves booksOf id action) (leaves : ∀ value, LeavesHandle host pointer number (rest value)) :
    LeavesHandle host pointer number (action >>= rest) := by
  have none : Moves booksOf (bump 0) action := quiet
  have later := LeavesHandle.after none leaves
  rwa [Nat.zero_add] at later

private theorem leaves_replayCreate : LeavesHandle host pointer 0 (replayCreate host pointer) :=
  leaves_storeHandle.and_then fun _ => moves_pure World.memory _

private theorem leaves_remember (remember : UInt64 → World → World)
    (same : ∀ handle world, (remember handle world).memory = world.memory) :
    LeavesHandle host pointer 0 (storeHandle host pointer >>= fun handle => modify (remember handle)) := by
  refine leaves_storeHandle.and_then fun handle world value next ran => ?_
  obtain ⟨-, rfl⟩ := Prod.mk.inj (Except.ok.inj ran)
  exact same handle world

/-- A call that returns one object has stored its address. -/
theorem leaves_body {call : PiCall} {number : ℕ}
    (single : (outParameters call).single = some (pointer, number)) :
    LeavesHandle host pointer number ((piPluginInit host call).body record) := by
  cases call with
  | piContextCreate | piQueueCreate | piProgramCreateWithBinary | piProgramCreate
  | piEnqueueKernelLaunch | piEnqueueEventsWait | piEnqueueEventsWaitWithBarrier
  | piextUSMEnqueueMemset =>
    obtain ⟨rfl, rfl⟩ := Prod.mk.inj (Option.some.inj single)
    exact leaves_replayCreate
  | piMemBufferCreate | piKernelCreate =>
    obtain ⟨rfl, rfl⟩ := Prod.mk.inj (Option.some.inj single)
    exact leaves_remember _ fun _ _ => rfl
  | piEnqueueMemUnmap =>
    obtain ⟨rfl, rfl⟩ := Prod.mk.inj (Option.some.inj single)
    exact leaves_replayCreate.and_then fun _ => moves_deleteChars (fun _ _ => rfl) _
  | piEnqueueMemBufferMap =>
    obtain ⟨rfl, rfl⟩ := Prod.mk.inj (Option.some.inj single)
    exact .behind moves_openBuffer fun _ => .after (moves_newChars _) fun _ =>
      .behind (counts_booksOf.store _ _) fun _ => .behind (counts_booksOf.store _ _) fun _ =>
        leaves_replayCreate
  | piEnqueueMemBufferRead =>
    obtain ⟨rfl, rfl⟩ := Prod.mk.inj (Option.some.inj single)
    exact .behind moves_openBuffer fun _ => .behind (counts_booksOf.store _ _) fun _ => leaves_replayCreate
  | piextUSMEnqueueMemcpy =>
    obtain ⟨rfl, rfl⟩ := Prod.mk.inj (Option.some.inj single)
    change LeavesHandle host _ 0 (replayUSMEnqueueMemcpy host record _ _ _)
    rw [replayUSMEnqueueMemcpy]
    split
    · exact .behind moves_openBuffer fun _ => .behind (counts_booksOf.store _ _) fun _ => leaves_replayCreate
    · exact leaves_replayCreate
  | _ => cases single

end Delivery

/-! ## Runs -/

variable {host : ReplayHost} {call : PiCall}

/-- What becomes of a call whose entry accepts the record, apart from where the trace is then. -/
structure OwnReplay (host : ReplayHost) (call : PiCall) (record : APICall) (s : Replay) : Prop where
  ok : ∀ world, (piPluginInit host call).body record s.world = .ok ((), world) →
    ∃ code next, replay host call s = .ok (code, next) ∧ next.world = world
  error : ∀ fault, (piPluginInit host call).body record s.world = .error fault →
    replay host call s = .error fault

theorem ownReplay_of_read {s : Replay} {record : APICall} {trace : IStream}
    (read : getNextRecord host.pb (host.junk s.records) (ensureTraceOpened host s) =
      .ok (record, trace))
    (id : record.function_id = host.pi.number (piPluginInit host call).expected) :
    OwnReplay host call record s := by
  constructor
  · intro world ran
    rw [replay_of_read read, if_neg (not_not.mpr id), ran]
    exact ⟨_, _, rfl, rfl⟩
  · intro fault ran
    rw [replay_of_read read, if_neg (not_not.mpr id), ran]

/-- The call returns, in some thread and from some record, and leaves this world; the application may
have written its memory and made or deleted arrays before. -/
def ServesCall (host : ReplayHost) (call : PiCall) (world next : World) : Prop :=
  ∃ memory arrays traceFile GTrace records code after,
    replay { host with traceFile } call ⟨GTrace, records, { world with memory, arrays }⟩ =
        .ok (code, after) ∧
      after.world = next

/-- Calls that return one after another, each with the world it leaves. -/
def ServedRun (host : ReplayHost) : List (PiCall × World) → World → Prop
  | [], _ => True
  | (call, next) :: steps, world => ServesCall host call world next ∧ ServedRun host steps next

def lastWorld : List (PiCall × World) → World → World
  | [], world => world
  | (_, next) :: steps, _ => lastWorld steps next

/-- The numbers of the objects that calls create, when the first allocation has the given number. -/
def objectNumbers : List PiCall → ℕ → List ℕ
  | [], _ => []
  | call :: calls, first =>
    (outParameters call).objects first ++
      objectNumbers calls (first + (outParameters call).allocated)

theorem ServesCall.body {world next : World} (serves : ServesCall host call world next) :
    ∃ memory arrays traceFile record,
      (piPluginInit { host with traceFile } call).body record { world with memory, arrays } =
        .ok ((), next) := by
  obtain ⟨memory, arrays, traceFile, GTrace, records, code, after, ran, rfl⟩ := serves
  obtain ⟨record, trace, -, body, -⟩ := read_of_replay ran
  exact ⟨memory, arrays, traceFile, record, body⟩

theorem ServesCall.books {world next : World} (serves : ServesCall host call world next) :
    booksOf next = account host call (booksOf world) := by
  obtain ⟨memory, arrays, traceFile, record, body⟩ := serves.body
  have moved := moves_body call { world with memory, arrays } _ next body
  exact moved

theorem ServesCall.allocations {world next : World} (serves : ServesCall host call world next) :
    next.allocations = world.allocations + (outParameters call).allocated :=
  congrArg Books.allocations serves.books

theorem ServedRun.append {before after : List (PiCall × World)} {start : World} :
    ServedRun host (before ++ after) start ↔
      ServedRun host before start ∧ ServedRun host after (lastWorld before start) := by
  induction before generalizing start with
  | nil => simp [ServedRun, lastWorld]
  | cons step before ih => simp only [List.cons_append, ServedRun, lastWorld, ih, and_assoc]

theorem lastWorld_append (before after : List (PiCall × World)) (start : World) :
    lastWorld (before ++ after) start = lastWorld after (lastWorld before start) := by
  induction before generalizing start with
  | nil => rfl
  | cons step before ih => exact ih _

/-- The numbers go on behind a run where it has left the allocations. -/
theorem objectNumbers_append {before : List (PiCall × World)} {start : World}
    (run : ServedRun host before start) (calls : List PiCall) :
    objectNumbers (before.map Prod.fst ++ calls) start.allocations =
      objectNumbers (before.map Prod.fst) start.allocations ++
        objectNumbers calls (lastWorld before start).allocations := by
  induction before generalizing start with
  | nil => rfl
  | cons step before ih =>
    obtain ⟨serves, rest⟩ := run
    rw [List.map_cons, List.cons_append, objectNumbers, objectNumbers, ← serves.allocations, ih rest,
      List.append_assoc]
    rfl

end DpcppTrace.Soundness
