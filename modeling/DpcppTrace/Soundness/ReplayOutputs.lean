import DpcppTrace.Soundness.ReplayRuns

/-! # Handles that replay returns

An entry that creates an object stores the address of a new `int` through the pointer it is given, which
most entries do not test. These addresses are what the program knows its objects by, and no `int` is
ever released, so no two objects of a run share one. `piProgramLink` creates nothing.
-/

namespace DpcppTrace.Soundness

open Foundation Model Effect

/-- The places of a call for handles. -/
def OutParameters.places : OutParameters → List ℕ
  | .handle pointer | .mapped pointer _ | .linked pointer =>
    if pointer = 0 then [] else [pointer.toNat]
  | .handles array numEntries =>
    if array = 0 then [] else (List.range numEntries.toNat).map fun i => array.toNat + 8 * i
  | .absent | .memory _ => []

/-- The handle is the address of something allocated between two worlds. -/
def Allocated (host : ReplayHost) (world next : World) (handle : UInt64) : Prop :=
  ∃ index, world.allocations ≤ index ∧ index < next.allocations ∧ host.heap index = handle

/-- A call of the run has returned the handle. -/
def IssuedIn (host : ReplayHost) : List (PiCall × World) → World → UInt64 → Prop
  | [], _, _ => False
  | (call, next) :: steps, world, handle =>
    (Allocated host world next handle ∧
      ∃ place ∈ (outParameters call).places, handleAt next place = handle) ∨
      IssuedIn host steps next handle

/-- All places of the call have handles of its own, no two the same and none returned before. -/
structure FreshHandles (host : ReplayHost) (steps : List (PiCall × World)) (start : World)
    (call : PiCall) (world next : World) : Prop where
  allocated : ∀ place ∈ (outParameters call).places, Allocated host world next (handleAt next place)
  fresh : ∀ place ∈ (outParameters call).places, ¬IssuedIn host steps start (handleAt next place)
  distinct : ((outParameters call).places.map (handleAt next)).Nodup

/-- The recorded call has returned `PI_SUCCESS`. -/
def Succeeded (after : CallEnd) : Prop := after.result = 0

/-- Behind a run, the call fills its places with fresh handles if it was recorded as successful, and it
writes through no null pointer. -/
structure OutputsServed (host : ReplayHost) (steps : List (PiCall × World)) (start : World)
    (call : PiCall) (after : CallEnd) (s : Replay) : Prop where
  received : Succeeded after → (outParameters call).places ≠ [] → ∃ code next,
    replay host call s = .ok (code, next) ∧ FreshHandles host steps start call s.world next.world
  unharmed : replay host call s ≠ .error .nullWrite

/-- The single pointer is not null if the entry comes as far as to write it, and where it is given for a
successful call, the entry comes that far and to its end. -/
def HandleReached (after : CallEnd) (pointer : UInt64) (before behind : Prop) : Prop :=
  (before → pointer ≠ 0) ∧ (Succeeded after → pointer ≠ 0 → before ∧ behind)

/-- The pointers that a call gives: none for a linked program; one for the event of a transfer if the
entry comes that far; one for memory if the heap can serve it; and one for any other single object. What
is unmapped is live. -/
def OutputsGiven (host : ReplayHost) (handler : RecordHandler) (after : CallEnd)
    (arrays : UInt64 → Option ℕ) : PiCall → Prop
  | .piProgramLink _ _ _ _ _ _ _ _ ret_program => Succeeded after → ret_program = 0
  | .piEnqueueMemBufferMap _ _ _ _ _ _ _ _ event _ =>
    HandleReached after event
      (handler.mSkipMemObjects = true ∧ objSize host handler after ≤ host.largest) True
  | .piEnqueueMemBufferRead _ _ _ _ _ _ _ _ event =>
    HandleReached after event (handler.mSkipMemObjects = true) True
  | .piEnqueueMemUnmap _ _ mapped_ptr _ _ event =>
    HandleReached after event True (Deletable mapped_ptr arrays)
  | .piextUSMDeviceAlloc result_ptr _ _ _ size _ | .piextUSMHostAlloc result_ptr _ _ size _ =>
    size.toNat ≤ host.largest → result_ptr ≠ 0
  | call => ∀ pointer, outParameters call = .handle pointer → pointer ≠ 0

/-- What `new` guarantees: objects that nobody releases have different addresses, and those for the
elements of an array are not made in the array. -/
structure NewApart (host : ReplayHost) (steps : List (PiCall × World)) (start : World) (call : PiCall) :
    Prop where
  objects : ((objectNumbers (steps.map Prod.fst ++ [call]) start.allocations).map host.heap).Nodup
  outside : ∀ array numEntries, outParameters call = .handles array numEntries → array ≠ 0 →
    ∀ i < numEntries.toNat,
      Memory.Apart (host.heap ((lastWorld steps start).allocations + i)).toNat 4 array.toNat
        (8 * numEntries.toNat)

variable {host : ReplayHost} {steps : List (PiCall × World)} {start : World} {call : PiCall}

/-! ## Handles are the addresses of objects -/

private theorem places_of_single {parameters : OutParameters} {pointer : UInt64} {number : ℕ}
    (single : parameters.single = some (pointer, number)) :
    parameters.places = if pointer = 0 then [] else [pointer.toNat] := by
  cases parameters with
  | handle | mapped =>
    obtain ⟨rfl, -⟩ := Prod.mk.inj (Option.some.inj single)
    rfl
  | _ => cases single

private theorem objects_of_single {parameters : OutParameters} {pointer : UInt64} {number : ℕ}
    (single : parameters.single = some (pointer, number)) (first : ℕ) :
    parameters.objects first = [first + number] := by
  cases parameters with
  | handle | mapped =>
    obtain ⟨-, rfl⟩ := Prod.mk.inj (Option.some.inj single)
    rfl
  | _ => cases single

/-- A returning call has put the address of its single object in its place. -/
theorem delivered_single {record : APICall} {world next : World} {pointer : UInt64} {number : ℕ}
    (single : (outParameters call).single = some (pointer, number))
    (ran : (piPluginInit host call).body record world = .ok ((), next)) :
    (outParameters call).places.map (handleAt next) =
      ((outParameters call).objects world.allocations).map host.heap := by
  obtain ⟨nonnull, delivered⟩ := leaves_body single world () next ran
  rw [places_of_single single, objects_of_single single, if_neg nonnull]
  exact congrArg (fun handle => [handle]) delivered

/-- What a call of a run returns is the address of an object. -/
theorem mem_objects_of_allocated {world next : World} (serves : ServesCall host call world next)
    {place : ℕ} (member : place ∈ (outParameters call).places)
    (allocated : Allocated host world next (handleAt next place)) :
    handleAt next place ∈ ((outParameters call).objects world.allocations).map host.heap := by
  rcases single : (outParameters call).single with _ | ⟨pointer, number⟩
  · obtain ⟨index, from_, until_, address⟩ := allocated
    rw [serves.allocations] at until_
    rw [← address]
    apply List.mem_map_of_mem
    generalize outParameters call = parameters at member until_ single
    cases parameters with
    | handle | mapped => cases single
    | absent | memory => cases member
    | linked => simp only [OutParameters.allocated] at until_; omega
    | handles array numEntries =>
      simp only [OutParameters.allocated] at until_
      rw [OutParameters.objects]
      split_ifs at until_ ⊢
      · exact List.mem_range'_1.mpr ⟨from_, until_⟩
      · omega
  · obtain ⟨memory, arrays, traceFile, record, ran⟩ := serves.body
    have delivered := delivered_single single ran
    have here := List.mem_map_of_mem (f := handleAt next) member
    rw [delivered] at here
    exact here

private theorem mem_objectNumbers_of_issued (run : ServedRun host steps start) {handle : UInt64}
    (issued : IssuedIn host steps start handle) :
    handle ∈ (objectNumbers (steps.map Prod.fst) start.allocations).map host.heap := by
  induction steps generalizing start with
  | nil => exact issued.elim
  | cons step steps ih =>
    obtain ⟨serves, rest⟩ := run
    rw [List.map_cons, objectNumbers, List.map_append, List.mem_append]
    rcases issued with ⟨allocated, place, member, rfl⟩ | later
    · exact .inl (mem_objects_of_allocated serves member allocated)
    · refine .inr ?_
      rw [← serves.allocations]
      exact ih rest later

/-- Addresses of objects of the call's own are fresh. -/
theorem freshHandles_of_delivered {world next : World} (run : ServedRun host steps start)
    (apart : NewApart host steps start call)
    (standing : world.allocations = (lastWorld steps start).allocations)
    (allocations : next.allocations = world.allocations + (outParameters call).allocated)
    (delivered : (outParameters call).places.map (handleAt next) =
      ((outParameters call).objects world.allocations).map host.heap) :
    FreshHandles host steps start call world next := by
  have objects := apart.objects
  rw [objectNumbers_append run, List.map_append, List.nodup_append, ← standing] at objects
  obtain ⟨-, own, others⟩ := objects
  have single : objectNumbers [call] world.allocations =
      (outParameters call).objects world.allocations := List.append_nil _
  rw [single] at own others
  have placed {place : ℕ} (member : place ∈ (outParameters call).places) :
      handleAt next place ∈ ((outParameters call).objects world.allocations).map host.heap := by
    rw [← delivered]
    exact List.mem_map_of_mem member
  refine ⟨fun place member => ?_, fun place member issued => ?_, ?_⟩
  · obtain ⟨index, object, address⟩ := List.mem_map.mp (placed member)
    have bounds := OutParameters.objects_lt object
    exact ⟨index, bounds.1, by omega, address⟩
  · exact others _ (mem_objectNumbers_of_issued run issued) _ (placed member) rfl
  · rw [delivered]
    exact own

/-! ## Arrays of objects -/

/-- Another element, and the object that it is the handle of. -/
def storeElement (host : ReplayHost) (array : UInt64) (count : ℕ) (world : World) : World :=
  let handle := host.heap world.allocations
  { world with
    memory := (world.memory.write handle.toNat (leBytes 4 1)).write (array.toNat + 8 * count)
      (leBytes 8 handle.toNat)
    allocations := world.allocations + 1 }

private theorem storeHandles_succ {array : UInt64} {count : ℕ} {world mid : World}
    (ran : storeHandles host array count world = .ok ((), mid)) :
    storeHandles host array (count + 1) world = .ok ((), storeElement host array count mid) := by
  rw [storeHandles, bind_ok ran]
  rfl

/-- The elements before it stay. -/
theorem read_storeElement {array : UInt64} {total count i : ℕ} {world : World}
    (outside : Memory.Apart (host.heap world.allocations).toNat 4 array.toNat (8 * total))
    (within : count < total) (before : i < count) :
    (storeElement host array count world).memory.read (array.toNat + 8 * i) 8 =
      world.memory.read (array.toNat + 8 * i) 8 := by
  have element : Memory.Apart (array.toNat + 8 * count)
      (leBytes 8 (host.heap world.allocations).toNat).length (array.toNat + 8 * i) 8 := by
    rw [leBytes_length]
    intro j small k part
    omega
  have object : Memory.Apart (host.heap world.allocations).toNat (leBytes 4 1).length
      (array.toNat + 8 * i) 8 := by
    rw [leBytes_length]
    intro j small k part
    have apart := outside j small (8 * i + k) (by omega)
    rwa [← Nat.add_assoc] at apart
  rw [storeElement, Memory.read_write_apart element, Memory.read_write_apart object]

/-- The elements keep their handles while later objects are made outside of the array. -/
theorem storeHandles_delivers {array : UInt64} {total : ℕ} (world : World)
    (outside : ∀ i < total,
      Memory.Apart (host.heap (world.allocations + i)).toNat 4 array.toNat (8 * total))
    {count : ℕ} (within : count ≤ total) :
    ∃ next, storeHandles host array count world = .ok ((), next) ∧
      next.allocations = world.allocations + count ∧
      ∀ i < count, next.memory.read (array.toNat + 8 * i) 8 =
        leBytes 8 (host.heap (world.allocations + i)).toNat := by
  induction count with
  | zero => exact ⟨world, rfl, rfl, fun i inside => absurd inside (Nat.not_lt_zero i)⟩
  | succ count ih =>
    obtain ⟨mid, ran, allocations, stored⟩ := ih (by omega)
    refine ⟨_, storeHandles_succ ran, congrArg (· + 1) allocations, ?_⟩
    intro i inside
    rcases Nat.lt_succ_iff_lt_or_eq.mp inside with before | rfl
    · have away := outside count (by omega)
      rw [← allocations] at away
      rw [read_storeElement away (by omega) before]
      exact stored i before
    · rw [← allocations]
      exact Memory.read_write _ _ _

private theorem replayCount_delivers {numEntries : UInt32} {array count : UInt64} {record : APICall}
    {after : CallEnd} (stored : record.small_outputs = (handleCount count after).small_outputs)
    {world : World}
    (outside : array ≠ 0 → ∀ i < numEntries.toNat,
      Memory.Apart (host.heap (world.allocations + i)).toNat 4 array.toNat (8 * numEntries.toNat)) :
    ∃ next, replayCount host record numEntries array count world = .ok ((), next) ∧
      (array ≠ 0 → ∀ i < numEntries.toNat, handleAt next (array.toNat + 8 * i) =
        host.heap (world.allocations + i)) := by
  have fill (mid : World) (same : mid.allocations = world.allocations) :
      ∃ next, (if numEntries > 0 ∧ array ≠ 0 then storeHandles host array numEntries.toNat
          else pure () : Effect Unit) mid = .ok ((), next) ∧
        (array ≠ 0 → ∀ i < numEntries.toNat, handleAt next (array.toNat + 8 * i) =
          host.heap (world.allocations + i)) := by
    split
    · next wanted =>
      obtain ⟨next, ran, -, delivered⟩ := storeHandles_delivers mid
        (by rw [same]; exact outside wanted.2) le_rfl
      refine ⟨next, ran, fun _ i inside => handleAt_of_read ?_⟩
      rw [delivered i inside, same]
    · next unwanted =>
      refine ⟨mid, rfl, fun nonnull i inside => absurd ⟨?_, nonnull⟩ unwanted⟩
      exact UInt32.lt_iff_toNat_lt.mpr (Nat.zero_lt_of_lt inside)
  rw [replayCount]
  split
  · next nonnull =>
    rw [handleCount, if_pos nonnull] at stored
    rw [(returns_smallOutputWord stored (by simp)).bind]
    have written : Total (store count ((after.memory.read count.toNat 4).take 4)) :=
      total_store (.inl nonnull)
    obtain ⟨⟨⟩, mid, ran⟩ := written world
    rw [bind_ok ran]
    exact fill mid (congrArg Books.allocations (counts_booksOf.store _ _ world () mid ran))
  · exact fill world rfl

/-! ## The judged call -/

section Own

variable {handler : RecordHandler} {after : CallEnd} {outputs : Outputs} {records : List APICall}
  {s : Replay}

private theorem expected_of_declared (declared : outParameters call ≠ .absent) :
    (piPluginInit host call).expected = call.api := by
  cases call <;> first | rfl | exact absurd rfl declared

private theorem ownReplay (declared : outParameters call ≠ .absent)
    (framable : Framable host.pb (outputs.record host.pi call after))
    (synced : ensureTraceOpened host s =
      { rest := written host.pb (outputs.record host.pi call after :: records) }) :
    OwnReplay host call (outputs.record host.pi call after) s := by
  apply ownReplay_of_read (getNextRecord_framed framable synced)
  rw [expected_of_declared declared]
  rfl

variable {record : APICall} (own : OwnReplay host call record s) (run : ServedRun host steps start)
  (apart : NewApart host steps start call)
  (standing : s.world.allocations = (lastWorld steps start).allocations)

include own run apart standing

private theorem served_of_delivered {world : World}
    (ran : (piPluginInit host call).body record s.world = .ok ((), world))
    (delivered : (outParameters call).places.map (handleAt world) =
      ((outParameters call).objects s.world.allocations).map host.heap) :
    OutputsServed host steps start call after s := by
  obtain ⟨code, next, answered, rfl⟩ := own.ok world ran
  have allocations : next.world.allocations = s.world.allocations + (outParameters call).allocated :=
    congrArg Books.allocations (moves_body call s.world () next.world ran)
  refine ⟨fun _ _ => ⟨code, next, answered, ?_⟩, ?_⟩
  · exact freshHandles_of_delivered run apart standing allocations delivered
  · rw [answered]
    exact fun wrong => by cases wrong

/-- An entry that stores a single object behind one condition, and returns behind another one. -/
theorem served_iff_of_single {pointer : UInt64} {number : ℕ} {before behind : Prop}
    (single : (outParameters call).single = some (pointer, number))
    (served : before → behind → pointer ≠ 0 →
      ∃ world, (piPluginInit host call).body record s.world = .ok ((), world))
    (null : before → pointer = 0 →
      (piPluginInit host call).body record s.world = .error .nullWrite)
    (blocked : ¬before ∨ pointer ≠ 0 ∧ ¬behind → ∃ fault, fault ≠ .nullWrite ∧
      (piPluginInit host call).body record s.world = .error fault) :
    OutputsServed host steps start call after s ↔ HandleReached after pointer before behind := by
  have places := places_of_single single
  have stuck (stops : ¬before ∨ pointer ≠ 0 ∧ ¬behind) :
      OutputsServed host steps start call after s ↔ ¬(Succeeded after ∧ pointer ≠ 0) := by
    obtain ⟨fault, other, faults⟩ := blocked stops
    have stopped := own.error fault faults
    constructor
    · rintro outputs ⟨success, nonnull⟩
      obtain ⟨code, next, answered, -⟩ := outputs.received success (by
        rw [places, if_neg nonnull]
        exact List.cons_ne_nil _ _)
      rw [stopped] at answered
      cases answered
    · intro idle
      refine ⟨fun success wanted => absurd ?_ wanted, fun wrong => other ?_⟩
      · rw [places, if_pos (by_contra fun nonnull => idle ⟨success, nonnull⟩)]
      · rw [stopped] at wrong
        exact Except.error.inj wrong
  by_cases reached : before
  · by_cases given : pointer = 0
    · refine iff_of_false (fun outputs => ?_) fun wanted => wanted.1 reached given
      exact outputs.unharmed (own.error _ (null reached given))
    · by_cases ends : behind
      · obtain ⟨world, ran⟩ := served reached ends given
        refine iff_of_true ?_ ⟨fun _ => given, fun _ _ => ⟨reached, ends⟩⟩
        exact served_of_delivered own run apart standing ran (delivered_single single ran)
      · rw [stuck (.inr ⟨given, ends⟩)]
        constructor
        · exact fun idle => ⟨fun _ => given, fun success _ => absurd ⟨success, given⟩ idle⟩
        · exact fun wanted success => ends (wanted.2 success.1 given).2
  · rw [stuck (.inl reached)]
    constructor
    · exact fun idle => ⟨fun here => absurd here reached,
        fun success nonnull => absurd ⟨success, nonnull⟩ idle⟩
    · exact fun wanted success => reached (wanted.2 success.1 success.2).1

/-- An entry that does nothing else before its object is served exactly if the pointer is not null. -/
theorem served_iff_of_handle {pointer : UInt64} (handle : outParameters call = .handle pointer)
    (served : pointer ≠ 0 → Total ((piPluginInit host call).body record))
    (null : pointer = 0 → FaultsWith .nullWrite ((piPluginInit host call).body record)) :
    OutputsServed host steps start call after s ↔
      ∀ pointer, outParameters call = .handle pointer → pointer ≠ 0 := by
  have single : (outParameters call).single = some (pointer, 0) := by rw [handle]; rfl
  rw [served_iff_of_single own run apart standing single
    (fun _ : True => fun _ : True => fun nonnull => (served nonnull).ok s.world)
    (fun _ zero => null zero s.world) (by simp), HandleReached, handle]
  constructor
  · rintro ⟨nonnull, -⟩ _ ⟨⟩
    exact nonnull trivial
  · exact fun given => ⟨fun _ => given pointer rfl, fun _ _ => ⟨trivial, trivial⟩⟩

/-- An entry that only makes an array of characters is served exactly if it does not store its address
through a null pointer. -/
theorem served_iff_of_memory {result_ptr size : UInt64}
    (memory : outParameters call = .memory result_ptr)
    (body : (piPluginInit host call).body record = replayUSMAlloc host result_ptr size) :
    OutputsServed host steps start call after s ↔ (size.toNat ≤ host.largest → result_ptr ≠ 0) := by
  have unwanted : (outParameters call).places = [] := by rw [memory]; rfl
  by_cases fits : size.toNat ≤ host.largest
  · rw [forall_prop_of_true fits]
    constructor
    · intro outputs null
      have faults : FaultsWith .nullWrite (replayUSMAlloc host result_ptr size) :=
        .after (total_newChars fits) fun _ _ => if_pos ⟨null, List.cons_ne_nil _ _⟩
      exact outputs.unharmed (own.error _ (body ▸ faults s.world))
    · intro nonnull
      obtain ⟨⟨⟩, world, ran⟩ := total_replayUSMAlloc fits nonnull s.world
      apply served_of_delivered own run apart standing (body ▸ ran)
      rw [memory, OutParameters.places, OutParameters.objects, List.map_nil, List.map_nil]
  · refine iff_of_true ?_ (fun served => absurd served fits)
    have stopped := own.error .badAlloc (by
      rw [body]
      exact bind_error _ (if_pos (Nat.not_le.mp fits)))
    refine ⟨fun _ wanted => absurd unwanted wanted, ?_⟩
    rw [stopped]
    exact fun wrong => by cases wrong

/-- Every element of an array gets a handle of its own, and none is wanted where it is null. -/
theorem served_of_handles {numEntries : UInt32} {array count : UInt64}
    (handles : outParameters call = .handles array numEntries)
    (body : (piPluginInit host call).body record = replayCount host record numEntries array count)
    (stored : record.small_outputs = (handleCount count after).small_outputs) :
    OutputsServed host steps start call after s := by
  have outside := apart.outside array numEntries handles
  rw [← standing] at outside
  obtain ⟨world, ran, delivered⟩ := replayCount_delivers stored outside
  apply served_of_delivered own run apart standing (by rw [body]; exact ran)
  rw [handles, OutParameters.places, OutParameters.objects]
  by_cases null : array = 0
  · rw [if_pos null, if_neg fun wanted => wanted.2 null, List.map_nil, List.map_nil]
  · rw [if_neg null, List.map_map]
    have elements : (List.range numEntries.toNat).map (handleAt world ∘ fun i => array.toNat + 8 * i) =
        (List.range' s.world.allocations numEntries.toNat).map host.heap := by
      rw [List.range'_eq_map_range, List.map_map]
      exact List.map_congr_left fun i member => delivered null i (List.mem_range.mp member)
    rw [elements]
    split
    · rfl
    · next empty =>
      have none : numEntries.toNat = 0 := by
        by_contra some
        exact empty ⟨UInt32.lt_iff_toNat_lt.mpr (Nat.pos_of_ne_zero some), null⟩
      rw [none]
      rfl

/-- Nothing is stored in the place for a linked program. -/
theorem served_iff_of_linked {ret_program : UInt64} (linked : outParameters call = .linked ret_program)
    (body : (piPluginInit host call).body record = pure ()) :
    OutputsServed host steps start call after s ↔ (Succeeded after → ret_program = 0) := by
  have ran : (piPluginInit host call).body record s.world = .ok ((), s.world) := by rw [body]; rfl
  constructor
  · intro outputs success
    by_contra nonnull
    have places : (outParameters call).places = [ret_program.toNat] := by
      rw [linked, OutParameters.places, if_neg nonnull]
    obtain ⟨code, next, answered, fresh⟩ := outputs.received success (by simp [places])
    obtain ⟨_, _, own, same⟩ := own.ok s.world ran
    rw [answered] at own
    obtain ⟨-, rfl⟩ := Prod.mk.inj (Except.ok.inj own)
    obtain ⟨index, from_, until_, -⟩ := fresh.allocated ret_program.toNat (by simp [places])
    rw [same] at until_
    omega
  · intro unwanted
    by_cases null : ret_program = 0
    · apply served_of_delivered own run apart standing ran
      rw [linked, OutParameters.places, if_pos null, OutParameters.objects, List.map_nil, List.map_nil]
    · obtain ⟨code, next, answered, -⟩ := own.ok s.world ran
      refine ⟨fun success => absurd (unwanted success) null, ?_⟩
      rw [answered]
      exact fun wrong => by cases wrong

end Own

/-! ## The entries -/

section Entries

variable {handler : RecordHandler} {after : CallEnd} {outputs : Outputs} {record : APICall}
  {pointer : UInt64}

private theorem faults_at {other : ReplayFault} {action : Effect Unit}
    (faults : ∃ fault, fault ≠ other ∧ FaultsWith fault action) (world : World) :
    ∃ fault, fault ≠ other ∧ action world = .error fault := by
  obtain ⟨fault, differs, always⟩ := faults
  exact ⟨fault, differs, always world⟩

private theorem faultsWith_storeHandle (null : pointer = 0) :
    FaultsWith .nullWrite (storeHandle host pointer) := fun world => by rw [storeHandle_eq, if_pos null]

private theorem faultsWith_replayCreate (null : pointer = 0) :
    FaultsWith .nullWrite (replayCreate host pointer) := (faultsWith_storeHandle null).bind _

/-- What follows an allocation may rely on an address that is not null. -/
theorem faultsWith_newChars_bind {size : ℕ} {fault : ReplayFault} (fits : size ≤ host.largest)
    {rest : UInt64 → Effect Unit}
    (then_ : ∀ address, address ≠ 0 → FaultsWith fault (rest address)) :
    FaultsWith fault (newChars host size >>= rest) := by
  intro world
  rw [bind_ok (newChars_served fits world)]
  exact then_ _ (host.heap_ne_zero _) _

/-- Without a recorded buffer, or with one that is too large, no event is made. -/
theorem blocked_replayMemBufferMap {size event ret_map : UInt64}
    (handled : handleEnqueueMemBufferMap handler size ret_map after = some outputs)
    (stored : record.mem_obj_outputs = outputs.mem_obj_outputs)
    (blocked : ¬(handler.mSkipMemObjects = true ∧ objSize host handler after ≤ host.largest)) :
    ∃ fault, fault ≠ .nullWrite ∧ FaultsWith fault (replayMemBufferMap host record event ret_map) := by
  rw [handleEnqueueMemBufferMap] at handled
  split_ifs at handled with saving null
  · rw [(saveBuffer_some handled).1] at stored
    have large : host.largest < objSize host handler after :=
      Nat.not_le.mp fun fits => blocked ⟨saving, fits⟩
    have faults : FaultsWith .badAlloc (newChars host (objSize host handler after)) :=
      fun world => if_pos large
    refine ⟨.badAlloc, by decide, ?_⟩
    rw [replayMemBufferMap, (returns_openBuffer host stored).bind]
    exact faults.bind _
  · obtain rfl := Option.some.inj handled
    have faults : FaultsWith .missingMemObj (openBuffer host record) :=
      fun world => by simp [openBuffer, stored]
    exact ⟨.missingMemObj, by decide, faults.bind _⟩

private theorem null_replayMemBufferMap {size ret_map : UInt64}
    (handled : handleEnqueueMemBufferMap handler size ret_map after = some outputs)
    (stored : record.mem_obj_outputs = outputs.mem_obj_outputs)
    (gate : handler.mSkipMemObjects = true ∧ objSize host handler after ≤ host.largest)
    (null : pointer = 0) :
    FaultsWith .nullWrite (replayMemBufferMap host record pointer ret_map) := by
  rw [handleEnqueueMemBufferMap, if_pos gate.1] at handled
  split_ifs at handled with unmapped
  rw [(saveBuffer_some handled).1] at stored
  rw [replayMemBufferMap, (returns_openBuffer host stored).bind]
  apply faultsWith_newChars_bind gate.2
  intro memory served
  apply FaultsWith.after (total_store (.inl served))
  intro _
  exact .after (total_storePointer unmapped _) fun _ => faultsWith_replayCreate null

private theorem blocked_replayMemBufferRead {size ptr event : UInt64}
    (handled : handleEnqueueMemBufferRead handler size ptr after = some outputs)
    (stored : record.mem_obj_outputs = outputs.mem_obj_outputs)
    (blocked : ¬handler.mSkipMemObjects = true) :
    ∃ fault, fault ≠ .nullWrite ∧ FaultsWith fault (replayMemBufferRead host record size ptr event) := by
  rw [handleEnqueueMemBufferRead, if_neg blocked] at handled
  obtain rfl := Option.some.inj handled
  have faults : FaultsWith .missingMemObj (openBuffer host record) :=
    fun world => by simp [openBuffer, stored]
  exact ⟨.missingMemObj, by decide, faults.bind _⟩

private theorem null_replayMemBufferRead {size ptr : UInt64}
    (handled : handleEnqueueMemBufferRead handler size ptr after = some outputs)
    (stored : record.mem_obj_outputs = outputs.mem_obj_outputs)
    (saving : handler.mSkipMemObjects = true) (null : pointer = 0) :
    FaultsWith .nullWrite (replayMemBufferRead host record size ptr pointer) := by
  rw [handleEnqueueMemBufferRead, if_pos saving] at handled
  obtain ⟨file, place⟩ := saveBuffer_some handled
  rw [file] at stored
  rw [replayMemBufferRead, (returns_openBuffer host stored).bind]
  exact .after (total_delivered place _) fun _ => faultsWith_replayCreate null

private theorem null_replayUSMEnqueueMemcpy {size dst_ptr : UInt64}
    (handled : handleUSMEnqueueMemcpy handler size dst_ptr after = some outputs)
    (stored : record.mem_obj_outputs = outputs.mem_obj_outputs) (null : pointer = 0) :
    FaultsWith .nullWrite (replayUSMEnqueueMemcpy host record size dst_ptr pointer) := by
  rw [handleUSMEnqueueMemcpy] at handled
  split_ifs at handled
  · obtain ⟨file, place⟩ := saveBuffer_some handled
    rw [file] at stored
    rw [replayUSMEnqueueMemcpy, if_pos (by simp [stored]), (returns_openBuffer host stored).bind]
    exact .after (total_delivered place _) fun _ => faultsWith_replayCreate null
  · obtain rfl := Option.some.inj handled
    rw [replayUSMEnqueueMemcpy, if_neg (by simp [stored])]
    exact faultsWith_replayCreate null

end Entries

/-- An unmapped array that is not live stops the entry behind its event. -/
theorem stuck_replayMemUnmap {mapped_ptr : UInt64} {world : World} (nonnull : pointer ≠ 0)
    (dead : ¬Deletable mapped_ptr world.arrays) :
    replayMemUnmap host mapped_ptr pointer world = .error .invalidFree := by
  obtain ⟨⟨⟩, next, created⟩ := total_replayCreate host nonnull world
  rw [replayMemUnmap_eq created, if_neg dead]

/-- Behind any run, an entry with parameters for objects, events or memory serves a recorded call
exactly if the call gives the pointers that the entry writes, and asks for no linked program. -/
theorem outputs_served_iff (host : ReplayHost) (handler : RecordHandler)
    (steps : List (PiCall × World)) (start : World) (run : ServedRun host steps start) (call : PiCall)
    (after : CallEnd) (outputs : Outputs) (handled : handler.outputs call after = some outputs)
    (declared : outParameters call ≠ .absent)
    (framable : Framable host.pb (outputs.record host.pi call after))
    (apart : NewApart host steps start call) (s : Replay)
    (standing : booksOf s.world = booksOf (lastWorld steps start)) (records : List APICall)
    (synced : ensureTraceOpened host s =
      { rest := written host.pb (outputs.record host.pi call after :: records) }) :
    OutputsServed host steps start call after s ↔
      OutputsGiven host handler after s.world.arrays call := by
  have own := ownReplay declared framable synced
  replace standing := congrArg Books.allocations standing
  cases call with
  | piPlatformsGet | piDevicesGet =>
    obtain rfl := Option.some.inj handled
    exact iff_of_true (served_of_handles own run apart standing rfl rfl rfl)
      fun pointer wrong => by cases wrong
  | piContextCreate | piQueueCreate | piProgramCreateWithBinary | piProgramCreate
  | piEnqueueKernelLaunch | piEnqueueEventsWait | piEnqueueEventsWaitWithBarrier
  | piextUSMEnqueueMemset =>
    exact served_iff_of_handle own run apart standing rfl (total_replayCreate host)
      faultsWith_replayCreate
  | piMemBufferCreate | piKernelCreate =>
    exact served_iff_of_handle own run apart standing rfl
      (fun nonnull => (total_storeHandle host nonnull).bind fun _ => total_modify _)
      (fun null => (faultsWith_storeHandle null).bind _)
  | piEnqueueMemUnmap =>
    refine served_iff_of_single own run apart standing rfl (fun _ live nonnull => ?_)
      (fun _ null => (faultsWith_replayCreate null).bind _ _) (fun stops => ?_)
    · exact (entry_runs handled nonnull s.world).2.mpr fun pointer deletes => by
        obtain rfl := Option.some.inj deletes
        exact live
    · obtain ⟨nonnull, dead⟩ := stops.resolve_left (not_not.mpr trivial)
      exact ⟨.invalidFree, by decide, stuck_replayMemUnmap nonnull dead⟩
  | piextUSMEnqueueMemcpy =>
    exact served_iff_of_handle own run apart standing rfl
      (fun nonnull => total_replayUSMEnqueueMemcpy handled rfl nonnull)
      (fun null => null_replayUSMEnqueueMemcpy handled rfl null)
  | piEnqueueMemBufferMap =>
    exact served_iff_of_single own run apart standing rfl
      (fun gate _ nonnull => (total_replayMemBufferMap handled rfl gate.1 gate.2 nonnull).ok s.world)
      (fun gate null => null_replayMemBufferMap handled rfl gate null s.world)
      (fun stops => faults_at (blocked_replayMemBufferMap handled rfl
        (stops.resolve_right fun ends => ends.2 trivial)) s.world)
  | piEnqueueMemBufferRead =>
    exact served_iff_of_single own run apart standing rfl
      (fun saving _ nonnull => (total_replayMemBufferRead handled rfl saving nonnull).ok s.world)
      (fun saving null => null_replayMemBufferRead handled rfl saving null s.world)
      (fun stops => faults_at (blocked_replayMemBufferRead handled rfl
        (stops.resolve_right fun ends => ends.2 trivial)) s.world)
  | piextUSMDeviceAlloc | piextUSMHostAlloc =>
    exact served_iff_of_memory own run apart standing rfl rfl
  | piProgramLink => exact served_iff_of_linked own run apart standing rfl rfl
  | _ => exact absurd rfl declared

def createContext : PiCall := .piContextCreate 0 0 0 0 0 0x3000

def createQueue : PiCall := .piQueueCreate 0x1000 0 0 0x4000

/-- What one thread's new context leaves. -/
def contextWorld : World := issue (sampleHost []) 0x3000 sampleWorld

/-- The trace file of one call. -/
def singleTrace (call : PiCall) : Bytes :=
  written wire [Outputs.record {} tableOrder call (sampleEnd 0)]

/-- Another thread's queue gets a handle of its own. -/
theorem outputs_served_iff_queue :
    OutputsServed (sampleHost (singleTrace createQueue)) [(createContext, contextWorld)] sampleWorld
      createQueue (sampleEnd 0) ⟨none, 0, contextWorld⟩ := by
  have context : ServesCall (sampleHost (singleTrace createQueue)) createContext sampleWorld contextWorld :=
    ⟨sampleWorld.memory, sampleWorld.arrays, some (singleTrace createContext), none, 0, 0, _, rfl, rfl⟩
  refine (outputs_served_iff (sampleHost (singleTrace createQueue)) sampleHandler
    [(createContext, contextWorld)] sampleWorld ⟨context, trivial⟩ createQueue (sampleEnd 0) {} rfl
    (fun wrong => by cases wrong) ?_ ?_ _ rfl [] rfl).mpr ?_
  · unfold Framable
    decide
  · exact ⟨by decide, fun array numEntries wrong => by cases wrong⟩
  · rintro pointer ⟨⟩
    decide

/-- A linked program is not returned. -/
theorem not_outputs_served :
    ¬∀ (host : ReplayHost) (handler : RecordHandler) (steps : List (PiCall × World)) (start : World),
      ServedRun host steps start → ∀ (call : PiCall) (after : CallEnd) (outputs : Outputs),
        handler.outputs call after = some outputs → outParameters call ≠ .absent →
        Framable host.pb (outputs.record host.pi call after) → NewApart host steps start call →
        ∀ s : Replay, booksOf s.world = booksOf (lastWorld steps start) → ∀ records : List APICall,
          ensureTraceOpened host s =
            { rest := written host.pb (outputs.record host.pi call after :: records) } →
          OutputsServed host steps start call after s := by
  intro always
  let link : PiCall := .piProgramLink 0x1000 0 0 ⟨0, []⟩ 0 0 0 0 0x4000
  have declared : outParameters link ≠ .absent := fun wrong => by cases wrong
  have framable : Framable wire (Outputs.record {} tableOrder link (sampleEnd 0)) := by
    unfold Framable
    decide
  have apart : NewApart (sampleHost (singleTrace link)) [] sampleWorld link :=
    ⟨by decide, fun array numEntries wrong => by cases wrong⟩
  have empty : ServedRun (sampleHost (singleTrace link)) [] sampleWorld := trivial
  have synced : ensureTraceOpened (sampleHost (singleTrace link)) ⟨none, 0, sampleWorld⟩ =
      { rest := written wire [Outputs.record {} tableOrder link (sampleEnd 0)] } := rfl
  have own : OwnReplay (sampleHost (singleTrace link)) link _ ⟨none, 0, sampleWorld⟩ :=
    ownReplay declared framable synced
  have served := always (sampleHost (singleTrace link)) sampleHandler [] sampleWorld trivial link
    (sampleEnd 0) {} rfl declared framable apart ⟨none, 0, sampleWorld⟩ rfl [] synced
  exact absurd ((served_iff_of_linked own empty apart rfl rfl rfl).mp served rfl) (by decide)

end DpcppTrace.Soundness
