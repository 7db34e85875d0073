import DpcppTrace.Foundation.Naming
import DpcppTrace.Soundness.Replay

/-! # Replaying what was transferred to host memory

Maps and reads of buffers and copies to host memory are stored in one file each, which replay reads
back. Without the files a copy is skipped, but the other two still ask the record for one.
-/

namespace DpcppTrace.Soundness

open Foundation Model Effect

/-! ## The three calls -/

inductive TransferKind where
  | map | read | memcpy
deriving DecidableEq

/-- What a transfer asks for: `ret_map`, `ptr` or `dst_ptr` is its place. -/
structure HostTransfer where
  kind : TransferKind
  size : UInt64
  place : UInt64
  event : UInt64

def transfer : PiCall → Option HostTransfer
  | .piEnqueueMemBufferMap _ _ _ _ _ size _ _ event ret_map => some ⟨.map, size, ret_map, event⟩
  | .piEnqueueMemBufferRead _ _ _ _ size ptr _ _ event => some ⟨.read, size, ptr, event⟩
  | .piextUSMEnqueueMemcpy _ _ dst_ptr _ size _ _ event => some ⟨.memcpy, size, dst_ptr, event⟩
  | _ => none

namespace HostTransfer

/-- Where the bytes are: a map returns a pointer to them. -/
def target (asked : HostTransfer) (memory : Memory) : ℕ :=
  match asked.kind with
  | .map => ofLe (memory.read asked.place.toNat 8)
  | _ => asked.place.toNat

/-- The bytes at the target. -/
def bytes (asked : HostTransfer) (memory : Memory) : Bytes :=
  memory.read (asked.target memory) asked.size.toNat

/-- The destination was found to be host memory, or no USM at all. -/
def Saves (asked : HostTransfer) (after : CallEnd) : Prop :=
  asked.kind = .memcpy → after.allocType = PI_MEM_TYPE_UNKNOWN ∨ after.allocType = PI_MEM_TYPE_HOST

instance (asked : HostTransfer) (after : CallEnd) : Decidable (asked.Saves after) :=
  inferInstanceAs (Decidable (_ → _))

end HostTransfer

/-- What a handler stores of a transfer. -/
theorem outputs_of_transfer {handler : RecordHandler} {call : PiCall} {asked : HostTransfer}
    {after : CallEnd} {outputs : Outputs} (isTransfer : transfer call = some asked)
    (handled : handler.outputs call after = some outputs) :
    outputs =
      if handler.mSkipMemObjects = true ∧ asked.Saves after then
        { mem_obj_outputs := [memFile handler after.eventId]
          buffer := some (memFile handler after.eventId,
            leBytes 8 asked.size.toNat ++ asked.bytes after.awaited) }
      else {} := by
  have saved {size : UInt64} {address : ℕ}
      (saved : saveBuffer handler size address after = some outputs) :
      outputs = { mem_obj_outputs := [memFile handler after.eventId]
                  buffer := some (memFile handler after.eventId,
                    leBytes 8 size.toNat ++ after.awaited.read address size.toNat) } := by
    rw [saveBuffer] at saved
    split_ifs at saved
    exact (Option.some.inj saved).symm
  cases call with
  | piEnqueueMemBufferMap =>
    obtain rfl := Option.some.inj isTransfer
    rw [RecordHandler.outputs, handleEnqueueMemBufferMap] at handled
    split_ifs at handled with saving null
    · rw [if_pos ⟨saving, by rintro ⟨⟩⟩]
      exact saved handled
    · rw [if_neg fun saves => saving saves.1]
      exact (Option.some.inj handled).symm
  | piEnqueueMemBufferRead =>
    obtain rfl := Option.some.inj isTransfer
    rw [RecordHandler.outputs, handleEnqueueMemBufferRead] at handled
    split_ifs at handled with saving
    · rw [if_pos ⟨saving, by rintro ⟨⟩⟩]
      exact saved handled
    · rw [if_neg fun saves => saving saves.1]
      exact (Option.some.inj handled).symm
  | piextUSMEnqueueMemcpy =>
    obtain rfl := Option.some.inj isTransfer
    rw [RecordHandler.outputs, handleUSMEnqueueMemcpy] at handled
    split_ifs at handled with saving
    · rw [if_pos ⟨saving.2, fun _ => saving.1⟩]
      exact saved handled
    · rw [if_neg fun saves => saving ⟨saves.2 rfl, saves.1⟩]
      exact (Option.some.inj handled).symm
  | _ => cases isTransfer

/-- The body of the entry of a transfer. -/
def transferBody (host : ReplayHost) (asked : HostTransfer) (record : APICall) : Effect Unit :=
  match asked.kind with
  | .map => replayMemBufferMap host record asked.event asked.place
  | .read => replayMemBufferRead host record asked.size asked.place asked.event
  | .memcpy => replayUSMEnqueueMemcpy host record asked.size asked.place asked.event

def TransferKind.api : TransferKind → PiApiKind
  | .map => .piEnqueueMemBufferMap
  | .read => .piEnqueueMemBufferRead
  | .memcpy => .piextUSMEnqueueMemcpy

private theorem entry_of_transfer (host : ReplayHost) {call : PiCall} {asked : HostTransfer}
    (isTransfer : transfer call = some asked) :
    call.api = asked.kind.api ∧ (piPluginInit host call).expected = asked.kind.api ∧
      (piPluginInit host call).body = transferBody host asked := by
  cases call with
  | piEnqueueMemBufferMap | piEnqueueMemBufferRead | piextUSMEnqueueMemcpy =>
    obtain rfl := Option.some.inj isTransfer
    exact ⟨rfl, rfl, rfl⟩
  | _ => cases isTransfer

/-! ## The entry on a stored file -/

/-- How many bytes the entry writes at the place. -/
def HostTransfer.extent (asked : HostTransfer) : ℕ :=
  match asked.kind with
  | .map => 8
  | _ => asked.size.toNat

/-- The place is there, and neither it nor the array for a map shares memory with the event, with a
new integer, or with the other. -/
structure Storage (host : ReplayHost) (asked : HostTransfer) : Prop where
  place : asked.place ≠ 0 ∨ asked.kind ≠ .map ∧ asked.size = 0
  event : Memory.Apart asked.event.toNat 8 asked.place.toNat asked.extent
  heap : ∀ n, Memory.Apart (host.heap n).toNat 4 asked.place.toNat asked.extent
  array : asked.kind = .map → ∀ n,
    Memory.Apart asked.place.toNat 8 (host.heap n).toNat asked.size.toNat ∧
      Memory.Apart asked.event.toNat 8 (host.heap n).toNat asked.size.toNat ∧
      Memory.Apart (host.heap (n + 1)).toNat 4 (host.heap n).toNat asked.size.toNat

private theorem store_ok {address : UInt64} {bytes : Bytes} (writable : address ≠ 0 ∨ bytes = [])
    (world : World) :
    store address bytes world =
      .ok ((), { world with memory := world.memory.write address.toNat bytes }) := by
  rw [store, if_neg]
  rintro ⟨null, some⟩
  exact writable.elim (fun nonnull => nonnull null) some

/-- Memory after a new event was stored. -/
def withEvent (host : ReplayHost) (event : UInt64) (n : ℕ) (memory : Memory) : Memory :=
  (memory.write (host.heap n).toNat (leBytes 4 1)).write event.toNat
    (leBytes 8 (host.heap n).toNat)

private theorem replayCreate_ok (host : ReplayHost) {event : UInt64} (nonnull : event ≠ 0) (world : World) :
    replayCreate host event world =
      .ok ((), { world with
        memory := withEvent host event world.allocations world.memory
        allocations := world.allocations + 1 }) := by
  have made : newInt host world = .ok (host.heap world.allocations, { world with
      memory := world.memory.write (host.heap world.allocations).toNat (leBytes 4 1)
      allocations := world.allocations + 1 }) := rfl
  rw [replayCreate, storeHandle, bind_assoc, bind_ok made, storePointer, bind_assoc,
    bind_ok (store_ok (.inl nonnull) _)]
  rfl

private theorem read_withEvent {host : ReplayHost} {event : UInt64} {n address count : ℕ} {memory : Memory}
    (apartEvent : Memory.Apart event.toNat 8 address count)
    (apartHeap : Memory.Apart (host.heap n).toNat 4 address count) :
    (withEvent host event n memory).read address count = memory.read address count := by
  rw [withEvent, Memory.read_write_apart (by rwa [leBytes_length]),
    Memory.read_write_apart (by rwa [leBytes_length])]

private theorem readObjSize_stored (host : ReplayHost) (size : UInt64) (content : Bytes) :
    readObjSize host (.opened (some (leBytes 8 size.toNat ++ content))) =
      (size.toNat, { rest := content }) := by
  have sized := IStream.read_enough (leBytes 8 size.toNat) content false
  rw [leBytes_length] at sized
  have bound : size.toNat < 256 ^ 8 := size.toNat_lt
  simp only [readObjSize, IStream.opened, sized, IStream.ofLe_overlay 8 _ bound]

/-- The pointer and the array of a map survive the event. -/
theorem bytes_mapped {host : ReplayHost} {size place event : UInt64}
    (storage : Storage host ⟨.map, size, place, event⟩) {content : Bytes}
    (length : content.length = size.toNat) (n : ℕ) (memory : Memory) :
    HostTransfer.bytes ⟨.map, size, place, event⟩ (withEvent host event (n + 1)
      ((memory.write (host.heap n).toNat content).write place.toNat
        (leBytes 8 (host.heap n).toNat))) = content := by
  have slotEvent : Memory.Apart event.toNat 8 place.toNat 8 := storage.event
  have slotNext : Memory.Apart (host.heap (n + 1)).toNat 4 place.toNat 8 := storage.heap (n + 1)
  obtain ⟨apartPlace, apartEvent, apartNext⟩ := storage.array rfl n
  have pointer : HostTransfer.target ⟨.map, size, place, event⟩ (withEvent host event (n + 1)
      ((memory.write (host.heap n).toNat content).write place.toNat
        (leBytes 8 (host.heap n).toNat))) = (host.heap n).toNat := by
    change ofLe (Memory.read _ place.toNat 8) = _
    have slot := Memory.read_write (memory.write (host.heap n).toNat content) place.toNat
      (leBytes 8 (host.heap n).toNat)
    rw [leBytes_length] at slot
    rw [read_withEvent slotEvent slotNext, slot,
      ofLe_leBytes_of_lt (by simpa using (host.heap n).toNat_lt)]
  rw [HostTransfer.bytes, pointer]
  change Memory.read _ _ size.toNat = _
  rw [read_withEvent apartEvent apartNext, Memory.read_write_apart (by rwa [leBytes_length]),
    ← length, Memory.read_write]

/-- The bytes of a read or a copy survive the event. -/
theorem bytes_withEvent {host : ReplayHost} {asked : HostTransfer} (storage : Storage host asked)
    (notMap : asked.kind ≠ .map) (n : ℕ) (memory : Memory) :
    asked.bytes (withEvent host asked.event n memory) =
      memory.read asked.place.toNat asked.size.toNat := by
  obtain ⟨kind, size, place, event⟩ := asked
  cases kind with
  | map => exact absurd rfl notMap
  | read | memcpy => exact read_withEvent storage.event (storage.heap n)

private theorem bytes_placed {host : ReplayHost} {asked : HostTransfer} (storage : Storage host asked)
    (notMap : asked.kind ≠ .map) {content : Bytes} (length : content.length = asked.size.toNat)
    (n : ℕ) (memory : Memory) :
    asked.bytes (withEvent host asked.event n (memory.write asked.place.toNat content)) =
      content := by
  rw [bytes_withEvent storage notMap, ← length, Memory.read_write]

/-- The entry delivers the content of the file. -/
theorem transferBody_stored {host : ReplayHost} {asked : HostTransfer} (storage : Storage host asked)
    (nonnull : asked.event ≠ 0) (fits : asked.kind = .map → asked.size.toNat ≤ host.largest)
    {record : APICall} {name content : Bytes} (stored : record.mem_obj_outputs = [name])
    (file : host.buffers name = some (leBytes 8 asked.size.toNat ++ content))
    (length : content.length = asked.size.toNat) (world : World) :
    ∃ next, transferBody host asked record world = .ok ((), next) ∧
      asked.bytes next.memory = content := by
  have opened := returns_openBuffer host stored
  rw [file] at opened
  have all : (IStream.read { rest := content } asked.size.toNat).1 = content := by
    have whole := IStream.read_enough content [] false
    rw [List.append_nil, length] at whole
    rw [whole]
  have writable : asked.place ≠ 0 ∨ content = [] := by
    apply storage.place.imp id
    intro empty
    rw [← List.length_eq_zero_iff, length, empty.2]
    rfl
  obtain ⟨kind, size, place, event⟩ := asked
  cases kind with
  | map =>
    have placed : place ≠ 0 := storage.place.resolve_right fun other => other.1 rfl
    rw [transferBody, replayMemBufferMap, opened.bind, readObjSize_stored]
    simp only [all]
    rw [bind_ok (newChars_served (fits rfl) world), bind_ok (store_ok (.inl (host.heap_ne_zero _)) _),
      storePointer, bind_ok (store_ok (.inl placed) _), replayCreate_ok host nonnull]
    exact ⟨_, rfl, bytes_mapped storage length _ _⟩
  | read =>
    rw [transferBody, replayMemBufferRead, opened.bind, readObjSize_stored]
    simp only [all]
    rw [bind_ok (store_ok writable world), replayCreate_ok host nonnull]
    exact ⟨_, rfl, bytes_placed storage (by simp) length _ _⟩
  | memcpy =>
    rw [transferBody, replayUSMEnqueueMemcpy]
    simp only [stored, List.length_singleton, gt_iff_lt, Nat.one_pos, if_true, opened.bind,
      readObjSize_stored, all]
    rw [bind_ok (store_ok writable world), replayCreate_ok host nonnull]
    exact ⟨_, rfl, bytes_placed storage (by simp) length _ _⟩

/-- Without a file, a copy only makes its event. -/
theorem transferBody_unstored {host : ReplayHost} {asked : HostTransfer}
    (copies : asked.kind = .memcpy) (nonnull : asked.event ≠ 0) {record : APICall}
    (missing : record.mem_obj_outputs = []) (world : World) :
    transferBody host asked record world = .ok ((), { world with
      memory := withEvent host asked.event world.allocations world.memory
      allocations := world.allocations + 1 }) := by
  rw [transferBody, copies]
  simp only [replayUSMEnqueueMemcpy, missing, List.length_nil, gt_iff_lt, Nat.lt_irrefl, if_false]
  exact replayCreate_ok host nonnull world

private theorem fails_transferBody_unstored {host : ReplayHost} {asked : HostTransfer}
    (other : asked.kind ≠ .memcpy) {record : APICall} (missing : record.mem_obj_outputs = []) :
    Fails (transferBody host asked record) := by
  obtain ⟨kind, size, place, event⟩ := asked
  cases kind with
  | map => exact (fails_openBuffer host missing).bind _
  | read => exact (fails_openBuffer host missing).bind _
  | memcpy => exact absurd rfl other

private theorem fails_transferBody_event {host : ReplayHost} {asked : HostTransfer} (null : asked.event = 0)
    (record : APICall) : Fails (transferBody host asked record) := by
  obtain ⟨kind, size, place, event⟩ := asked
  rcases stored : record.mem_obj_outputs with _ | ⟨name, more⟩
  · rcases eq_or_ne kind .memcpy with rfl | other
    · exact fails_replayUSMEnqueueMemcpy null
    · exact fails_transferBody_unstored other stored
  · have opened := returns_openBuffer host stored
    cases kind with
    | map =>
      rw [transferBody, replayMemBufferMap, opened.bind]
      rcases Nat.lt_or_ge host.largest
        (readObjSize host (.opened (host.buffers name))).1 with large | fits
      · exact (fails_newChars large).bind _
      · refine .after (total_newChars fits) fun _ => fails_store_bind fun _ => ?_
        exact fails_store_bind fun _ => fails_replayCreate host null
    | read =>
      rw [transferBody, replayMemBufferRead, opened.bind]
      exact fails_store_bind fun _ => fails_replayCreate host null
    | memcpy => exact fails_replayUSMEnqueueMemcpy null

private theorem fails_transferBody_large {host : ReplayHost} {asked : HostTransfer} (maps : asked.kind = .map)
    (large : host.largest < asked.size.toNat) {record : APICall} {name content : Bytes}
    (stored : record.mem_obj_outputs = [name])
    (file : host.buffers name = some (leBytes 8 asked.size.toNat ++ content)) :
    Fails (transferBody host asked record) := by
  obtain ⟨kind, size, place, event⟩ := asked
  subst maps
  have opened := returns_openBuffer host stored
  rw [file] at opened
  rw [transferBody, replayMemBufferMap, opened.bind, readObjSize_stored]
  exact (fails_newChars large).bind _

/-! ## Runs -/

/-- A transfer of some thread, and the call that asks for it again when it is replayed, with places of
its own. The recorder found no null pointer in the first. -/
structure ReplayedTransfer extends ThreadCall where
  again : PiCall
  recorded : HostTransfer
  replayed : HostTransfer
  isTransfer : transfer call = some recorded
  isAgain : transfer again = some replayed
  sameKind : replayed.kind = recorded.kind
  sameSize : replayed.size = recorded.size
  handled : ∀ mSkipMemObjects, (RecordHandler.outputs ⟨threadName, mSkipMemObjects⟩ call after).isSome

def PI_MEM_TYPE_SHARED : UInt32 := 0x4199

/-- The bytes went to memory that the host can read. -/
def OnHost (made : ReplayedTransfer) : Prop :=
  made.recorded.kind = .memcpy → made.after.allocType = PI_MEM_TYPE_UNKNOWN ∨
    made.after.allocType = PI_MEM_TYPE_HOST ∨ made.after.allocType = PI_MEM_TYPE_SHARED

/-- Whatever state it starts from, the entry completes on the record of its call, and with the
buffer files it delivers the bytes that the recorded call delivered. -/
def Replayed (host : ReplayHost) (mSkipMemObjects : Bool) (made : ReplayedTransfer) : Prop :=
  (piPluginInit host made.again).expected = made.call.api ∧
    ∀ outputs, RecordHandler.outputs ⟨made.threadName, mSkipMemObjects⟩ made.call made.after =
        some outputs →
      ∀ world, ∃ next,
        (piPluginInit host made.again).body (outputs.record host.pi made.call made.after) world =
            .ok ((), next) ∧
          (mSkipMemObjects = true → OnHost made →
            made.replayed.bytes next.memory = made.recorded.bytes made.after.awaited)

/-- There is an event to make. With the files, the heap serves the array for a map and nothing was
copied to shared memory; without them, the call is a copy. -/
def Restorable (host : ReplayHost) (mSkipMemObjects : Bool) (made : ReplayedTransfer) : Prop :=
  made.replayed.event ≠ 0 ∧
    if mSkipMemObjects then
      (made.recorded.kind = .map → made.recorded.size.toNat ≤ host.largest) ∧
        (made.recorded.kind = .memcpy → made.after.allocType = PI_MEM_TYPE_SHARED →
          made.recorded.size = 0)
    else made.recorded.kind = .memcpy

/-- The name of the file for a call. -/
def ReplayedTransfer.file (made : ReplayedTransfer) : Bytes :=
  memFile ⟨made.threadName, true⟩ made.after.eventId

private theorem memFile_inj {first second : RecordHandler} {one other : UInt64}
    (same : memFile first one = memFile second other) :
    first.threadName = second.threadName ∧ one = other := by
  have digits (n : ℕ) : (0x5f : UInt8) ∉ decimal n := fun member =>
    absurd (digit_of_mem_decimal member).2 (by decide)
  have underscore : str "_" = [0x5f] := by decide
  rw [memFile, memFile, underscore] at same
  have names := List.append_cancel_right same
  rw [List.append_assoc, List.append_assoc] at names
  obtain ⟨threads, ids⟩ := append_separator_inj (digits _) (digits _) names
  exact ⟨threads, UInt64.toNat_inj.mp (decimal_injective ids)⟩

/-- No two calls share a buffer file. -/
theorem nodup_file {calls : List ReplayedTransfer}
    (distinct : (calls.map fun made => (made.threadName, made.after.eventId)).Nodup) :
    (calls.map (·.file)).Nodup := by
  have pairs : calls.map (·.file) = (calls.map fun made => (made.threadName, made.after.eventId)).map
      fun pair => memFile ⟨pair.1, true⟩ pair.2 := by
    rw [List.map_map]
    rfl
  rw [pairs]
  refine List.Nodup.map (fun first second same => ?_) distinct
  obtain ⟨names, ids⟩ := memFile_inj same
  exact Prod.ext names ids

/-- What a call's handler writes under `buffers`. -/
theorem ReplayedTransfer.buffer_eq (made : ReplayedTransfer) :
    made.buffer true =
      if made.recorded.Saves made.after then
        some (made.file, leBytes 8 made.recorded.size.toNat ++ made.recorded.bytes made.after.awaited)
      else none := by
  obtain ⟨outputs, handled⟩ := Option.isSome_iff_exists.mp (made.handled true)
  rw [ThreadCall.buffer, handled, Option.bind_some, outputs_of_transfer made.isTransfer handled]
  simp only [true_and]
  split <;> rfl

/-- The file of a call that saves its bytes holds them when all threads are done. -/
theorem bufferFiles_of_mem {calls : List ReplayedTransfer}
    (distinct : (calls.map fun made => (made.threadName, made.after.eventId)).Nodup)
    (before : Bytes → Option Bytes) {made : ReplayedTransfer} (member : made ∈ calls)
    (saves : made.recorded.Saves made.after) :
    bufferFiles true before (calls.map (·.toThreadCall)) made.file =
      some (leBytes 8 made.recorded.size.toNat ++ made.recorded.bytes made.after.awaited) := by
  have names : (((calls.map (·.toThreadCall)).filterMap (·.buffer true)).map Prod.fst).Sublist
      (calls.map (·.file)) := by
    clear distinct member
    induction calls with
    | nil => exact List.Sublist.slnil
    | cons made calls ih =>
      rw [List.map_cons, List.filterMap_cons, made.buffer_eq, List.map_cons]
      rcases Classical.em (made.recorded.Saves made.after) with saves | skips
      · rw [if_pos saves]
        exact ih.cons_cons _
      · rw [if_neg skips]
        exact ih.cons _
  have listed : made.toThreadCall ∈ calls.map (·.toThreadCall) := List.mem_map_of_mem member
  have buffer := made.buffer_eq
  rw [if_pos saves] at buffer
  have written : (made.file, leBytes 8 made.recorded.size.toNat ++
      made.recorded.bytes made.after.awaited) ∈
        (calls.map (·.toThreadCall)).filterMap (·.buffer true) :=
    List.mem_filterMap.mpr ⟨_, listed, buffer⟩
  rw [bufferFiles]
  exact writeAll_of_mem ((nodup_file distinct).sublist names) written

section Call

variable {host : ReplayHost} {made : ReplayedTransfer} {mSkipMemObjects : Bool}

/-- The record of a call in the terms of its transfer. -/
theorem record_mem_obj_outputs (host : ReplayHost) {outputs : Outputs}
    (handled : RecordHandler.outputs ⟨made.threadName, mSkipMemObjects⟩ made.call made.after =
      some outputs) :
    (outputs.record host.pi made.call made.after).mem_obj_outputs =
      if mSkipMemObjects = true ∧ made.recorded.Saves made.after then [made.file] else [] := by
  change outputs.mem_obj_outputs = _
  rw [outputs_of_transfer made.isTransfer handled]
  split <;> rfl

private theorem replayed_of_restorable (storage : Storage host made.replayed)
    (stored : mSkipMemObjects = true → made.recorded.Saves made.after → host.buffers made.file =
      some (leBytes 8 made.recorded.size.toNat ++ made.recorded.bytes made.after.awaited))
    (restorable : Restorable host mSkipMemObjects made) : Replayed host mSkipMemObjects made := by
  obtain ⟨api, -, -⟩ := entry_of_transfer host made.isTransfer
  obtain ⟨-, expected, body⟩ := entry_of_transfer host made.isAgain
  refine ⟨by rw [expected, api, made.sameKind], fun outputs handled world => ?_⟩
  have files := record_mem_obj_outputs host handled
  obtain ⟨event, restorable⟩ := restorable
  rw [body]
  cases mSkipMemObjects with
  | false =>
    have copies : made.replayed.kind = .memcpy := made.sameKind.trans restorable
    exact ⟨_, transferBody_unstored copies event files world, nofun⟩
  | true =>
    obtain ⟨fits, shared⟩ := restorable
    rcases Classical.em (made.recorded.Saves made.after) with saves | skips
    · rw [if_pos ⟨rfl, saves⟩] at files
      have file := stored rfl saves
      rw [← made.sameSize] at file
      rw [← made.sameKind, ← made.sameSize] at fits
      obtain ⟨next, ran, delivered⟩ := transferBody_stored storage event fits files file
        (by rw [HostTransfer.bytes, Memory.read_length, made.sameSize]) world
      exact ⟨next, ran, fun _ _ => delivered⟩
    · rw [if_neg fun saves => skips saves.2] at files
      obtain ⟨copies, elsewhere⟩ := Classical.not_imp.mp skips
      obtain ⟨notUnknown, notHost⟩ := not_or.mp elsewhere
      refine ⟨_, transferBody_unstored (made.sameKind.trans copies) event files world, ?_⟩
      intro _ onHost
      have empty := shared copies (((onHost copies).resolve_left notUnknown).resolve_left notHost)
      rw [HostTransfer.bytes, HostTransfer.bytes, made.sameSize, empty]
      rfl

private theorem restorable_of_replayed (storage : Storage host made.replayed)
    (stored : mSkipMemObjects = true → made.recorded.Saves made.after → host.buffers made.file =
      some (leBytes 8 made.recorded.size.toNat ++ made.recorded.bytes made.after.awaited))
    (replayed : Replayed host mSkipMemObjects made) : Restorable host mSkipMemObjects made := by
  obtain ⟨-, -, body⟩ := entry_of_transfer host made.isAgain
  obtain ⟨outputs, handled⟩ := Option.isSome_iff_exists.mp (made.handled mSkipMemObjects)
  have files := record_mem_obj_outputs host handled
  have runs := replayed.2 outputs handled
  rw [body] at runs
  have completes : ¬Fails (transferBody host made.replayed
      (outputs.record host.pi made.call made.after)) := by
    intro fails
    obtain ⟨fault, failed⟩ := fails sampleWorld
    obtain ⟨next, ran, -⟩ := runs sampleWorld
    rw [ran] at failed
    cases failed
  refine ⟨fun null => completes (fails_transferBody_event null _), ?_⟩
  cases mSkipMemObjects with
  | false =>
    by_contra other
    rw [← made.sameKind] at other
    exact completes (fails_transferBody_unstored other files)
  | true =>
    refine ⟨fun maps => ?_, fun copies shared => ?_⟩
    · by_contra large
      have saves : made.recorded.Saves made.after := fun copies => nomatch maps.symm.trans copies
      rw [if_pos ⟨rfl, saves⟩] at files
      have file := stored rfl saves
      rw [← made.sameSize] at file large
      exact completes (fails_transferBody_large (made.sameKind.trans maps) (Nat.not_le.mp large)
        files file)
    · by_contra positive
      have inside : 0 < made.recorded.size.toNat :=
        Nat.pos_of_ne_zero fun zero => positive (UInt64.toNat_inj.mp zero)
      have skips : ¬made.recorded.Saves made.after := by
        intro saves
        have other := saves copies
        rw [shared] at other
        exact absurd other (by decide)
      rw [if_neg fun saves => skips saves.2] at files
      have copiesAgain := made.sameKind.trans copies
      -- replay starts with another byte at the destination
      obtain ⟨next, ran, delivered⟩ := runs { sampleWorld with
        memory := fun _ => made.after.awaited (made.recorded.target made.after.awaited + 0) + 1 }
      have event : made.replayed.event ≠ 0 := fun null =>
        completes (fails_transferBody_event null _)
      rw [transferBody_unstored copiesAgain event files] at ran
      obtain ⟨-, rfl⟩ := Prod.mk.inj (Except.ok.inj ran)
      have same := delivered rfl fun _ => .inr (.inr shared)
      rw [bytes_withEvent storage (by rw [copiesAgain]; exact nofun), made.sameSize] at same
      have first := congrArg (·[0]?) same
      simp only [HostTransfer.bytes, Memory.getElem?_read _ _ inside, Option.some.injEq] at first
      simp at first

end Call

/-- Every transfer is replayed exactly if every one of them is restorable; the buffer files are
distinct in any case. -/
theorem transfers_replayed_iff (mSkipMemObjects : Bool) (host : ReplayHost)
    (calls : List ReplayedTransfer)
    (distinct : (calls.map fun made => (made.threadName, made.after.eventId)).Nodup)
    (before : Bytes → Option Bytes)
    (buffers : host.buffers = bufferFiles mSkipMemObjects before (calls.map (·.toThreadCall)))
    (storage : ∀ made ∈ calls, Storage host made.replayed) :
    ((∀ made ∈ calls, Replayed host mSkipMemObjects made) ∧ (calls.map (·.file)).Nodup) ↔
      ∀ made ∈ calls, Restorable host mSkipMemObjects made := by
  have stored made (member : made ∈ calls) (saving : mSkipMemObjects = true)
      (saves : made.recorded.Saves made.after) : host.buffers made.file =
        some (leBytes 8 made.recorded.size.toNat ++ made.recorded.bytes made.after.awaited) := by
    rw [buffers, saving]
    exact bufferFiles_of_mem distinct before member saves
  rw [and_iff_left (nodup_file distinct)]
  refine forall_congr' fun made => imp_congr_right fun member => ?_
  exact ⟨restorable_of_replayed (storage made member) (stored made member),
    replayed_of_restorable (storage made member) (stored made member)⟩

/-! ## Transfers of two threads -/

/-- What the recorded transfers leave in the memory of the host. -/
def hostMemory : Memory :=
  (((Memory.write (fun _ => 0xff) 0x300000 [0x23, 0x2a]).write 0x310000 (leBytes 8 0x330000)).write
    0x320000 [1, 2, 3]).write 0x330000 (str "kern")

def transferEnd (eventId : UInt64) : CallEnd :=
  { sampleEnd 0 with eventId := eventId, memory := hostMemory, awaited := hostMemory }

/-- The main thread reads two bytes of a buffer. -/
def readTransfer : ReplayedTransfer where
  threadName := str "main"
  call := .piEnqueueMemBufferRead 0x7000 0x7100 1 0 2 0x300000 0 0 0x300100
  after := transferEnd 3
  again := .piEnqueueMemBufferRead 0x7000 0x7100 1 0 2 0x340000 0 0 0x340100
  recorded := ⟨.read, 2, 0x300000, 0x300100⟩
  replayed := ⟨.read, 2, 0x340000, 0x340100⟩
  isTransfer := rfl
  isAgain := rfl
  sameKind := rfl
  sameSize := rfl
  handled mSkipMemObjects := by cases mSkipMemObjects <;> rfl

/-- Another thread maps four bytes of it, under the same number of an event. -/
def mapTransfer : ReplayedTransfer where
  threadName := str "main_0"
  call := .piEnqueueMemBufferMap 0x7000 0x7100 1 0 0 4 0 0 0x310100 0x310000
  after := transferEnd 3
  again := .piEnqueueMemBufferMap 0x7000 0x7100 1 0 0 4 0 0 0x350100 0x350000
  recorded := ⟨.map, 4, 0x310000, 0x310100⟩
  replayed := ⟨.map, 4, 0x350000, 0x350100⟩
  isTransfer := rfl
  isAgain := rfl
  sameKind := rfl
  sameSize := rfl
  handled mSkipMemObjects := by cases mSkipMemObjects <;> rfl

/-- And it copies three bytes to the host. -/
def copyTransfer : ReplayedTransfer where
  threadName := str "main_0"
  call := .piextUSMEnqueueMemcpy 0x7000 1 0x320000 0x400000 3 0 0 0x320100
  after := transferEnd 4
  again := .piextUSMEnqueueMemcpy 0x7000 1 0x360000 0x400000 3 0 0 0x360100
  recorded := ⟨.memcpy, 3, 0x320000, 0x320100⟩
  replayed := ⟨.memcpy, 3, 0x360000, 0x360100⟩
  isTransfer := rfl
  isAgain := rfl
  sameKind := rfl
  sameSize := rfl
  handled mSkipMemObjects := by cases mSkipMemObjects <;> rfl

/-- A replay with the buffer files of these calls. -/
def transferHost (mSkipMemObjects : Bool) (calls : List ReplayedTransfer) : ReplayHost :=
  { sampleHost [] with
    buffers := bufferFiles mSkipMemObjects (fun _ => none) (calls.map (·.toThreadCall)) }

/-- The heap ends below places such as these. -/
theorem storage_transferHost {mSkipMemObjects : Bool} {calls : List ReplayedTransfer}
    {asked : HostTransfer} (place : 0x300000 ≤ asked.place.toNat)
    (event : asked.event.toNat = asked.place.toNat + 0x100) (short : asked.size.toNat ≤ 8) :
    Storage (transferHost mSkipMemObjects calls) asked := by
  have heap n : ((transferHost mSkipMemObjects calls).heap n).toNat = 0x1000 + 32 * (n % 0x10000) := by
    change (UInt64.ofNat (0x1000 + 32 * (n % 0x10000))).toNat = _
    rw [UInt64.toNat_ofNat', Nat.mod_eq_of_lt (by omega)]
  have extent : asked.extent ≤ 8 := by
    rw [HostTransfer.extent]
    split <;> omega
  refine ⟨.inl ?_, ?_, fun n => ?_, fun _ n => ⟨?_, ?_, ?_⟩⟩
  · rintro null
    rw [null] at place
    exact absurd place (by decide)
  all_goals
    intro i inside j within
    first
      | rw [event]
        omega
      | rw [heap]
        omega
      | rw [heap, heap]
        omega

/-- With their files, the transfers are replayed. -/
theorem transfers_replayed_iff_read :
    (∀ made ∈ [readTransfer, mapTransfer, copyTransfer],
        Replayed (transferHost true [readTransfer, mapTransfer, copyTransfer]) true made) ∧
      ([readTransfer, mapTransfer, copyTransfer].map (·.file)).Nodup := by
  refine (transfers_replayed_iff true (transferHost true [readTransfer, mapTransfer, copyTransfer])
    [readTransfer, mapTransfer, copyTransfer] (by decide) (fun _ => none) rfl fun made member => ?_).mpr
      fun made member => ?_
  all_goals
    simp only [List.mem_cons, List.not_mem_nil, or_false] at member
    rcases member with rfl | rfl | rfl
  · exact storage_transferHost (by decide) (by decide) (by decide)
  · exact storage_transferHost (by decide) (by decide) (by decide)
  · exact storage_transferHost (by decide) (by decide) (by decide)
  · exact ⟨by decide, by decide, by decide⟩
  · exact ⟨by decide, by decide, by decide⟩
  · exact ⟨by decide, by decide, by decide⟩

/-- Without the files, a read asks for one that was never recorded. -/
theorem not_transfers_replayed :
    ¬∀ (mSkipMemObjects : Bool) (host : ReplayHost) (calls : List ReplayedTransfer),
      (calls.map fun made => (made.threadName, made.after.eventId)).Nodup → ∀ before,
        host.buffers = bufferFiles mSkipMemObjects before (calls.map (·.toThreadCall)) →
        (∀ made ∈ calls, Storage host made.replayed) →
        (∀ made ∈ calls, Replayed host mSkipMemObjects made) ∧ (calls.map (·.file)).Nodup := by
  intro always
  have far : Storage (transferHost false [readTransfer]) readTransfer.replayed :=
    storage_transferHost (by decide) (by decide) (by decide)
  have storage : ∀ made ∈ [readTransfer], Storage (transferHost false [readTransfer]) made.replayed := by
    intro made member
    rwa [List.mem_singleton.mp member]
  have replayed := (always false (transferHost false [readTransfer]) [readTransfer] (List.nodup_singleton _)
    (fun _ => none) rfl storage).1 readTransfer (List.mem_singleton.mpr rfl)
  have restorable : Restorable (transferHost false [readTransfer]) false readTransfer :=
    restorable_of_replayed far nofun replayed
  exact nomatch restorable.2

end DpcppTrace.Soundness
