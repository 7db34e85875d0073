import DpcppTrace.Model.Recorder
import DpcppTrace.Soundness.ReplayEffects
import DpcppTrace.Soundness.TraceFile

/-! # Which calls replay answers as they were recorded

The recorder's handlers and the replay entries are two tables. On the record of a call, an entry fails
from every state of the plugin, or it succeeds wherever the array that it deletes, if any, is live. Which
of the two is decided by the call, the recording mode and the buffer files alone.
-/

namespace DpcppTrace.Soundness

open Foundation Model Effect

/-- The size `piEnqueueMemBufferMap` reads from the file of an event. -/
def objSize (host : ReplayHost) (handler : RecordHandler) (after : CallEnd) : ℕ :=
  (readObjSize host (.opened (host.buffers (memFile handler after.eventId)))).1

/-- An info query whose record has an output, and a place to put it. -/
def Answered (query : InfoQuery) : Prop :=
  query.param_value ≠ 0 ∨ query.param_value_size_ret ≠ 0

/-- The calls replay answers: the entry demands the API of the call, the record has the outputs the
entry reads, the pointers it writes without a test are not null, and the heap serves its arrays. Whether
an array that it deletes is live is not up to the call. -/
def Replayable (host : ReplayHost) (handler : RecordHandler) (after : CallEnd) : PiCall → Prop
  | .piMemRetain _ => False
  | .piQueueGetInfo .. | .piMemGetInfo .. | .piMemImageGetInfo .. | .piProgramGetInfo .. => False
  | .piPlatformGetInfo _ query | .piDeviceGetInfo _ query | .piContextGetInfo _ query
  | .piKernelGetInfo _ query | .piKernelGetGroupInfo _ _ query => Answered query
  | .piContextCreate _ _ _ _ _ pointer | .piQueueCreate _ _ _ pointer
  | .piMemBufferCreate _ _ _ _ pointer _ | .piProgramCreateWithBinary _ _ _ _ _ _ _ _ pointer
  | .piProgramCreate _ _ _ pointer | .piKernelCreate _ _ pointer
  | .piEnqueueKernelLaunch _ _ _ _ _ _ _ _ pointer | .piEnqueueMemUnmap _ _ _ _ _ pointer
  | .piEnqueueEventsWait _ _ _ pointer | .piEnqueueEventsWaitWithBarrier _ _ _ pointer
  | .piextUSMEnqueueMemcpy _ _ _ _ _ _ _ pointer | .piextUSMEnqueueMemset _ _ _ _ _ _ pointer =>
    pointer ≠ 0
  | .piEnqueueMemBufferMap _ _ _ _ _ _ _ _ event ret_map =>
    handler.mSkipMemObjects = true ∧ objSize host handler after ≤ host.largest ∧ ret_map ≠ 0 ∧
      event ≠ 0
  | .piEnqueueMemBufferRead _ _ _ _ _ _ _ _ event => handler.mSkipMemObjects = true ∧ event ≠ 0
  | .piextUSMDeviceAlloc result_ptr _ _ _ size _ | .piextUSMHostAlloc result_ptr _ _ size _ =>
    size.toNat ≤ host.largest ∧ result_ptr ≠ 0
  | _ => True

/-- The pointer that a call gives to `delete[]`. -/
def released : PiCall → Option UInt64
  | .piEnqueueMemUnmap _ _ mapped_ptr _ _ _ => some mapped_ptr
  | .piextUSMFree _ ptr => some ptr
  | _ => none

/-- What the call deletes may be deleted. -/
def Releasable (call : PiCall) (arrays : UInt64 → Option ℕ) : Prop :=
  ∀ pointer ∈ released call, Deletable pointer arrays

/-- On the record of an answered query, the helper stores the first output through its pointer. -/
theorem replayGetInfo_eq {query : InfoQuery} {record : APICall} {after : CallEnd}
    (stored : record.small_outputs = (handleGetInfo query after).small_outputs)
    (answered : Answered query) : replayGetInfo record query =
      if query.param_value ≠ 0 then
        store query.param_value
          (after.memory.read query.param_value.toNat query.param_value_size.toNat)
      else store query.param_value_size_ret (after.memory.read query.param_value_size_ret.toNat 8) := by
  rw [replayGetInfo]
  split
  · rename_i value
    rw [handleGetInfo, if_pos value, List.singleton_append] at stored
    rw [(returns_smallOutput stored).bind]
  · rename_i value
    rw [handleGetInfo, if_neg value, if_pos (answered.resolve_left value), List.nil_append] at stored
    rw [(returns_smallOutput stored).bind]

private theorem total_replayGetInfo {query : InfoQuery} {record : APICall} {after : CallEnd}
    (stored : record.small_outputs = (handleGetInfo query after).small_outputs)
    (answered : Answered query) : Total (replayGetInfo record query) := by
  rw [replayGetInfo_eq stored answered]
  split
  · rename_i value
    exact total_store (.inl value)
  · rename_i value
    exact total_store (.inl (answered.resolve_left value))

private theorem fails_replayGetInfo {query : InfoQuery} {record : APICall}
    (missing : record.small_outputs = []) : Fails (replayGetInfo record query) :=
  (fails_smallOutput missing).bind _

private theorem unanswered_outputs {query : InfoQuery} (unanswered : ¬Answered query) (after : CallEnd) :
    (handleGetInfo query after).small_outputs = [] := by
  obtain ⟨value, ret⟩ := not_or.mp unanswered
  simp only [not_not] at value ret
  simp [handleGetInfo, value, ret]

private theorem total_replayCount {host : ReplayHost} {record : APICall} {after : CallEnd}
    {numEntries : UInt32} {array count : UInt64}
    (stored : record.small_outputs = (handleCount count after).small_outputs) :
    Total (replayCount host record numEntries array count) := by
  have fill : Total (if numEntries > 0 ∧ array ≠ 0 then storeHandles host array numEntries.toNat
      else pure () : Effect Unit) := by
    split
    · exact total_storeHandles host array _
    · exact total_pure _
  by_cases null : count = 0
  · simp only [replayCount, null, ne_eq, not_true, if_false]
    exact fill
  · simp only [handleCount, ne_eq, null, not_false_eq_true, if_true] at stored
    have word := returns_smallOutputWord stored (by simp)
    simp only [replayCount, ne_eq, null, not_false_eq_true, if_true]
    rw [word.bind]
    exact (total_store (.inl null)).bind fun _ => fill

private theorem total_replaySelectBinary {record : APICall} {after : CallEnd} {selected : UInt64}
    (stored : record.small_outputs = [after.memory.read selected.toNat 8])
    (nonnull : selected ≠ 0) : Total (replaySelectBinary record selected) := by
  rw [replaySelectBinary, (returns_smallOutputWord stored (by simp)).bind]
  exact total_store (.inl nonnull)

theorem saveBuffer_some {handler : RecordHandler} {size : UInt64} {address : ℕ} {after : CallEnd}
    {outputs : Outputs} (saved : saveBuffer handler size address after = some outputs) :
    outputs.mem_obj_outputs = [memFile handler after.eventId] ∧ (address ≠ 0 ∨ size = 0) := by
  rw [saveBuffer] at saved
  split_ifs at saved with unreadable
  obtain rfl := Option.some.inj saved
  refine ⟨rfl, ?_⟩
  by_cases null : address = 0
  · exact .inr (by_contra fun nonzero => unreadable ⟨null, nonzero⟩)
  · exact .inl null

theorem total_replayMemBufferMap {host : ReplayHost} {handler : RecordHandler} {record : APICall}
    {size event ret_map : UInt64} {after : CallEnd} {outputs : Outputs}
    (handled : handleEnqueueMemBufferMap handler size ret_map after = some outputs)
    (stored : record.mem_obj_outputs = outputs.mem_obj_outputs)
    (saving : handler.mSkipMemObjects = true) (fits : objSize host handler after ≤ host.largest)
    (nonnull : event ≠ 0) : Total (replayMemBufferMap host record event ret_map) := by
  rw [handleEnqueueMemBufferMap, if_pos saving] at handled
  split_ifs at handled with null
  rw [(saveBuffer_some handled).1] at stored
  rw [replayMemBufferMap, (returns_openBuffer host stored).bind]
  apply total_newChars_bind fits
  intro memory served
  apply (total_store (.inl served)).bind
  intro _
  exact (total_storePointer null _).bind fun _ => total_replayCreate host nonnull

private theorem fails_replayMemBufferMap {host : ReplayHost} {handler : RecordHandler} {record : APICall}
    {size event ret_map : UInt64} {after : CallEnd} {outputs : Outputs}
    (handled : handleEnqueueMemBufferMap handler size ret_map after = some outputs)
    (stored : record.mem_obj_outputs = outputs.mem_obj_outputs)
    (bad : ¬(handler.mSkipMemObjects = true ∧ objSize host handler after ≤ host.largest ∧
      ret_map ≠ 0 ∧ event ≠ 0)) : Fails (replayMemBufferMap host record event ret_map) := by
  rw [handleEnqueueMemBufferMap] at handled
  split_ifs at handled with saving null
  · rw [(saveBuffer_some handled).1] at stored
    rw [replayMemBufferMap, (returns_openBuffer host stored).bind]
    by_cases fits : objSize host handler after ≤ host.largest
    · have noEvent : event = 0 := by
        by_contra nonnull
        exact bad ⟨saving, fits, null, nonnull⟩
      apply Fails.after (total_newChars fits)
      intro memory
      apply fails_store_bind
      intro _
      apply fails_store_bind
      intro _
      exact fails_replayCreate host noEvent
    · exact (fails_newChars (Nat.not_le.mp fits)).bind _
  · obtain rfl := Option.some.inj handled
    exact (fails_openBuffer host stored).bind _

/-- A file read into the destination the recorder read from goes through. -/
theorem total_delivered {size ptr : UInt64} (place : ptr.toNat ≠ 0 ∨ size = 0) (memIS : IStream) :
    Total (store ptr (memIS.read size.toNat).1) := by
  rcases place with nonnull | empty
  · refine total_store (.inl fun null => nonnull ?_)
    rw [null]
    rfl
  · refine total_store (.inr ?_)
    subst empty
    unfold IStream.read
    split <;> simp

theorem total_replayMemBufferRead {host : ReplayHost} {handler : RecordHandler} {record : APICall}
    {size ptr event : UInt64} {after : CallEnd} {outputs : Outputs}
    (handled : handleEnqueueMemBufferRead handler size ptr after = some outputs)
    (stored : record.mem_obj_outputs = outputs.mem_obj_outputs)
    (saving : handler.mSkipMemObjects = true) (nonnull : event ≠ 0) :
    Total (replayMemBufferRead host record size ptr event) := by
  rw [handleEnqueueMemBufferRead, if_pos saving] at handled
  obtain ⟨file, place⟩ := saveBuffer_some handled
  rw [file] at stored
  rw [replayMemBufferRead, (returns_openBuffer host stored).bind]
  exact (total_delivered place _).bind fun _ => total_replayCreate host nonnull

private theorem fails_replayMemBufferRead {host : ReplayHost} {handler : RecordHandler} {record : APICall}
    {size ptr event : UInt64} {after : CallEnd} {outputs : Outputs}
    (handled : handleEnqueueMemBufferRead handler size ptr after = some outputs)
    (stored : record.mem_obj_outputs = outputs.mem_obj_outputs)
    (bad : ¬(handler.mSkipMemObjects = true ∧ event ≠ 0)) :
    Fails (replayMemBufferRead host record size ptr event) := by
  rw [handleEnqueueMemBufferRead] at handled
  split_ifs at handled with saving
  · rw [(saveBuffer_some handled).1] at stored
    have noEvent : event = 0 := by_contra fun nonnull => bad ⟨saving, nonnull⟩
    rw [replayMemBufferRead, (returns_openBuffer host stored).bind]
    exact fails_store_bind fun _ => fails_replayCreate host noEvent
  · obtain rfl := Option.some.inj handled
    exact (fails_openBuffer host stored).bind _

theorem total_replayUSMEnqueueMemcpy {host : ReplayHost} {handler : RecordHandler}
    {record : APICall} {size dst_ptr event : UInt64} {after : CallEnd} {outputs : Outputs}
    (handled : handleUSMEnqueueMemcpy handler size dst_ptr after = some outputs)
    (stored : record.mem_obj_outputs = outputs.mem_obj_outputs) (nonnull : event ≠ 0) :
    Total (replayUSMEnqueueMemcpy host record size dst_ptr event) := by
  rw [handleUSMEnqueueMemcpy] at handled
  split_ifs at handled with saving
  · obtain ⟨file, place⟩ := saveBuffer_some handled
    rw [file] at stored
    rw [replayUSMEnqueueMemcpy, if_pos (by simp [stored]), (returns_openBuffer host stored).bind]
    exact (total_delivered place _).bind fun _ => total_replayCreate host nonnull
  · obtain rfl := Option.some.inj handled
    rw [replayUSMEnqueueMemcpy, if_neg (by simp [stored])]
    exact total_replayCreate host nonnull

theorem fails_replayUSMEnqueueMemcpy {host : ReplayHost} {record : APICall}
    {size dst_ptr event : UInt64} (null : event = 0) :
    Fails (replayUSMEnqueueMemcpy host record size dst_ptr event) := by
  rcases files : record.mem_obj_outputs with _ | ⟨file, more⟩
  · rw [replayUSMEnqueueMemcpy, if_neg (by simp [files])]
    exact fails_replayCreate host null
  · rw [replayUSMEnqueueMemcpy, if_pos (by simp [files]), (returns_openBuffer host files).bind]
    exact fails_store_bind fun _ => fails_replayCreate host null

theorem total_replayUSMAlloc {host : ReplayHost} {result_ptr size : UInt64}
    (fits : size.toNat ≤ host.largest) (nonnull : result_ptr ≠ 0) :
    Total (replayUSMAlloc host result_ptr size) :=
  (total_newChars fits).bind fun _ => total_storePointer nonnull _

private theorem fails_replayUSMAlloc {host : ReplayHost} {result_ptr size : UInt64}
    (bad : ¬(size.toNat ≤ host.largest ∧ result_ptr ≠ 0)) :
    Fails (replayUSMAlloc host result_ptr size) := by
  by_cases fits : size.toNat ≤ host.largest
  · have null : result_ptr = 0 := by_contra fun nonnull => bad ⟨fits, nonnull⟩
    exact .after (total_newChars fits) fun _ => fails_storePointer null _
  · exact (fails_newChars (by omega)).bind _

/-- A new event, and then the array goes. -/
theorem replayMemUnmap_eq {host : ReplayHost} {mapped_ptr event : UInt64} {world next : World}
    (created : replayCreate host event world = .ok ((), next)) :
    replayMemUnmap host mapped_ptr event world =
      if Deletable mapped_ptr world.arrays then
        .ok ((), { next with arrays := withoutArray mapped_ptr next.arrays })
      else .error .invalidFree := by
  have same : next.arrays = world.arrays :=
    counts_arrays.replayCreate event world () next created
  rw [replayMemUnmap, bind_ok created, deleteChars_eq, same]

section Table

variable {host : ReplayHost} {handler : RecordHandler} {call : PiCall} {after : CallEnd}
  {outputs : Outputs}

/-- On its own record, the entry of a replayable call that deletes nothing passes the check and
succeeds. -/
theorem entry_total (handled : handler.outputs call after = some outputs)
    (replayable : Replayable host handler after call) (keeps : released call = none) :
    (piPluginInit host call).expected = call.api ∧
      Total ((piPluginInit host call).body (outputs.record host.pi call after)) := by
  cases call with
  | piEnqueueMemUnmap | piextUSMFree => cases keeps
  | piMemRetain | piQueueGetInfo | piMemGetInfo | piMemImageGetInfo | piProgramGetInfo =>
    exact replayable.elim
  | piPlatformsGet | piDevicesGet =>
    obtain rfl := Option.some.inj handled
    exact ⟨rfl, total_replayCount rfl⟩
  | piPlatformGetInfo | piDeviceGetInfo | piContextGetInfo | piKernelGetGroupInfo =>
    obtain rfl := Option.some.inj handled
    exact ⟨rfl, total_replayGetInfo rfl replayable⟩
  | piKernelGetInfo kernel query =>
    obtain rfl := Option.some.inj handled
    refine ⟨rfl, (total_replayGetInfo rfl replayable).bind fun _ => ?_⟩
    split
    · rename_i substituted
      exact total_get.bind fun _ => total_storePointer substituted.2 _
    · exact total_pure _
  | piextDeviceSelectBinary _ _ _ selected =>
    rw [RecordHandler.outputs, handleSelectBinary] at handled
    split_ifs at handled with null
    obtain rfl := Option.some.inj handled
    exact ⟨rfl, total_replaySelectBinary rfl null⟩
  | piContextCreate | piQueueCreate | piProgramCreateWithBinary | piProgramCreate
  | piEnqueueKernelLaunch | piEnqueueEventsWait | piEnqueueEventsWaitWithBarrier
  | piextUSMEnqueueMemset =>
    exact ⟨rfl, total_replayCreate host replayable⟩
  | piMemBufferCreate | piKernelCreate =>
    exact ⟨rfl, (total_storeHandle host replayable).bind fun _ => total_modify _⟩
  | piEnqueueMemBufferMap =>
    obtain ⟨saving, fits, _, event⟩ := replayable
    exact ⟨rfl, total_replayMemBufferMap handled rfl saving fits event⟩
  | piEnqueueMemBufferRead =>
    exact ⟨rfl, total_replayMemBufferRead handled rfl replayable.1 replayable.2⟩
  | piextUSMEnqueueMemcpy => exact ⟨rfl, total_replayUSMEnqueueMemcpy handled rfl replayable⟩
  | piextUSMDeviceAlloc | piextUSMHostAlloc =>
    exact ⟨rfl, total_replayUSMAlloc replayable.1 replayable.2⟩
  | _ => exact ⟨rfl, total_pure _⟩

/-- On its own record, the entry of a replayable call passes the check, and succeeds exactly if what the
call deletes may be deleted. -/
theorem entry_runs (handled : handler.outputs call after = some outputs)
    (replayable : Replayable host handler after call) (world : World) :
    (piPluginInit host call).expected = call.api ∧
      ((∃ next, (piPluginInit host call).body (outputs.record host.pi call after) world =
        .ok ((), next)) ↔ Releasable call world.arrays) := by
  cases deletes : released call with
  | none =>
    obtain ⟨expected, total⟩ := entry_total handled replayable deletes
    obtain ⟨⟨⟩, next, ran⟩ := total world
    refine ⟨expected, iff_of_true ⟨next, ran⟩ fun pointer here => ?_⟩
    rw [deletes] at here
    cases here
  | some pointer =>
    have only : Releasable call world.arrays ↔ Deletable pointer world.arrays := by
      simp [Releasable, deletes]
    rw [only]
    cases call with
    | piextUSMFree context ptr =>
      obtain rfl := Option.some.inj deletes
      refine ⟨rfl, ?_⟩
      change (∃ next, deleteChars ptr world = .ok ((), next)) ↔ _
      rw [deleteChars_eq]
      split <;> simp_all
    | piEnqueueMemUnmap _ _ mapped_ptr _ _ event =>
      obtain rfl := Option.some.inj deletes
      obtain ⟨⟨⟩, next, created⟩ := total_replayCreate host replayable world
      refine ⟨rfl, ?_⟩
      change (∃ next, replayMemUnmap host mapped_ptr event world = .ok ((), next)) ↔ _
      rw [replayMemUnmap_eq created]
      split <;> simp_all
    | _ => cases deletes

/-- On its own record, the entry of any other call demands another API or fails. -/
theorem entry_fails (handled : handler.outputs call after = some outputs)
    (bad : ¬Replayable host handler after call) :
    (piPluginInit host call).expected ≠ call.api ∨
      Fails ((piPluginInit host call).body (outputs.record host.pi call after)) := by
  cases call with
  | piMemRetain => exact .inl fun same => by cases same
  | piQueueGetInfo | piMemImageGetInfo | piProgramGetInfo =>
    obtain rfl := Option.some.inj handled
    exact .inr (fails_replayGetInfo rfl)
  | piMemGetInfo =>
    obtain rfl := Option.some.inj handled
    exact .inr ((fails_replayGetInfo rfl).bind _)
  | piPlatformGetInfo | piDeviceGetInfo | piContextGetInfo | piKernelGetGroupInfo =>
    obtain rfl := Option.some.inj handled
    exact .inr (fails_replayGetInfo (unanswered_outputs bad after))
  | piKernelGetInfo =>
    obtain rfl := Option.some.inj handled
    exact .inr ((fails_replayGetInfo (unanswered_outputs bad after)).bind _)
  | piContextCreate | piQueueCreate | piProgramCreateWithBinary | piProgramCreate
  | piEnqueueKernelLaunch | piEnqueueEventsWait | piEnqueueEventsWaitWithBarrier
  | piextUSMEnqueueMemset =>
    exact .inr (fails_replayCreate host (not_not.mp bad))
  | piMemBufferCreate | piKernelCreate =>
    exact .inr ((fails_storeHandle host (not_not.mp bad)).bind _)
  | piEnqueueMemUnmap => exact .inr ((fails_replayCreate host (not_not.mp bad)).bind _)
  | piEnqueueMemBufferMap => exact .inr (fails_replayMemBufferMap handled rfl bad)
  | piEnqueueMemBufferRead => exact .inr (fails_replayMemBufferRead handled rfl bad)
  | piextUSMEnqueueMemcpy => exact .inr (fails_replayUSMEnqueueMemcpy (not_not.mp bad))
  | piextUSMDeviceAlloc | piextUSMHostAlloc => exact .inr (fails_replayUSMAlloc bad)
  | _ => exact absurd trivial bad

end Table

section Answer

variable {host : ReplayHost} {call : PiCall} {s : Replay} {record : APICall} {trace : IStream}

/-- A call that has read a record runs its entry on it, if the record is of the API it demands. -/
theorem replay_of_read
    (read : getNextRecord host.pb (host.junk s.records) (ensureTraceOpened host s) =
      .ok (record, trace)) :
    replay host call s =
      if record.function_id ≠ host.pi.number (piPluginInit host call).expected then
        .error (.unexpected record.function_id (piPluginInit host call).expected)
      else
        match (piPluginInit host call).body record s.world with
        | .error fault => .error fault
        | .ok (_, world) =>
          .ok (record.return_value.toInt32,
            { GTrace := some trace, records := s.records + 1, world }) := by
  grind [replay]

/-- An answered call has read a record that its entry accepted. -/
theorem read_of_replay {code : Int32} {next : Replay} (ran : replay host call s = .ok (code, next)) :
    ∃ record trace,
      getNextRecord host.pb (host.junk s.records) (ensureTraceOpened host s) = .ok (record, trace) ∧
        (piPluginInit host call).body record s.world = .ok ((), next.world) ∧
        next.GTrace = some trace := by
  rcases read : getNextRecord host.pb (host.junk s.records) (ensureTraceOpened host s) with
    fault | ⟨record, trace⟩
  · rw [replay] at ran
    rw [read] at ran
    cases ran
  · rw [replay_of_read read] at ran
    split_ifs at ran
    rcases body : (piPluginInit host call).body record s.world with fault | ⟨⟨⟩, world⟩
    · rw [body] at ran
      cases ran
    · rw [body] at ran
      obtain ⟨-, rfl⟩ := Prod.mk.inj (Except.ok.inj ran)
      exact ⟨record, trace, rfl, body, rfl⟩

/-- An answered call takes one record. -/
theorem records_of_replay {code : Int32} {next : Replay} (ran : replay host call s = .ok (code, next)) :
    next.records = s.records + 1 := by
  obtain ⟨record, trace, read, -⟩ := read_of_replay ran
  rw [replay_of_read read] at ran
  split_ifs at ran
  rcases body : (piPluginInit host call).body record s.world with fault | ⟨⟨⟩, world⟩
  · rw [body] at ran
    cases ran
  · rw [body] at ran
    obtain ⟨-, rfl⟩ := Prod.mk.inj (Except.ok.inj ran)
    rfl

end Answer

/-- From a trace that stands at a framed record, that record is read. -/
theorem getNextRecord_framed {host : ReplayHost} {s : Replay} {record : APICall}
    {records : List APICall} (framable : Framable host.pb record)
    (synced : ensureTraceOpened host s = { rest := written host.pb (record :: records) }) :
    getNextRecord host.pb (host.junk s.records) (ensureTraceOpened host s) =
      .ok (record, { rest := written host.pb records }) := by
  rw [synced, written_cons]
  exact readRecord_frame framable _ _ false

/-- A call there runs its entry on that record. -/
theorem replay_framed {host : ReplayHost} {call : PiCall} {s : Replay} {record : APICall}
    {records : List APICall} (framable : Framable host.pb record)
    (synced : ensureTraceOpened host s = { rest := written host.pb (record :: records) }) :
    replay host call s =
      if record.function_id ≠ host.pi.number (piPluginInit host call).expected then
        .error (.unexpected record.function_id (piPluginInit host call).expected)
      else
        match (piPluginInit host call).body record s.world with
        | .error fault => .error fault
        | .ok (_, world) =>
          .ok (record.return_value.toInt32,
            { GTrace := some { rest := written host.pb records }, records := s.records + 1, world }) :=
  replay_of_read (getNextRecord_framed framable synced)

section Step

variable {host : ReplayHost} {handler : RecordHandler} {call : PiCall} {after : CallEnd}
  {outputs : Outputs} {records : List APICall} {s : Replay}
  (framable : Framable host.pb (outputs.record host.pi call after))
  (synced : ensureTraceOpened host s =
    { rest := written host.pb (outputs.record host.pi call after :: records) })

include framable synced

/-- A call on its own record returns the recorded code once its entry succeeds. -/
theorem replay_of_body {world : World} (expected : (piPluginInit host call).expected = call.api)
    (ran : (piPluginInit host call).body (outputs.record host.pi call after) s.world =
      .ok ((), world)) :
    replay host call s =
      .ok (after.result,
        { GTrace := some { rest := written host.pb records }, records := s.records + 1, world }) := by
  have id : (outputs.record host.pi call after).function_id =
      host.pi.number (piPluginInit host call).expected := by rw [expected]; rfl
  rw [replay_framed framable synced, if_neg (not_not.mpr id), ran]
  rfl

theorem replay_of_not_replayable (handled : handler.outputs call after = some outputs)
    (bad : ¬Replayable host handler after call) (answer : Int32 × Replay) :
    replay host call s ≠ .ok answer := by
  intro answered
  rw [replay_framed framable synced] at answered
  rcases entry_fails handled bad with other | fails
  · have id : (outputs.record host.pi call after).function_id ≠
        host.pi.number (piPluginInit host call).expected :=
      fun same => other (host.pi.injective same).symm
    rw [if_pos id] at answered
    contradiction
  · obtain ⟨fault, ran⟩ := fails s.world
    rw [ran] at answered
    split_ifs at answered

end Step

private theorem ctorIdx_lt (api : PiApiKind) : api.ctorIdx < 53 := by cases api <;> decide

/-- The APIs numbered in the order of the table. -/
def tableOrder : PiDef where
  number api := UInt32.ofNat api.ctorIdx
  injective := by
    intro first second same
    have index (api : PiApiKind) : (UInt32.ofNat api.ctorIdx).toNat = api.ctorIdx := by
      rw [UInt32.toNat_ofNat', Nat.mod_eq_of_lt ((ctorIdx_lt api).trans (by norm_num))]
    have indices := congrArg UInt32.toNat same
    rw [index, index] at indices
    rw [← PiApiKind.ofNat_ctorIdx first, indices, PiApiKind.ofNat_ctorIdx]

/-- A replay on the given trace file, without buffer files. -/
def sampleHost (traceFile : Bytes) : ReplayHost where
  pb := wire
  pi := tableOrder
  traceFile := some traceFile
  buffers _ := none
  heap index := UInt64.ofNat (0x1000 + 32 * (index % 0x10000))
  heap_ne_zero := by
    intro index null
    have value := congrArg UInt64.toNat null
    rw [UInt64.toNat_ofNat', Nat.mod_eq_of_lt (by omega)] at value
    simp at value
  largest := 2 ^ 40
  junk _ := {}
  objSizeJunk := 0

/-- A call that returned `result`. -/
def sampleEnd (result : Int32) : CallEnd where
  eventId := 3
  timeBegin := 10
  timeEnd := 20
  result := result
  memory _ := 0
  awaited _ := 0
  allocType := PI_MEM_TYPE_UNKNOWN

def sampleHandler : RecordHandler := ⟨str "main", true⟩

def sampleWorld : World where
  memory _ := 0
  allocations := 0
  arrays _ := none
  GKernelProgramMap _ := 0
  GMemContextMap _ := 0

end DpcppTrace.Soundness
