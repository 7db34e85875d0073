import DpcppTrace.Soundness.Replay
import DpcppTrace.Soundness.TraceTermination

/-! # Calls behind the end of a trace

The replay plugin never asks its stream whether a record was read. Behind the last whole record it
takes zeros for what is missing, and whether a call is rejected depends on the API that these name:
nothing at all names the first one of `pi.def`, and a record that is cut behind its function's number
the one that was recorded.
-/

namespace DpcppTrace.Soundness

open Foundation Model Effect

variable {host : ReplayHost} {s : Replay}

/-- The plugin reports an unexpected call and exits. -/
def Rejected (host : ReplayHost) (call : PiCall) (s : Replay) : Prop :=
  ∃ funcId expected, replay host call s = .error (.unexpected funcId expected)

/-- A thread's calls, all of them answered. -/
def replayCalls (host : ReplayHost) : List PiCall → Replay → Except ReplayFault Replay
  | [], s => .ok s
  | call :: calls, s =>
    match replay host call s with
    | .error fault => .error fault
    | .ok (_, next) => replayCalls host calls next

/-- A stream has so many whole records to come, and then a rest that is not one; nothing once it has
failed. -/
inductive Remaining : IStream → ℕ → Option Bytes → Prop
  | failed {is : IStream} (bad : is.good = false) : Remaining is 0 none
  | rest {data : Bytes} (cut : data.length < 4 + frameSize data) :
      Remaining { rest := data } 0 (some data)
  | record {data : Bytes} {count : ℕ} {left : Option Bytes}
      (whole : 4 + frameSize data ≤ data.length)
      (later : Remaining { rest := data.drop (4 + frameSize data) } count left) :
      Remaining { rest := data } (count + 1) left

/-- The buffer of a record that is cut: zeros stand for what is missing. -/
def padded (data : Bytes) : Bytes :=
  IStream.overlay (List.replicate (frameSize data + 1) 0) (data.drop 4)

/-- The rest holds no data of a record: nothing, a length at most, or a length that makes the buffer wrap
and no more bytes than an empty string has room for. -/
def Blank (junk : StackFrame) : Option Bytes → Prop
  | none => True
  | some data => data.length ≤ 4 ∨ frameSize data + 1 = 2 ^ 32 ∧ data.length ≤ 4 + junk.room

/-- The rest is the front of what the recorder writes for this record. -/
def CutOf (pb : Protobuf) (data : Bytes) (record : APICall) : Prop :=
  Framable pb record ∧ data <+: serialize pb record

/-- A call of the API is not rejected behind the last whole record. -/
inductive Mistaken (host : ReplayHost) (junk : StackFrame) (expected : PiApiKind) : Option Bytes → Prop
  /-- Nothing is a record of the first API. -/
  | blank {left : Option Bytes} (blank : Blank junk left) (first : expected = .piPlatformsGet) :
      Mistaken host junk expected left
  /-- The plugin does not come as far as to reject anything. -/
  | overrun {data : Bytes} (wraps : frameSize data + 1 = 2 ^ 32)
      (behind : 4 + junk.room < data.length) : Mistaken host junk expected (some data)
  /-- The digits that are left of a record's function are those of the API. -/
  | cut {data : Bytes} (size : 4 < data.length) {record : APICall} (cutOf : CutOf host.pb data record)
      (digits : record.function_id.toNat % 128 ^ (data.length - 5) = (host.pi.number expected).toNat) :
      Mistaken host junk expected (some data)
  /-- What no recorder wrote is what protobuf makes of it. -/
  | foreign {data : Bytes} (size : 4 < data.length) (room : frameSize data + 1 ≠ 2 ^ 32)
      (unwritten : ∀ record, ¬CutOf host.pb data record)
      (named : (host.pb.ParseFromString (padded data)).function_id = host.pi.number expected) :
      Mistaken host junk expected (some data)

/-- Every trace is so many whole records and a rest. -/
theorem exists_remaining (traceFile : Option Bytes) :
    ∃ count left, Remaining (.opened traceFile) count left := by
  rcases traceFile with _ | data
  · exact ⟨0, none, .failed rfl⟩
  · induction size : data.length using Nat.strong_induction_on generalizing data with
    | h _ ih =>
      by_cases whole : 4 + frameSize data ≤ data.length
      · have shorter : (data.drop (4 + frameSize data)).length < data.length := by
          rw [List.length_drop]
          omega
        obtain ⟨count, left, later⟩ := ih _ (by omega) (data.drop (4 + frameSize data)) rfl
        exact ⟨count + 1, left, .record whole later⟩
      · exact ⟨0, some data, .rest (by omega)⟩

/-! ## What a call leaves of the trace -/

section Reading

variable {pb : Protobuf} {junk : StackFrame} {count : ℕ} {is next : IStream} {left : Option Bytes}
  {record : APICall}

/-- A whole record is consumed. -/
theorem Remaining.consume (standing : Remaining is (count + 1) left)
    (ran : getNextRecord pb junk is = .ok (record, next)) : Remaining next count left := by
  have bounded := junk.bounded
  obtain _ | _ | ⟨whole, later⟩ := standing
  rename_i data
  rw [getNextRecord] at ran
  by_cases wraps : frameSize data + 1 = 2 ^ 32
  · rw [readRecord_overrun junk wraps (by omega)] at ran
    cases ran
  · obtain ⟨_, read⟩ : ∃ record, readRecord pb junk { rest := data } =
        .ok (record, { rest := data.drop (4 + frameSize data) }) := readRecord_whole junk whole wraps
    rw [read] at ran
    obtain rfl := (Prod.mk.inj (Except.ok.inj ran)).2
    exact later

/-- A stream that has failed delivers no data, so the buffer keeps its zeros. -/
theorem readRecord_failed (pb : Protobuf) (junk : StackFrame) {is : IStream} (bad : is.good = false) :
    ∃ size next, readRecord pb junk is = .ok (pb.ParseFromString (List.replicate size 0), next) ∧
      next.good = false := by
  have again : ({ is with failbit := true } : IStream).good = false := by simp [IStream.good]
  simp only [readRecord, IStream.read_failed bad, IStream.read_failed again, List.take_nil,
    IStream.overlay_nil]
  rw [if_neg (by simp)]
  exact ⟨_, _, rfl, again⟩

/-- Neither does a stream without a whole length. -/
theorem readRecord_without_length (pb : Protobuf) (junk : StackFrame) {data : Bytes}
    (short : data.length < 4) :
    ∃ size next, readRecord pb junk { rest := data } =
      .ok (pb.ParseFromString (List.replicate size 0), next) ∧ next.good = false := by
  have bad : IStream.good { rest := [], eofbit := true, failbit := true } = false := rfl
  simp only [readRecord, IStream.read_short short, IStream.read_failed bad, List.take_nil,
    IStream.overlay_nil]
  rw [if_neg (by simp)]
  exact ⟨_, _, rfl, rfl⟩

/-- A cut record is parsed with zeros for its missing part. -/
theorem readRecord_padded (pb : Protobuf) (junk : StackFrame) {data : Bytes} (size : 4 ≤ data.length)
    (cut : data.length < 4 + frameSize data) (room : frameSize data + 1 ≠ 2 ^ 32) :
    ∃ next, readRecord pb junk { rest := data } = .ok (pb.ParseFromString (padded data), next) ∧
      next.good = false := by
  have bound := frameSize_lt data
  have short : (data.drop 4).length < frameSize data := by
    rw [List.length_drop]
    omega
  have fits : (frameSize data + 1) % 2 ^ 32 = frameSize data + 1 := Nat.mod_eq_of_lt (by omega)
  have all : (data.drop 4).take (frameSize data + 1) = data.drop 4 :=
    List.take_of_length_le (by omega)
  simp only [readRecord, read_size size, overlay_size junk size, IStream.read_short short, fits, all]
  rw [if_neg (by omega)]
  exact ⟨_, rfl, rfl⟩

/-- A length alone, or one that makes the buffer wrap, leaves an empty record. -/
theorem readRecord_blank (pb : Protobuf) (junk : StackFrame) {data : Bytes} (size : 4 ≤ data.length)
    (cut : data.length < 4 + frameSize data) (blank : Blank junk (some data)) :
    ∃ size next, readRecord pb junk { rest := data } =
      .ok (pb.ParseFromString (List.replicate size 0), next) ∧ next.good = false := by
  have short : (data.drop 4).length < frameSize data := by
    rw [List.length_drop]
    omega
  simp only [readRecord, read_size size, overlay_size junk size, IStream.read_short short]
  rcases blank with alone | ⟨wraps, few⟩
  · have nothing : data.drop 4 = [] := List.drop_eq_nil_of_le alone
    rw [nothing, List.take_nil, IStream.overlay_nil, if_neg (by simp)]
    exact ⟨_, _, rfl, rfl⟩
  · have inside : (data.drop 4).length ≤ junk.room := by
      rw [List.length_drop]
      omega
    rw [wraps, Nat.mod_self, if_neg (by omega), List.take_zero, IStream.overlay_nil]
    exact ⟨_, _, rfl, rfl⟩

end Reading

/-- What the plugin makes of what is left: a record, after which the stream has failed; or it writes past
the end of its buffer. -/
inductive Leftover (host : ReplayHost) (junk : StackFrame) :
    Option Bytes → Except ReadFault (APICall × IStream) → Prop
  | blank {left : Option Bytes} {size : ℕ} {next : IStream} (blank : Blank junk left)
      (bad : next.good = false) :
      Leftover host junk left (.ok (host.pb.ParseFromString (List.replicate size 0), next))
  | cut {data : Bytes} {next : IStream} (size : 4 < data.length)
      (cut : data.length < 4 + frameSize data) (room : frameSize data + 1 ≠ 2 ^ 32)
      (bad : next.good = false) :
      Leftover host junk (some data) (.ok (host.pb.ParseFromString (padded data), next))
  | overrun {data : Bytes} (wraps : frameSize data + 1 = 2 ^ 32)
      (behind : 4 + junk.room < data.length) :
      Leftover host junk (some data) (.error .bufferOverrun)

private theorem leftover_of_spent (host : ReplayHost) (junk : StackFrame) {is : IStream}
    {left : Option Bytes} (spent : Remaining is 0 left) :
    Leftover host junk left (getNextRecord host.pb junk is) := by
  rw [getNextRecord]
  cases spent with
  | failed bad =>
    obtain ⟨size, next, ran, failed⟩ := readRecord_failed host.pb junk bad
    rw [ran]
    exact .blank trivial failed
  | @rest data cut =>
    by_cases short : data.length < 4
    · obtain ⟨size, next, ran, failed⟩ := readRecord_without_length host.pb junk short
      rw [ran]
      exact .blank (.inl short.le) failed
    by_cases blank : Blank junk (some data)
    · obtain ⟨size, next, ran, failed⟩ := readRecord_blank host.pb junk (by omega) cut blank
      rw [ran]
      exact .blank blank failed
    obtain ⟨behind, more⟩ := not_or.mp blank
    by_cases wraps : frameSize data + 1 = 2 ^ 32
    · have beyond : 4 + junk.room < data.length := not_le.mp fun few => more ⟨wraps, few⟩
      rw [readRecord_overrun junk wraps beyond]
      exact .overrun wraps beyond
    · obtain ⟨next, ran, failed⟩ := readRecord_padded host.pb junk (by omega) cut wraps
      rw [ran]
      exact .cut (by omega) cut wraps failed

/-- The trace of an answered call has advanced. -/
theorem remaining_of_replay {call : PiCall} {next : Replay} {code : Int32} {count : ℕ}
    {left : Option Bytes} (ran : replay host call s = .ok (code, next))
    (standing : Remaining (ensureTraceOpened host s) count left) :
    Remaining (ensureTraceOpened host next) (count - 1) (if count = 0 then none else left) := by
  obtain ⟨record, trace, read, -, moved⟩ := read_of_replay ran
  rw [ensureTraceOpened, moved]
  cases count with
  | succ count => exact standing.consume read
  | zero =>
    have made := leftover_of_spent host (host.junk s.records) standing
    rw [read] at made
    cases made with
    | blank blank bad => exact .failed bad
    | cut size cut room bad => exact .failed bad

/-- So has the trace of a run. -/
theorem remaining_of_replayCalls {calls : List PiCall} {final : Replay} {count : ℕ}
    {left : Option Bytes} (ran : replayCalls host calls s = .ok final)
    (standing : Remaining (ensureTraceOpened host s) count left) :
    Remaining (ensureTraceOpened host final) (count - calls.length)
      (if count < calls.length then none else left) := by
  induction calls generalizing s count left with
  | nil =>
    obtain rfl := Except.ok.inj ran
    exact standing
  | cons call calls ih =>
    rw [replayCalls] at ran
    rcases answered : replay host call s with fault | ⟨code, next⟩
    · rw [answered] at ran
      cases ran
    rw [answered] at ran
    have here := ih ran (remaining_of_replay answered standing)
    rw [List.length_cons]
    cases count with
    | zero => simpa using here
    | succ count => simpa [Nat.succ_sub_succ] using here

/-! ## What rejects a call -/

/-- A fault other than the rejection of the record. -/
def Inner (fault : ReplayFault) : Prop := ∀ funcId expected, fault ≠ .unexpected funcId expected

section Bodies

variable {record : APICall}

private theorem raises_store (address : UInt64) (bytes : Bytes) : Raises Inner (store address bytes) := by
  intro world fault ran
  rw [store] at ran
  split_ifs at ran
  obtain rfl := Except.error.inj ran
  exact fun _ _ same => by cases same

private theorem raises_newChars (size : ℕ) : Raises Inner (newChars host size) := by
  intro world fault ran
  rw [newChars] at ran
  split_ifs at ran
  obtain rfl := Except.error.inj ran
  exact fun _ _ same => by cases same

private theorem raises_deleteChars (pointer : UInt64) : Raises Inner (deleteChars pointer) := by
  intro world fault ran
  rw [deleteChars_eq] at ran
  split at ran
  · cases ran
  · obtain rfl := Except.error.inj ran
    exact fun _ _ same => by cases same

private theorem raises_smallOutput : Raises Inner (smallOutput record) := by
  intro world fault ran
  rw [smallOutput] at ran
  split at ran
  · cases ran
  · obtain rfl := Except.error.inj ran
    exact fun _ _ same => by cases same

private theorem raises_smallOutputWord : Raises Inner (smallOutputWord record) := by
  refine raises_smallOutput.bind fun output => ?_
  have missing : Raises Inner (fault .missingOutput) := by
    intro world fault ran
    obtain rfl := Except.error.inj ran
    exact fun _ _ same => by cases same
  dsimp only
  split
  · exact missing.bind fun _ => (total_pure _).raises Inner
  · exact (total_pure _).raises Inner

private theorem raises_openBuffer : Raises Inner (openBuffer host record) := by
  intro world fault ran
  rw [openBuffer] at ran
  split at ran
  · cases ran
  · obtain rfl := Except.error.inj ran
    exact fun _ _ same => by cases same

private theorem raises_storeHandle (pointer : UInt64) : Raises Inner (storeHandle host pointer) :=
  ((total_newInt host).raises Inner).bind fun _ =>
    (raises_store _ _).bind fun _ => (total_pure _).raises Inner

private theorem raises_replayCreate (pointer : UInt64) : Raises Inner (replayCreate host pointer) :=
  (raises_storeHandle pointer).bind fun _ => (total_pure _).raises Inner

private theorem raises_replayGetInfo (query : InfoQuery) : Raises Inner (replayGetInfo record query) :=
  raises_smallOutput.bind fun _ => raises_store _ _

private theorem raises_replayCount (numEntries : UInt32) (array count : UInt64) :
    Raises Inner (replayCount host record numEntries array count) := by
  have fill : Raises Inner (if numEntries > 0 ∧ array ≠ 0 then
      storeHandles host array numEntries.toNat else pure () : Effect Unit) := by
    split
    · exact (total_storeHandles host array _).raises Inner
    · exact (total_pure _).raises Inner
  rw [replayCount]
  split
  · exact raises_smallOutputWord.bind fun _ => (raises_store _ _).bind fun _ => fill
  · exact fill

/-- The entries' own faults never look like a rejected record. -/
theorem raises_body (call : PiCall) : Raises Inner ((piPluginInit host call).body record) := by
  cases call with
  | piPlatformsGet | piDevicesGet => exact raises_replayCount _ _ _
  | piPlatformGetInfo | piDeviceGetInfo | piContextGetInfo | piQueueGetInfo | piMemImageGetInfo
  | piProgramGetInfo | piKernelGetGroupInfo => exact raises_replayGetInfo _
  | piMemGetInfo | piKernelGetInfo =>
    refine (raises_replayGetInfo _).bind fun _ => ?_
    split
    · exact (total_get.raises Inner).bind fun _ => raises_store _ _
    · exact (total_pure _).raises Inner
  | piextDeviceSelectBinary => exact raises_smallOutputWord.bind fun _ => raises_store _ _
  | piContextCreate | piQueueCreate | piProgramCreateWithBinary | piProgramCreate
  | piEnqueueKernelLaunch | piEnqueueEventsWait | piEnqueueEventsWaitWithBarrier
  | piextUSMEnqueueMemset => exact raises_replayCreate _
  | piMemBufferCreate | piKernelCreate =>
    exact (raises_storeHandle _).bind fun _ => (total_modify _).raises Inner
  | piEnqueueMemUnmap =>
    exact (raises_replayCreate _).bind fun _ => raises_deleteChars _
  | piEnqueueMemBufferMap =>
    exact raises_openBuffer.bind fun _ => (raises_newChars _).bind fun _ =>
      (raises_store _ _).bind fun _ => (raises_store _ _).bind fun _ => raises_replayCreate _
  | piEnqueueMemBufferRead =>
    exact raises_openBuffer.bind fun _ => (raises_store _ _).bind fun _ => raises_replayCreate _
  | piextUSMEnqueueMemcpy =>
    change Raises Inner (replayUSMEnqueueMemcpy host record _ _ _)
    rw [replayUSMEnqueueMemcpy]
    split
    · exact raises_openBuffer.bind fun _ => (raises_store _ _).bind fun _ => raises_replayCreate _
    · exact raises_replayCreate _
  | piextUSMDeviceAlloc | piextUSMHostAlloc =>
    exact (raises_newChars _).bind fun _ => raises_store _ _
  | piextUSMFree =>
    exact raises_deleteChars _
  | _ => exact (total_pure _).raises Inner

end Bodies

/-- A call is rejected exactly if its record is not of the API that the entry demands. -/
theorem rejected_of_read {call : PiCall} {record : APICall} {trace : IStream}
    (read : getNextRecord host.pb (host.junk s.records) (ensureTraceOpened host s) =
      .ok (record, trace)) :
    Rejected host call s ↔ record.function_id ≠ host.pi.number (piPluginInit host call).expected := by
  rw [Rejected, replay_of_read read]
  constructor
  · rintro ⟨funcId, expected, ran⟩ same
    rw [if_neg (not_not.mpr same)] at ran
    rcases body : (piPluginInit host call).body record s.world with fault | ⟨_, world⟩
    · rw [body] at ran
      obtain rfl := Except.error.inj ran
      exact raises_body call _ _ body _ _ rfl
    · rw [body] at ran
      cases ran
  · intro other
    rw [if_pos other]
    exact ⟨_, _, rfl⟩

/-- A record without fields is one of the first API. -/
theorem blank_ne_iff (numbered : host.pi.number .piPlatformsGet = 0)
    (blank : ∀ size, host.pb.ParseFromString (List.replicate size 0) = {}) (size : ℕ)
    (expected : PiApiKind) :
    (host.pb.ParseFromString (List.replicate size 0)).function_id ≠ host.pi.number expected ↔
      expected ≠ .piPlatformsGet := by
  rw [blank]
  change (0 : UInt32) ≠ _ ↔ _
  rw [← numbered, ne_comm, host.pi.injective.ne_iff]

/-- A record that is cut behind its length: what is left of its body. -/
theorem CutOf.body {pb : Protobuf} {data : Bytes} {record : APICall} (cutOf : CutOf pb data record)
    (size : 4 ≤ data.length) :
    frameSize data = (pb.SerializeToString record).length ∧
      data.drop 4 = (pb.SerializeToString record).take (data.length - 4) := by
  obtain ⟨framable, front⟩ := cutOf
  have bound : (pb.SerializeToString record).length < 2 ^ 32 - 1 := framable
  rw [List.prefix_iff_eq_take, serialize_of_framable framable, List.take_append,
    List.take_of_length_le (by simpa using size), leBytes_length] at front
  constructor
  · rw [frameSize, front, List.take_left' (leBytes_length ..), ofLe_leBytes_of_lt (by norm_num; omega)]
  · conv_lhs => rw [front]
    rw [List.drop_left' (leBytes_length ..)]

/-- What is left of a record's function is what is read of it. -/
theorem cut_function_id {data : Bytes} {record : APICall} (first : FunctionFirst host.pb)
    (cutOf : CutOf host.pb data record) (size : 4 < data.length)
    (cut : data.length < 4 + frameSize data) :
    (host.pb.ParseFromString (padded data)).function_id.toNat =
      record.function_id.toNat % 128 ^ (data.length - 5) := by
  obtain ⟨announced, body⟩ := cutOf.body size.le
  rw [announced] at cut
  have length : ((host.pb.SerializeToString record).take (data.length - 4)).length =
      data.length - 4 := by
    rw [List.length_take]
    omega
  have zeros : (host.pb.SerializeToString record).length + 1 - (data.length - 4) =
      (host.pb.SerializeToString record).length - (data.length - 4) + 1 := by omega
  have read := first record (data.length - 4)
    ((host.pb.SerializeToString record).length - (data.length - 4)) (by omega) (by omega)
  rwa [padded, body, announced, IStream.overlay, List.drop_replicate, length, zeros,
    show data.length - 5 = data.length - 4 - 1 by omega]

/-- Only the first API is mistaken where no data are left. -/
theorem mistaken_blank_iff {junk : StackFrame} {expected : PiApiKind} {left : Option Bytes}
    (blank : Blank junk left) :
    Mistaken host junk expected left ↔ expected = .piPlatformsGet := by
  refine ⟨fun mistaken => ?_, .blank blank⟩
  cases mistaken with
  | blank _ first => exact first
  | overrun wraps behind => rcases blank with alone | ⟨-, few⟩ <;> omega
  | cut size cutOf =>
    have bound : _ < 2 ^ 32 - 1 := cutOf.1
    have announced := (cutOf.body size.le).1
    rcases blank with alone | ⟨wraps, -⟩ <;> omega
  | foreign size room =>
    rcases blank with alone | ⟨wraps, -⟩
    · omega
    · exact absurd wraps room

/-- Where a record is cut, the API is mistaken that is read of it. -/
theorem mistaken_cut_iff {junk : StackFrame} {expected : PiApiKind} {data : Bytes}
    (first : FunctionFirst host.pb) (size : 4 < data.length)
    (cut : data.length < 4 + frameSize data) (room : frameSize data + 1 ≠ 2 ^ 32) :
    Mistaken host junk expected (some data) ↔
      (host.pb.ParseFromString (padded data)).function_id = host.pi.number expected := by
  constructor
  · intro mistaken
    cases mistaken with
    | blank blank =>
      rcases blank with alone | ⟨wraps, -⟩
      · omega
      · exact absurd wraps room
    | overrun wraps => exact absurd wraps room
    | cut _ cutOf digits =>
      rw [← UInt32.toNat_inj, cut_function_id first cutOf size cut, digits]
    | foreign _ _ _ named => exact named
  · intro named
    by_cases written : ∃ record, CutOf host.pb data record
    · obtain ⟨record, cutOf⟩ := written
      refine .cut size cutOf ?_
      rw [← cut_function_id first cutOf size cut, named]
    · exact .foreign size room (not_exists.mp written) named

private theorem rejected_iff (numbered : host.pi.number .piPlatformsGet = 0)
    (blank : ∀ size, host.pb.ParseFromString (List.replicate size 0) = {})
    (first : FunctionFirst host.pb) {left : Option Bytes}
    (spent : Remaining (ensureTraceOpened host s) 0 left) (call : PiCall) :
    Rejected host call s ↔
      ¬Mistaken host (host.junk s.records) (piPluginInit host call).expected left := by
  have made := leftover_of_spent host (host.junk s.records) spent
  generalize read : getNextRecord host.pb (host.junk s.records) (ensureTraceOpened host s) = outcome
    at made
  cases made with
  | @blank _ size next isBlank bad =>
    rw [rejected_of_read read, blank_ne_iff numbered blank size, mistaken_blank_iff isBlank]
  | @cut data next size cut room bad =>
    rw [rejected_of_read read, mistaken_cut_iff first size cut room]
  | @overrun data wraps behind =>
    refine iff_of_false ?_ (not_not.mpr (.overrun wraps behind))
    rintro ⟨funcId, expected, ran⟩
    rw [replay] at ran
    rw [read] at ran
    cases ran

/-- An answered call consumes one record, and the next call finds the next stack. -/
theorem records_of_replayCalls {calls : List PiCall} {final : Replay}
    (ran : replayCalls host calls s = .ok final) : final.records = s.records + calls.length := by
  induction calls generalizing s with
  | nil =>
    obtain rfl := Except.ok.inj ran
    rfl
  | cons call calls ih =>
    rw [replayCalls] at ran
    rcases answered : replay host call s with fault | ⟨code, next⟩
    · rw [answered] at ran
      cases ran
    rw [answered] at ran
    rw [ih ran, records_of_replay answered, List.length_cons]
    omega

/-- In every run over a trace, a call made behind its last whole record is rejected exactly if what is
left there cannot be mistaken for a record of the API that the call demands. -/
theorem exhausted_rejected_iff (host : ReplayHost) (numbered : host.pi.number .piPlatformsGet = 0)
    (blank : ∀ size, host.pb.ParseFromString (List.replicate size 0) = {})
    (first : FunctionFirst host.pb) {count : ℕ} {left : Option Bytes}
    (trace : Remaining (.opened host.traceFile) count left) (world : World) (calls : List PiCall)
    (ran : replayCalls host calls { GTrace := none, records := 0, world } = .ok s)
    (longer : count ≤ calls.length) (call : PiCall) :
    Rejected host call s ↔
      ¬Mistaken host (host.junk calls.length) (piPluginInit host call).expected
        (if count < calls.length then none else left) := by
  have spent := remaining_of_replayCalls ran trace
  rw [Nat.sub_eq_zero_of_le longer] at spent
  have made := records_of_replayCalls ran
  rw [rejected_iff numbered blank first spent call, made, Nat.zero_add]

private theorem wire_blank (size : ℕ) : wire.ParseFromString (List.replicate size 0) = {} := by
  have zeros : Wire.Terminated (List.replicate size 0) := by
    cases size with
    | zero => trivial
    | succ size => rfl
  have read := Wire.parseMessage_encodeFields [] (fun _ member => by cases member) _ zeros
  change (Wire.parseMessage (List.replicate size 0)).foldl APICall.merge {} = {}
  rw [show List.replicate size (0 : UInt8) = Wire.encodeFields [] ++ List.replicate size 0 from rfl, read]
  rfl

/-- A trace with the record of a `piDeviceRetain`, and the front of the next function's one. -/
def retainTrace : Bytes := [2, 0, 0, 0, 8, 4, 4, 0, 0, 0, 8, 5]

/-- The second retain finds no record of its own. -/
theorem exhausted_rejected_iff_retain :
    ∃ s, replayCalls (sampleHost retainTrace) [.piDeviceRetain 5] ⟨none, 0, sampleWorld⟩ = .ok s ∧
      Rejected (sampleHost retainTrace) (.piDeviceRetain 5) s := by
  refine ⟨_, rfl, (exhausted_rejected_iff (sampleHost retainTrace) rfl wire_blank wire_functionFirst
    (.record (by decide) (.rest (by decide))) sampleWorld [.piDeviceRetain 5] rfl (by decide)
    (.piDeviceRetain 5)).mpr ?_⟩
  intro mistaken
  have named : (wire.ParseFromString (padded [4, 0, 0, 0, 8, 5])).function_id =
      (sampleHost retainTrace).pi.number .piDeviceRetain :=
    (mistaken_cut_iff wire_functionFirst (by decide) (by decide) (by decide)).mp mistaken
  exact absurd named (by decide)

/-- On an empty trace, a query for the number of platforms is answered with success. -/
theorem not_exhausted_rejected :
    ¬∀ (host : ReplayHost), host.pi.number .piPlatformsGet = 0 →
      (∀ size, host.pb.ParseFromString (List.replicate size 0) = {}) →
        ∀ (count : ℕ) (left : Option Bytes), Remaining (.opened host.traceFile) count left →
          ∀ (calls : List PiCall) (s : Replay),
            replayCalls host calls ⟨none, 0, sampleWorld⟩ = .ok s → count ≤ calls.length →
              ∀ call, Rejected host call s := by
  intro always
  have rejected := always (sampleHost []) rfl wire_blank 0 (some []) (.rest (by decide)) [] _ rfl
    (by decide) (.piPlatformsGet 0 0 0)
  have distinguished : ¬Mistaken (sampleHost []) {} .piPlatformsGet (some []) :=
    (rejected_iff rfl wire_blank wire_functionFirst (.rest (by decide)) (.piPlatformsGet 0 0 0)).mp
      rejected
  exact distinguished (.blank (.inl (by decide)) rfl)

end DpcppTrace.Soundness
