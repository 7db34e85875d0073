import DpcppTrace.Soundness.Replay

/-! # Which info queries replay leaves the outputs the recorded call left

The recorder stores the outputs of five of the nine info queries, the value before the size, and
none for the others. Replay decodes all nine with one helper that writes the first stored output to
one of the two pointers. So a query needs one of the five APIs and a pointer at all, and with both
pointers the size comes out right only where it lies in the bytes the value covers.
-/

namespace DpcppTrace.Soundness

open Foundation Model Effect

/-- The query of an info call. -/
def infoQuery : PiCall → Option InfoQuery
  | .piPlatformGetInfo _ query | .piDeviceGetInfo _ query | .piContextGetInfo _ query
  | .piQueueGetInfo _ query | .piMemGetInfo _ query | .piMemImageGetInfo _ query
  | .piProgramGetInfo _ query | .piKernelGetInfo _ query | .piKernelGetGroupInfo _ _ query =>
    some query
  | _ => none

/-- The APIs whose handlers store the outputs of the query. -/
def StoresOutputs : PiCall → Prop
  | .piPlatformGetInfo .. | .piDeviceGetInfo .. | .piContextGetInfo .. | .piKernelGetInfo ..
  | .piKernelGetGroupInfo .. => True
  | _ => False

/-- How many bytes at the front of the value replay substitutes by a handle of its own. -/
def substituted : PiCall → ℕ
  | .piMemGetInfo _ query => if query.param_name = CL_MEM_CONTEXT then 8 else 0
  | .piKernelGetInfo _ query => if query.param_name = PI_KERNEL_INFO_PROGRAM then 8 else 0
  | _ => 0

/-- Each output that is not null has the bytes the recorded call left there, apart from the
substituted ones. -/
def Delivered (query : InfoQuery) (skipped : ℕ) (recorded replayed : Memory) : Prop :=
  (query.param_value ≠ 0 → ∀ offset, skipped ≤ offset → offset < query.param_value_size.toNat →
    replayed (query.param_value.toNat + offset) = recorded (query.param_value.toNat + offset)) ∧
  (query.param_value_size_ret ≠ 0 → ∀ offset < 8,
    replayed (query.param_value_size_ret.toNat + offset) =
      recorded (query.param_value_size_ret.toNat + offset))

/-- With both pointers, the returned size lies within the value, behind the substituted bytes. -/
def Covered (query : InfoQuery) (skipped : ℕ) : Prop :=
  query.param_value ≠ 0 → query.param_value_size_ret ≠ 0 →
    query.param_value.toNat + skipped ≤ query.param_value_size_ret.toNat ∧
      query.param_value_size_ret.toNat + 8 ≤
        query.param_value.toNat + query.param_value_size.toNat

/-- Memory after the helper wrote the first stored output and the entry its own handle. -/
def replayedMemory (query : InfoQuery) (skipped : ℕ) (handle : UInt64) (memory recorded : Memory) :
    Memory :=
  if query.param_value ≠ 0 then
    let written := memory.write query.param_value.toNat
      (recorded.read query.param_value.toNat query.param_value_size.toNat)
    if skipped = 0 then written
    else written.write query.param_value.toNat (leBytes 8 handle.toNat)
  else
    memory.write query.param_value_size_ret.toNat
      (recorded.read query.param_value_size_ret.toNat 8)

private theorem replayGetInfo_ok {query : InfoQuery} {record : APICall} {after : CallEnd}
    (stored : record.small_outputs = (handleGetInfo query after).small_outputs)
    (answered : Answered query) (handle : UInt64) (world : World) :
    replayGetInfo record query world =
      .ok ((), { world with memory := replayedMemory query 0 handle world.memory after.memory }) := by
  rw [replayGetInfo_eq stored answered, replayedMemory]
  split
  · rename_i value
    simp [store, value]
  · rename_i value
    simp [store, answered.resolve_left value]

/-- What the entry of a stored query does to the plugin's state. -/
theorem entry_stored (host : ReplayHost) {handler : RecordHandler} {call : PiCall}
    {query : InfoQuery} {after : CallEnd} {outputs : Outputs} (isInfo : infoQuery call = some query)
    (stores : StoresOutputs call) (answered : Answered query)
    (handled : handler.outputs call after = some outputs) :
    ∃ kernel, ∀ world,
      (piPluginInit host call).body (outputs.record host.pi call after) world =
        .ok ((), { world with
          memory := replayedMemory query (substituted call) (world.GKernelProgramMap kernel)
            world.memory after.memory }) := by
  cases call with
  | piPlatformGetInfo | piDeviceGetInfo | piContextGetInfo | piKernelGetGroupInfo =>
    obtain rfl := Option.some.inj isInfo
    obtain rfl := Option.some.inj handled
    exact ⟨0, fun world => replayGetInfo_ok rfl answered _ world⟩
  | piKernelGetInfo kernel query =>
    obtain rfl := Option.some.inj isInfo
    obtain rfl := Option.some.inj handled
    refine ⟨kernel, fun world => ?_⟩
    change replayKernelGetInfo _ kernel query world = _
    rw [replayKernelGetInfo, bind_ok (replayGetInfo_ok rfl answered 0 world)]
    by_cases replaced : query.param_name = PI_KERNEL_INFO_PROGRAM ∧ query.param_value ≠ 0
    · rw [if_pos replaced]
      have nonnull : ¬(query.param_value = 0 ∧ leBytes 8
          (world.GKernelProgramMap kernel).toNat ≠ []) := fun null => replaced.2 null.1
      change storePointer query.param_value (world.GKernelProgramMap kernel) _ = _
      rw [storePointer, store, if_neg nonnull]
      simp [replayedMemory, substituted, replaced.1, replaced.2]
    · rw [if_neg replaced]
      by_cases program : query.param_name = PI_KERNEL_INFO_PROGRAM
      · have null : query.param_value = 0 := by_contra fun nonnull => replaced ⟨program, nonnull⟩
        simp [replayedMemory, null, pure_ok]
      · simp [replayedMemory, substituted, program, pure_ok]
  | _ => exact stores.elim

/-- A covered query gets its outputs whatever memory and handles replay starts from. -/
theorem delivered_of_covered {query : InfoQuery} {skipped : ℕ} (width : skipped = 0 ∨ skipped = 8)
    (covered : Covered query skipped) (handle : UInt64) (memory recorded : Memory) :
    Delivered query skipped recorded (replayedMemory query skipped handle memory recorded) := by
  by_cases value : query.param_value = 0
  · refine ⟨fun nonnull => absurd value nonnull, fun _ offset inside => ?_⟩
    simp only [replayedMemory, value, ne_eq, not_true, if_false]
    exact Memory.write_inside _ _ (Memory.getElem?_read _ _ inside)
  · have front (offset : ℕ) (behind : skipped ≤ offset)
        (inside : offset < query.param_value_size.toNat) :
        replayedMemory query skipped handle memory recorded (query.param_value.toNat + offset) =
          recorded (query.param_value.toNat + offset) := by
      have written := Memory.write_inside memory query.param_value.toNat
        (Memory.getElem?_read recorded query.param_value.toNat inside)
      simp only [replayedMemory, ne_eq, value, not_false_eq_true, if_true]
      rcases width with rfl | rfl
      · simpa using written
      · simp only [OfNat.ofNat_ne_zero, if_false]
        rw [Memory.write_outside _ (.inr (by simpa using behind))]
        exact written
    refine ⟨fun _ => front, fun nonnull offset inside => ?_⟩
    obtain ⟨below, above⟩ := covered value nonnull
    obtain ⟨distance, place⟩ := Nat.exists_eq_add_of_le
      ((Nat.le_add_right query.param_value.toNat skipped).trans below)
    have same := front (distance + offset) (by omega) (by omega)
    rw [← Nat.add_assoc, ← place] at same
    exact same

/-- Where neither the value nor anything but a substituted handle reaches, replay leaves a byte it
can be made to start from. -/
theorem replayedMemory_uniform {query : InfoQuery} {skipped : ℕ} (width : skipped = 0 ∨ skipped = 8)
    (value : query.param_value ≠ 0) {byte : UInt8} {handle : UInt64}
    (filled : ∀ offset < 8, (leBytes 8 handle.toNat)[offset]? = some byte) (recorded : Memory)
    {location : ℕ}
    (uncovered : location < query.param_value.toNat + skipped ∨
      query.param_value.toNat + query.param_value_size.toNat ≤ location) :
    replayedMemory query skipped handle (fun _ => byte) recorded location = byte := by
  simp only [replayedMemory, ne_eq, value, not_false_eq_true, if_true]
  by_cases window : query.param_value.toNat ≤ location ∧
      location < query.param_value.toNat + skipped
  · obtain ⟨offset, rfl⟩ := Nat.exists_eq_add_of_le window.1
    rcases width with rfl | rfl
    · omega
    · simp only [OfNat.ofNat_ne_zero, if_false]
      exact Memory.write_inside _ _ (filled offset (by omega))
  · have untouched : (Memory.write (fun _ => byte) query.param_value.toNat
        (recorded.read query.param_value.toNat query.param_value_size.toNat)) location = byte :=
      Memory.write_outside _ (by rw [Memory.read_length]; omega)
    rcases width with rfl | rfl
    · exact untouched
    · simp only [OfNat.ofNat_ne_zero, if_false]
      rw [Memory.write_outside _ (by rw [leBytes_length]; omega), untouched]

/-- A query that is not covered misses a byte of the size from a suitable memory and handle. -/
theorem not_delivered {query : InfoQuery} {skipped : ℕ} (width : skipped = 0 ∨ skipped = 8)
    (uncovered : ¬Covered query skipped) (recorded : Memory) :
    ∃ handle memory,
      ¬Delivered query skipped recorded (replayedMemory query skipped handle memory recorded) := by
  simp only [Covered, Classical.not_imp] at uncovered
  obtain ⟨value, ret, outside⟩ := uncovered
  obtain ⟨offset, inside, missed⟩ : ∃ offset < 8,
      query.param_value_size_ret.toNat + offset < query.param_value.toNat + skipped ∨
        query.param_value.toNat + query.param_value_size.toNat ≤
          query.param_value_size_ret.toNat + offset := by
    by_cases before : query.param_value_size_ret.toNat < query.param_value.toNat + skipped
    · exact ⟨0, by norm_num, .inl before⟩
    · exact ⟨7, by norm_num, .inr (by omega)⟩
  obtain ⟨byte, handle, filled, wrong⟩ : ∃ (byte : UInt8) (handle : UInt64),
      (∀ offset < 8, (leBytes 8 handle.toNat)[offset]? = some byte) ∧
        byte ≠ recorded (query.param_value_size_ret.toNat + offset) := by
    by_cases zero : recorded (query.param_value_size_ret.toNat + offset) = 0
    · exact ⟨0xff, 0xffffffffffffffff, by decide, by rw [zero]; decide⟩
    · exact ⟨0, 0, by decide, fun same => zero same.symm⟩
  refine ⟨handle, fun _ => byte, fun delivered => wrong ?_⟩
  rw [← delivered.2 ret offset inside]
  exact (replayedMemory_uniform width value filled recorded missed).symm

private theorem substituted_width (call : PiCall) : substituted call = 0 ∨ substituted call = 8 := by
  cases call with
  | piMemGetInfo _ query | piKernelGetInfo _ query =>
    rw [substituted]
    split <;> simp
  | _ => exact .inl rfl

private theorem replayable_info (host : ReplayHost) (handler : RecordHandler) (after : CallEnd)
    {call : PiCall} {query : InfoQuery} (isInfo : infoQuery call = some query) :
    Replayable host handler after call ↔ StoresOutputs call ∧ Answered query := by
  cases call with
  | piPlatformGetInfo | piDeviceGetInfo | piContextGetInfo | piKernelGetInfo
  | piKernelGetGroupInfo =>
    obtain rfl := Option.some.inj isInfo
    simp only [Replayable, StoresOutputs, true_and]
  | piQueueGetInfo | piMemGetInfo | piMemImageGetInfo | piProgramGetInfo =>
    simp only [Replayable, StoresOutputs, false_and]
  | _ => simp [infoQuery] at isInfo

private theorem expected_info (host : ReplayHost) {call : PiCall} {query : InfoQuery}
    (isInfo : infoQuery call = some query) : (piPluginInit host call).expected = call.api := by
  cases call with
  | piMemRetain => simp [infoQuery] at isInfo
  | _ => rfl

/-- An answered query that is not covered has a state from which replay misses an output. -/
theorem not_replayed_of_uncovered {host : ReplayHost} {handler : RecordHandler} {call : PiCall}
    {query : InfoQuery} {after : CallEnd} {outputs : Outputs} (isInfo : infoQuery call = some query)
    (stores : StoresOutputs call) (answered : Answered query)
    (uncovered : ¬Covered query (substituted call))
    (handled : handler.outputs call after = some outputs)
    (framable : Framable host.pb (outputs.record host.pi call after)) (records : List APICall) :
    ∃ s, ensureTraceOpened host s =
        { rest := written host.pb (outputs.record host.pi call after :: records) } ∧
      ¬∃ next, replay host call s = .ok (after.result, next) ∧
        Delivered query (substituted call) after.memory next.world.memory := by
  obtain ⟨handle, memory, misses⟩ := not_delivered (substituted_width call) uncovered after.memory
  obtain ⟨kernel, ran⟩ := entry_stored host isInfo stores answered handled
  let s : Replay :=
    { GTrace := some { rest := written host.pb (outputs.record host.pi call after :: records) }
      records := 0
      world := { sampleWorld with memory, GKernelProgramMap := fun _ => handle } }
  have synced : ensureTraceOpened host s =
      { rest := written host.pb (outputs.record host.pi call after :: records) } := rfl
  refine ⟨s, synced, ?_⟩
  rintro ⟨next, replayed, delivered⟩
  rw [replay_of_body framable synced (expected_info host isInfo) (ran _)] at replayed
  cases replayed
  exact misses delivered

/-- Replay of an info query on the record written for it, from every state of the plugin whose trace
stands at that record, leaves each output as the recorded call did exactly when the recorder stores
the outputs of this API, there is an output at all, and with both pointers the returned size lies
within the value. -/
theorem info_query_replayed_iff (host : ReplayHost) (handler : RecordHandler) (call : PiCall)
    (query : InfoQuery) (isInfo : infoQuery call = some query) (after : CallEnd)
    (record : APICall) (recorded : handler.handle host.pi call after = some record)
    (framable : Framable host.pb record) (records : List APICall) :
    (∀ s, ensureTraceOpened host s = { rest := written host.pb (record :: records) } →
      ∃ next, replay host call s = .ok (after.result, next) ∧
        Delivered query (substituted call) after.memory next.world.memory) ↔
    StoresOutputs call ∧ Answered query ∧ Covered query (substituted call) := by
  rw [RecordHandler.handle, Option.map_eq_some_iff] at recorded
  obtain ⟨outputs, handled, rfl⟩ := recorded
  constructor
  · intro always
    have answers (world : World) := always
      { GTrace := some { rest := written host.pb (outputs.record host.pi call after :: records) }
        records := 0
        world } rfl
    have replayable : Replayable host handler after call := by
      by_contra bad
      obtain ⟨next, answered, -⟩ := answers sampleWorld
      exact replay_of_not_replayable framable rfl handled bad _ answered
    obtain ⟨stores, answered⟩ := (replayable_info host handler after isInfo).mp replayable
    refine ⟨stores, answered, ?_⟩
    by_contra uncovered
    obtain ⟨s, synced, misses⟩ :=
      not_replayed_of_uncovered isInfo stores answered uncovered handled framable records
    exact misses (always s synced)
  · rintro ⟨stores, answered, covered⟩ s synced
    obtain ⟨kernel, ran⟩ := entry_stored host isInfo stores answered handled
    refine ⟨_, replay_of_body framable synced (expected_info host isInfo) (ran s.world), ?_⟩
    exact delivered_of_covered (substituted_width call) covered _ _ _

/-- A platform query for the value alone, and the name that it was given. -/
def vendorQuery : PiCall := .piPlatformGetInfo 0x3000 ⟨0x0902, 5, 0x4000, 0⟩

def vendorEnd : CallEnd :=
  { sampleEnd 0 with memory := Memory.write (fun _ => 0xff) 0x4000 (str "Intel") }

/-- The name is there again, in a memory that was all zero. -/
theorem info_query_replayed_iff_value :
    ∃ record, sampleHandler.handle tableOrder vendorQuery vendorEnd = some record ∧
      ∃ next, replay (sampleHost (written wire [record])) vendorQuery
          { GTrace := none, records := 0, world := sampleWorld } = .ok (0, next) ∧
        next.world.memory.read 0x4000 5 = str "Intel" := by
  obtain ⟨record, recorded, framable⟩ : ∃ record,
      sampleHandler.handle tableOrder vendorQuery vendorEnd = some record ∧
        Framable wire record := by
    refine ⟨_, rfl, ?_⟩
    unfold Framable
    decide
  obtain ⟨next, replayed, delivered⟩ := (info_query_replayed_iff (sampleHost (written wire [record]))
    sampleHandler vendorQuery ⟨0x0902, 5, 0x4000, 0⟩ rfl vendorEnd record recorded framable []).mpr
    ⟨trivial, .inl (by decide), fun _ ret => absurd rfl ret⟩
    { GTrace := none, records := 0, world := sampleWorld } rfl
  refine ⟨record, recorded, next, replayed, ?_⟩
  have bytes : ∀ offset < 5, next.world.memory (0x4000 + offset) = vendorEnd.memory (0x4000 + offset) :=
    fun offset inside => delivered.1 (by decide) offset (Nat.zero_le _) inside
  have same : next.world.memory.read 0x4000 5 = vendorEnd.memory.read 0x4000 5 :=
    List.map_congr_left fun offset inside => bytes offset (List.mem_range.mp inside)
  rw [same]
  decide

/-- A platform query for the value and its size, at different addresses: the size is left out. -/
theorem not_info_query_replayed :
    ¬∀ (host : ReplayHost) (handler : RecordHandler) (call : PiCall) (query : InfoQuery)
      (after : CallEnd) (record : APICall), infoQuery call = some query →
        handler.handle host.pi call after = some record → Framable host.pb record →
        ∀ (records : List APICall) (s : Replay),
          ensureTraceOpened host s = { rest := written host.pb (record :: records) } →
            ∃ next, replay host call s = .ok (after.result, next) ∧
              Delivered query (substituted call) after.memory next.world.memory := by
  intro always
  have uncovered : ¬Covered ⟨0x0902, 2, 0x4000, 0x5000⟩ 0 := fun covered =>
    absurd (covered (by decide) (by decide)).2 (by decide)
  obtain ⟨outputs, handled, framable⟩ : ∃ outputs,
      sampleHandler.outputs (.piPlatformGetInfo 0x3000 ⟨0x0902, 2, 0x4000, 0x5000⟩)
          (sampleEnd 0) = some outputs ∧
        Framable wire (outputs.record tableOrder
          (.piPlatformGetInfo 0x3000 ⟨0x0902, 2, 0x4000, 0x5000⟩) (sampleEnd 0)) := by
    refine ⟨_, rfl, ?_⟩
    unfold Framable
    decide
  have answered : Answered ⟨0x0902, 2, 0x4000, 0x5000⟩ := .inl (by decide)
  have isInfo : infoQuery (.piPlatformGetInfo 0x3000 ⟨0x0902, 2, 0x4000, 0x5000⟩) =
      some ⟨0x0902, 2, 0x4000, 0x5000⟩ := rfl
  have stores : StoresOutputs (.piPlatformGetInfo 0x3000 ⟨0x0902, 2, 0x4000, 0x5000⟩) := trivial
  obtain ⟨s, synced, misses⟩ :=
    not_replayed_of_uncovered isInfo stores answered uncovered handled
    (show Framable (sampleHost []).pb _ from framable) []
  refine misses (always (sampleHost []) sampleHandler _ _ (sampleEnd 0) _ rfl ?_ framable [] s synced)
  rw [RecordHandler.handle, handled]
  rfl

end DpcppTrace.Soundness
