import DpcppTrace.Foundation.Memory
import DpcppTrace.Model.Pi
import DpcppTrace.Model.TraceFile

/-! # The replay plugin

Every entry opens the thread's trace if necessary, reads the next record, checks that it is of the
expected API, does what the API calls for, and returns the recorded code. Handles are addresses of
fresh heap objects. What the entries leave undefined is a fault of the model: an absent output, a
write through a null pointer, an allocation the heap cannot serve, a `delete[]` of what is no live array
of characters.
-/

namespace DpcppTrace.Model

open Foundation

/-- `PI_KERNEL_INFO_PROGRAM`. -/
def PI_KERNEL_INFO_PROGRAM : UInt32 := 0x1194

def CL_MEM_CONTEXT : UInt32 := 0x1106

/-- What the plugin runs on: protobuf and the API numbers, the thread's trace file and the buffer
files, the address of each heap allocation, the largest array `new` can serve, and what the
uninitialised size of a record and of a buffer happen to hold. -/
structure ReplayHost where
  pb : Protobuf
  pi : PiDef
  traceFile : Option Bytes
  buffers : Bytes → Option Bytes
  heap : ℕ → UInt64
  heap_ne_zero : ∀ index, heap index ≠ 0
  largest : ℕ
  junk : ℕ → StackFrame
  objSizeJunk : ℕ

/-- The plugin's memory, the number of its allocations, the sizes of the live arrays of characters by
their addresses, and its two maps. -/
structure World where
  memory : Memory
  allocations : ℕ
  arrays : UInt64 → Option ℕ
  GKernelProgramMap : UInt64 → UInt64
  GMemContextMap : UInt64 → UInt64

inductive ReplayFault where
  | read (fault : ReadFault)
  | unexpected (funcId : UInt32) (expected : PiApiKind)
  | missingOutput
  | missingMemObj
  | nullWrite
  | badAlloc
  | invalidFree
deriving DecidableEq

/-- What an entry does between the check of the record and its return. -/
abbrev Effect := StateT World (Except ReplayFault)

namespace Effect

/-- Store bytes through a pointer. -/
def store (address : UInt64) (bytes : Bytes) : Effect Unit := fun world =>
  if address = 0 ∧ bytes ≠ [] then .error .nullWrite
  else .ok ((), { world with memory := world.memory.write address.toNat bytes })

/-- Store a pointer-sized value through a pointer. -/
def storePointer (address value : UInt64) : Effect Unit := store address (leBytes 8 value.toNat)

def fault (fault : ReplayFault) : Effect Unit := fun _ => .error fault

/-- `new int{1}`. -/
def newInt (host : ReplayHost) : Effect UInt64 := fun world =>
  let address := host.heap world.allocations
  .ok (address,
    { world with
      memory := world.memory.write address.toNat (leBytes 4 1)
      allocations := world.allocations + 1 })

/-- `new char[size]`. -/
def newChars (host : ReplayHost) (size : ℕ) : Effect UInt64 := fun world =>
  if host.largest < size then .error .badAlloc
  else
    let address := host.heap world.allocations
    .ok (address,
      { world with
        allocations := world.allocations + 1
        arrays := Function.update world.arrays address (some size) })

/-- `delete[]` of an array of characters; there is nothing to delete at the null pointer. -/
def deleteChars (address : UInt64) : Effect Unit := fun world =>
  if address = 0 then .ok ((), world)
  else
    match world.arrays address with
    | some _ => .ok ((), { world with arrays := Function.update world.arrays address none })
    | none => .error .invalidFree

/-- `record.small_outputs(0)`. -/
def smallOutput (record : APICall) : Effect Bytes := fun world =>
  match record.small_outputs.head? with
  | some output => .ok (output, world)
  | none => .error .missingOutput

/-- The first four bytes of `record.small_outputs(0)`. -/
def smallOutputWord (record : APICall) : Effect Bytes := do
  let output ← smallOutput record
  if output.length < 4 then fault .missingOutput
  pure (output.take 4)

/-- The stream on the file of `record.mem_obj_outputs(0)`. -/
def openBuffer (host : ReplayHost) (record : APICall) : Effect IStream := fun world =>
  match record.mem_obj_outputs.head? with
  | some name => .ok (.opened (host.buffers name), world)
  | none => .error .missingMemObj

/-- The size at the front of a buffer file, and the stream behind it. -/
def readObjSize (host : ReplayHost) (memIS : IStream) : ℕ × IStream :=
  let (sizeBytes, memIS) := memIS.read 8
  (ofLe (IStream.overlay (leBytes 8 host.objSizeJunk) sizeBytes), memIS)

/-- `*pointer = new int{1}`; the new handle. -/
def storeHandle (host : ReplayHost) (pointer : UInt64) : Effect UInt64 := do
  let handle ← newInt host
  storePointer pointer handle
  pure handle

/-- Fill `count` elements of an array with new handles. -/
def storeHandles (host : ReplayHost) (array : UInt64) : ℕ → Effect Unit
  | 0 => pure ()
  | count + 1 => do
    storeHandles host array count
    let handle ← newInt host
    fun world =>
      .ok ((), { world with
        memory := world.memory.write (array.toNat + 8 * count) (leBytes 8 handle.toNat) })

end Effect

open Effect

/-- `replayGetInfo`. -/
def replayGetInfo (record : APICall) (query : InfoQuery) : Effect Unit := do
  let ptr := if query.param_value ≠ 0 then query.param_value else query.param_value_size_ret
  let output ← smallOutput record
  store ptr output

/-- The common body of `piPlatformsGet` and `piDevicesGet`. -/
def replayCount (host : ReplayHost) (record : APICall) (numEntries : UInt32)
    (array count : UInt64) : Effect Unit := do
  if count ≠ 0 then
    let word ← smallOutputWord record
    store count word
  if numEntries > 0 ∧ array ≠ 0 then storeHandles host array numEntries.toNat

def replaySelectBinary (record : APICall) (selected_binary_ind : UInt64) : Effect Unit := do
  let word ← smallOutputWord record
  store selected_binary_ind word

/-- The body of the entries that only store a new handle. -/
def replayCreate (host : ReplayHost) (pointer : UInt64) : Effect Unit := do
  let _ ← storeHandle host pointer

def replayMemBufferCreate (host : ReplayHost) (context ret_mem : UInt64) : Effect Unit := do
  let mem ← storeHandle host ret_mem
  modify fun world =>
    { world with GMemContextMap := Function.update world.GMemContextMap mem context }

def replayMemGetInfo (record : APICall) (mem : UInt64) (query : InfoQuery) : Effect Unit := do
  replayGetInfo record query
  if query.param_name = CL_MEM_CONTEXT then
    let world ← get
    storePointer query.param_value (world.GMemContextMap mem)

def replayKernelCreate (host : ReplayHost) (program ret_kernel : UInt64) : Effect Unit := do
  let kernel ← storeHandle host ret_kernel
  modify fun world =>
    { world with GKernelProgramMap := Function.update world.GKernelProgramMap kernel program }

def replayKernelGetInfo (record : APICall) (kernel : UInt64) (query : InfoQuery) : Effect Unit := do
  replayGetInfo record query
  if query.param_name = PI_KERNEL_INFO_PROGRAM ∧ query.param_value ≠ 0 then
    let world ← get
    storePointer query.param_value (world.GKernelProgramMap kernel)

def replayMemUnmap (host : ReplayHost) (mapped_ptr event : UInt64) : Effect Unit := do
  replayCreate host event
  deleteChars mapped_ptr

def replayMemBufferMap (host : ReplayHost) (record : APICall) (event ret_map : UInt64) :
    Effect Unit := do
  let memIS ← openBuffer host record
  let (objSize, memIS) := readObjSize host memIS
  let memory ← newChars host objSize
  store memory (memIS.read objSize).1
  storePointer ret_map memory
  replayCreate host event

def replayMemBufferRead (host : ReplayHost) (record : APICall) (size ptr event : UInt64) :
    Effect Unit := do
  let memIS ← openBuffer host record
  let (_, memIS) := readObjSize host memIS
  store ptr (memIS.read size.toNat).1
  replayCreate host event

def replayUSMEnqueueMemcpy (host : ReplayHost) (record : APICall) (size dst_ptr event : UInt64) :
    Effect Unit := do
  if record.mem_obj_outputs.length > 0 then
    let memIS ← openBuffer host record
    let (_, memIS) := readObjSize host memIS
    store dst_ptr (memIS.read size.toNat).1
  replayCreate host event

/-- The body of the two USM allocations. -/
def replayUSMAlloc (host : ReplayHost) (result_ptr size : UInt64) : Effect Unit := do
  let memory ← newChars host size.toNat
  storePointer result_ptr memory

/-- An entry of the table: the API it demands of the record, and its body. -/
structure ReplayEntry where
  expected : PiApiKind
  body : APICall → Effect Unit

/-- The entry that only checks the record. -/
def ReplayEntry.plain (expected : PiApiKind) : ReplayEntry := ⟨expected, fun _ => pure ()⟩

/-- The table `piPluginInit` fills, each entry on its arguments. -/
def piPluginInit (host : ReplayHost) : PiCall → ReplayEntry
  | .piPlatformsGet numEntries platforms numPlatforms =>
    ⟨.piPlatformsGet, fun record => replayCount host record numEntries platforms numPlatforms⟩
  | .piPlatformGetInfo _ query =>
    ⟨.piPlatformGetInfo, fun record => replayGetInfo record query⟩
  | .piDevicesGet _ _ numEntries devs numDevices =>
    ⟨.piDevicesGet, fun record => replayCount host record numEntries devs numDevices⟩
  | .piDeviceGetInfo _ query => ⟨.piDeviceGetInfo, fun record => replayGetInfo record query⟩
  | .piDeviceRetain _ => .plain .piDeviceRetain
  | .piDeviceRelease _ => .plain .piDeviceRelease
  | .piextDeviceSelectBinary _ _ _ selected_binary_ind =>
    ⟨.piextDeviceSelectBinary, fun record => replaySelectBinary record selected_binary_ind⟩
  | .piContextCreate _ _ _ _ _ ret_context =>
    ⟨.piContextCreate, fun _ => replayCreate host ret_context⟩
  | .piContextGetInfo _ query => ⟨.piContextGetInfo, fun record => replayGetInfo record query⟩
  | .piContextRelease _ => .plain .piContextRelease
  | .piContextRetain _ => .plain .piContextRetain
  | .piQueueCreate _ _ _ queue => ⟨.piQueueCreate, fun _ => replayCreate host queue⟩
  | .piQueueGetInfo _ query => ⟨.piQueueGetInfo, fun record => replayGetInfo record query⟩
  | .piQueueRetain _ => .plain .piQueueRetain
  | .piQueueRelease _ => .plain .piQueueRelease
  | .piQueueFinish _ => .plain .piQueueFinish
  | .piMemBufferCreate context _ _ _ ret_mem _ =>
    ⟨.piMemBufferCreate, fun _ => replayMemBufferCreate host context ret_mem⟩
  | .piMemRelease _ => .plain .piMemRelease
  | .piMemGetInfo mem query => ⟨.piMemGetInfo, fun record => replayMemGetInfo record mem query⟩
  | .piMemImageGetInfo _ query => ⟨.piMemImageGetInfo, fun record => replayGetInfo record query⟩
  | .piMemRetain _ => .plain .piMemImageGetInfo
  | .piProgramBuild .. => .plain .piProgramBuild
  | .piProgramCreateWithBinary _ _ _ _ _ _ _ _ ret_program =>
    ⟨.piProgramCreateWithBinary, fun _ => replayCreate host ret_program⟩
  | .piProgramCreate _ _ _ ret_program =>
    ⟨.piProgramCreate, fun _ => replayCreate host ret_program⟩
  | .piProgramRelease _ => .plain .piProgramRelease
  | .piProgramRetain _ => .plain .piProgramRetain
  | .piProgramCompile .. => .plain .piProgramCompile
  | .piProgramLink .. => .plain .piProgramLink
  | .piProgramGetInfo _ query => ⟨.piProgramGetInfo, fun record => replayGetInfo record query⟩
  | .piextProgramSetSpecializationConstant .. => .plain .piextProgramSetSpecializationConstant
  | .piKernelCreate program _ ret_kernel =>
    ⟨.piKernelCreate, fun _ => replayKernelCreate host program ret_kernel⟩
  | .piKernelSetExecInfo .. => .plain .piKernelSetExecInfo
  | .piKernelGetInfo kernel query =>
    ⟨.piKernelGetInfo, fun record => replayKernelGetInfo record kernel query⟩
  | .piKernelGetGroupInfo _ _ query =>
    ⟨.piKernelGetGroupInfo, fun record => replayGetInfo record query⟩
  | .piextKernelSetArgMemObj .. => .plain .piextKernelSetArgMemObj
  | .piextKernelSetArgPointer .. => .plain .piextKernelSetArgPointer
  | .piKernelSetArg .. => .plain .piKernelSetArg
  | .piKernelRelease _ => .plain .piKernelRelease
  | .piKernelRetain _ => .plain .piKernelRetain
  | .piEnqueueKernelLaunch _ _ _ _ _ _ _ _ event =>
    ⟨.piEnqueueKernelLaunch, fun _ => replayCreate host event⟩
  | .piEnqueueMemBufferMap _ _ _ _ _ _ _ _ event ret_map =>
    ⟨.piEnqueueMemBufferMap, fun record => replayMemBufferMap host record event ret_map⟩
  | .piEnqueueMemBufferRead _ _ _ _ size ptr _ _ event =>
    ⟨.piEnqueueMemBufferRead, fun record => replayMemBufferRead host record size ptr event⟩
  | .piEnqueueMemUnmap _ _ mapped_ptr _ _ event =>
    ⟨.piEnqueueMemUnmap, fun _ => replayMemUnmap host mapped_ptr event⟩
  | .piEnqueueEventsWait _ _ _ event => ⟨.piEnqueueEventsWait, fun _ => replayCreate host event⟩
  | .piEnqueueEventsWaitWithBarrier _ _ _ event =>
    ⟨.piEnqueueEventsWaitWithBarrier, fun _ => replayCreate host event⟩
  | .piEventsWait .. => .plain .piEventsWait
  | .piEventRelease _ => .plain .piEventRelease
  | .piextUSMEnqueueMemcpy _ _ dst_ptr _ size _ _ event =>
    ⟨.piextUSMEnqueueMemcpy, fun record => replayUSMEnqueueMemcpy host record size dst_ptr event⟩
  | .piextUSMEnqueueMemset _ _ _ _ _ _ event =>
    ⟨.piextUSMEnqueueMemset, fun _ => replayCreate host event⟩
  | .piextUSMDeviceAlloc result_ptr _ _ _ size _ =>
    ⟨.piextUSMDeviceAlloc, fun _ => replayUSMAlloc host result_ptr size⟩
  | .piextUSMHostAlloc result_ptr _ _ size _ =>
    ⟨.piextUSMHostAlloc, fun _ => replayUSMAlloc host result_ptr size⟩
  | .piextUSMFree _ ptr => ⟨.piextUSMFree, fun _ => deleteChars ptr⟩

/-- `piTearDown`: success, without a look at the trace. -/
def piTearDown : Int32 := 0

/-- The thread's trace stream, the number of records read from it, and the rest of the state. -/
structure Replay where
  GTrace : Option IStream
  records : ℕ
  world : World

/-- `ensureTraceOpened`: the stream the next record is read from. -/
def ensureTraceOpened (host : ReplayHost) (s : Replay) : IStream :=
  match s.GTrace with
  | some trace => trace
  | none => .opened host.traceFile

/-- A call of the replay plugin: the returned code and the next state. -/
def replay (host : ReplayHost) (call : PiCall) (s : Replay) :
    Except ReplayFault (Int32 × Replay) :=
  let entry := piPluginInit host call
  match getNextRecord host.pb (host.junk s.records) (ensureTraceOpened host s) with
  | .error fault => .error (.read fault)
  | .ok (record, trace) =>
    if record.function_id ≠ host.pi.number entry.expected then
      .error (.unexpected record.function_id entry.expected)
    else
      match entry.body record s.world with
      | .error fault => .error fault
      | .ok (_, world) =>
        .ok (record.return_value.toInt32, { GTrace := some trace, records := s.records + 1, world })

end DpcppTrace.Model
