import DpcppTrace.Foundation.Dictionary
import DpcppTrace.Foundation.Memory
import DpcppTrace.Model.Pi

/-! # What the recorder writes for a call

`RecordHandler` installs `basicHandler` for every API and then replaces the handlers of the calls
whose outputs it stores. The outputs are read from memory after the plugin has returned, and for
buffers after the call's event has completed. A handler that would follow a null pointer ends the
traced program, so such a call has no record.
-/

namespace DpcppTrace.Model

open Foundation

/-- What the subscriber sees when a call has returned: the event id and times, the plugin's result,
the memory then and after the call's event completed, and the plugin's answer to
`PI_MEM_ALLOC_TYPE` for the destination of a copy. -/
structure CallEnd where
  eventId : UInt64
  timeBegin : UInt64
  timeEnd : UInt64
  result : Int32
  memory : Memory
  awaited : Memory
  allocType : UInt32

/-- What a handler adds to the record, and the file it writes under `buffers`. -/
structure Outputs where
  small_outputs : List Bytes := []
  mem_obj_outputs : List Bytes := []
  buffer : Option (Bytes × Bytes) := none

/-- The recorder of one thread: the thread's name, and the constructor's last argument, which
`tpCallback` sets unless the user asked to skip memory objects. -/
structure RecordHandler where
  threadName : Bytes
  mSkipMemObjects : Bool

def PI_MEM_TYPE_UNKNOWN : UInt32 := 0x4196

def PI_MEM_TYPE_HOST : UInt32 := 0x4197

/-- The name of the file for the memory of an event. -/
def memFile (handler : RecordHandler) (eventId : UInt64) : Bytes :=
  handler.threadName ++ str "_" ++ decimal eventId.toNat ++ str ".mem"

/-- The common part of `handlePlatformsGet` and `handleDevicesGet`. -/
def handleCount (count : UInt64) (after : CallEnd) : Outputs :=
  { small_outputs := if count ≠ 0 then [after.memory.read count.toNat 4] else [] }

/-- `handleGetInfo`, and `handleKernelGetGroupInfo`, which does the same. -/
def handleGetInfo (query : InfoQuery) (after : CallEnd) : Outputs :=
  { small_outputs :=
      (if query.param_value ≠ 0 then
        [after.memory.read query.param_value.toNat query.param_value_size.toNat] else []) ++
      (if query.param_value_size_ret ≠ 0 then
        [after.memory.read query.param_value_size_ret.toNat 8] else []) }

/-- `handleSelectBinary` on the only thread, apart from the dump of the images. -/
def handleSelectBinary (selectedBinary : UInt64) (after : CallEnd) : Option Outputs :=
  if selectedBinary = 0 then none
  else some { small_outputs := [after.memory.read selectedBinary.toNat 8] }

/-- The part of the buffer handlers that stores `size` bytes at `address` in a file. -/
def saveBuffer (handler : RecordHandler) (size : UInt64) (address : ℕ) (after : CallEnd) :
    Option Outputs :=
  let filename := memFile handler after.eventId
  if address = 0 ∧ size ≠ 0 then none
  else
    some
      { mem_obj_outputs := [filename]
        buffer := some (filename, leBytes 8 size.toNat ++ after.awaited.read address size.toNat) }

def handleEnqueueMemBufferMap (handler : RecordHandler) (size ret_map : UInt64) (after : CallEnd) :
    Option Outputs :=
  if handler.mSkipMemObjects then
    if ret_map = 0 then none
    else saveBuffer handler size (ofLe (after.awaited.read ret_map.toNat 8)) after
  else some {}

def handleEnqueueMemBufferRead (handler : RecordHandler) (size ptr : UInt64) (after : CallEnd) :
    Option Outputs :=
  if handler.mSkipMemObjects then saveBuffer handler size ptr.toNat after else some {}

def handleUSMEnqueueMemcpy (handler : RecordHandler) (size dst_ptr : UInt64) (after : CallEnd) :
    Option Outputs :=
  let shouldSaveMem :=
    (after.allocType = PI_MEM_TYPE_UNKNOWN ∨ after.allocType = PI_MEM_TYPE_HOST) ∧
      handler.mSkipMemObjects = true
  if shouldSaveMem then saveBuffer handler size dst_ptr.toNat after else some {}

/-- The handler the constructor installs for the API of a call. -/
def RecordHandler.outputs (handler : RecordHandler) (call : PiCall) (after : CallEnd) :
    Option Outputs :=
  match call with
  | .piextDeviceSelectBinary _ _ _ selectedBinary => handleSelectBinary selectedBinary after
  | .piPlatformsGet _ _ numPlatforms => some (handleCount numPlatforms after)
  | .piDevicesGet _ _ _ _ numDevices => some (handleCount numDevices after)
  | .piEnqueueMemBufferMap _ _ _ _ _ size _ _ _ ret_map =>
    handleEnqueueMemBufferMap handler size ret_map after
  | .piEnqueueMemBufferRead _ _ _ _ size ptr _ _ _ =>
    handleEnqueueMemBufferRead handler size ptr after
  | .piextUSMEnqueueMemcpy _ _ dst_ptr _ size _ _ _ =>
    handleUSMEnqueueMemcpy handler size dst_ptr after
  | .piPlatformGetInfo _ query => some (handleGetInfo query after)
  | .piDeviceGetInfo _ query => some (handleGetInfo query after)
  | .piContextGetInfo _ query => some (handleGetInfo query after)
  | .piKernelGetInfo _ query => some (handleGetInfo query after)
  | .piKernelGetGroupInfo _ _ query => some (handleGetInfo query after)
  -- `basicHandler` stores no outputs.
  | _ => some {}

/-- The record a handler serialises for a call. -/
def Outputs.record (outputs : Outputs) (pi : PiDef) (call : PiCall) (after : CallEnd) : APICall :=
  { callRecord (pi.number call.api) after.timeBegin after.timeEnd after.result call.args with
    small_outputs := outputs.small_outputs
    mem_obj_outputs := outputs.mem_obj_outputs }

/-- `RecordHandler::handle`. -/
def RecordHandler.handle (handler : RecordHandler) (pi : PiDef) (call : PiCall) (after : CallEnd) :
    Option APICall :=
  (handler.outputs call after).map fun outputs => outputs.record pi call after

/-- The records of the calls of one thread; `none` when a call ends the program instead. -/
def recordCalls (handler : RecordHandler) (pi : PiDef) :
    List (PiCall × CallEnd) → Option (List APICall)
  | [] => some []
  | (call, after) :: rest => do
    let record ← handler.handle pi call after
    let records ← recordCalls handler pi rest
    pure (record :: records)

/-- A call of some thread. -/
structure ThreadCall where
  threadName : Bytes
  call : PiCall
  after : CallEnd

/-- The file that the call's handler writes under `buffers`. -/
def ThreadCall.buffer (made : ThreadCall) (mSkipMemObjects : Bool) : Option (Bytes × Bytes) :=
  (RecordHandler.outputs ⟨made.threadName, mSkipMemObjects⟩ made.call made.after).bind (·.buffer)

/-- The files under `buffers` when the handlers of all threads have run, in this order. -/
def bufferFiles (mSkipMemObjects : Bool) (before : Bytes → Option Bytes) (calls : List ThreadCall) :
    Bytes → Option Bytes :=
  writeAll before (calls.filterMap (·.buffer mSkipMemObjects))

end DpcppTrace.Model
