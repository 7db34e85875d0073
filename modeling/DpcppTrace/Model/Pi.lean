import DpcppTrace.Model.CollectArgs

/-! # The PI entries of the replay table

`piPluginInit` installs one entry for each of these APIs. The numbers of `PiApiKind` come from
`pi.def`, outside the repository; what the code relies on is that they differ. A call carries the
arguments of its entry under their source names. Pointers and handles are addresses, a C string is
its address with the characters there, and enumerations have their underlying type.
-/

namespace DpcppTrace.Model

open Foundation

/-- The members of `PiApiKind` that `piPluginInit` installs. -/
inductive PiApiKind where
  | piPlatformsGet | piPlatformGetInfo | piDevicesGet | piDeviceGetInfo | piDeviceRetain
  | piDeviceRelease | piextDeviceSelectBinary | piContextCreate | piContextGetInfo
  | piContextRelease | piContextRetain | piQueueCreate | piQueueGetInfo | piQueueRetain
  | piQueueRelease | piQueueFinish | piMemBufferCreate | piMemRelease | piMemGetInfo
  | piMemImageGetInfo | piMemRetain | piProgramBuild | piProgramCreateWithBinary | piProgramCreate
  | piProgramRelease | piProgramRetain | piProgramCompile | piProgramLink | piProgramGetInfo
  | piextProgramSetSpecializationConstant | piKernelCreate | piKernelSetExecInfo | piKernelGetInfo
  | piKernelGetGroupInfo | piextKernelSetArgMemObj | piextKernelSetArgPointer | piKernelSetArg
  | piKernelRelease | piKernelRetain | piEnqueueKernelLaunch | piEnqueueMemBufferMap
  | piEnqueueMemBufferRead | piEnqueueMemUnmap | piEnqueueEventsWait
  | piEnqueueEventsWaitWithBarrier | piEventsWait | piEventRelease | piextUSMEnqueueMemcpy
  | piextUSMEnqueueMemset | piextUSMDeviceAlloc | piextUSMHostAlloc | piextUSMFree | piTearDown
deriving DecidableEq, Repr

/-- The numbering of `pi.def`. -/
structure PiDef where
  number : PiApiKind → UInt32
  injective : Function.Injective number

/-- A `const char *` argument: where it points and the characters there. -/
structure CString where
  address : UInt64
  text : Bytes
deriving DecidableEq

/-- The last four arguments of every info query. -/
structure InfoQuery where
  param_name : UInt32
  param_value_size : UInt64
  param_value : UInt64
  param_value_size_ret : UInt64
deriving DecidableEq

/-- A call through the table; `piTearDown` is not among them because replay answers it without
the trace. -/
inductive PiCall where
  | piPlatformsGet (numEntries : UInt32) (platforms numPlatforms : UInt64)
  | piPlatformGetInfo (platform : UInt64) (query : InfoQuery)
  | piDevicesGet (platform type : UInt64) (numEntries : UInt32) (devs numDevices : UInt64)
  | piDeviceGetInfo (device : UInt64) (query : InfoQuery)
  | piDeviceRetain (device : UInt64)
  | piDeviceRelease (device : UInt64)
  | piextDeviceSelectBinary (device binaries : UInt64) (num_binaries : UInt32)
    (selected_binary_ind : UInt64)
  | piContextCreate (properties : UInt64) (num_devices : UInt32)
    (devices pfn_notify user_data ret_context : UInt64)
  | piContextGetInfo (context : UInt64) (query : InfoQuery)
  | piContextRelease (context : UInt64)
  | piContextRetain (context : UInt64)
  | piQueueCreate (context device properties queue : UInt64)
  | piQueueGetInfo (command_queue : UInt64) (query : InfoQuery)
  | piQueueRetain (queue : UInt64)
  | piQueueRelease (command_queue : UInt64)
  | piQueueFinish (command_queue : UInt64)
  | piMemBufferCreate (context flags size host_ptr ret_mem properties : UInt64)
  | piMemRelease (mem : UInt64)
  | piMemGetInfo (mem : UInt64) (query : InfoQuery)
  | piMemImageGetInfo (image : UInt64) (query : InfoQuery)
  | piMemRetain (mem : UInt64)
  | piProgramBuild (program : UInt64) (num_devices : UInt32) (device_list : UInt64)
    (options : CString) (pfn_notify user_data : UInt64)
  | piProgramCreateWithBinary (context : UInt64) (num_devices : UInt32) (device_list lengths
    binaries num_metadata_entries metadata binary_status ret_program : UInt64)
  | piProgramCreate (context il length ret_program : UInt64)
  | piProgramRelease (program : UInt64)
  | piProgramRetain (program : UInt64)
  | piProgramCompile (program : UInt64) (num_devices : UInt32) (device_list : UInt64)
    (options : CString) (num_input_headers : UInt32)
    (input_headers header_include_names pfn_notify user_data : UInt64)
  | piProgramLink (context : UInt64) (num_devices : UInt32) (device_list : UInt64)
    (options : CString) (num_input_programs : UInt32)
    (input_programs pfn_notify user_data ret_program : UInt64)
  | piProgramGetInfo (program : UInt64) (query : InfoQuery)
  | piextProgramSetSpecializationConstant (prog : UInt64) (spec_id : UInt32)
    (spec_size spec_value : UInt64)
  | piKernelCreate (program : UInt64) (kernel_name : CString) (ret_kernel : UInt64)
  | piKernelSetExecInfo (kernel : UInt64) (value_name : UInt32)
    (param_value_size param_value : UInt64)
  | piKernelGetInfo (kernel : UInt64) (query : InfoQuery)
  | piKernelGetGroupInfo (kernel device : UInt64) (query : InfoQuery)
  | piextKernelSetArgMemObj (kernel : UInt64) (arg_index : UInt32) (arg_value : UInt64)
  | piextKernelSetArgPointer (kernel : UInt64) (arg_index : UInt32) (arg_size arg_value : UInt64)
  | piKernelSetArg (kernel : UInt64) (arg_index : UInt32) (arg_size arg_value : UInt64)
  | piKernelRelease (kernel : UInt64)
  | piKernelRetain (kernel : UInt64)
  | piEnqueueKernelLaunch (queue kernel : UInt64) (work_dim : UInt32)
    (global_work_offset global_work_size local_work_size : UInt64)
    (num_events_in_wait_list : UInt32) (event_wait_list event : UInt64)
  | piEnqueueMemBufferMap (command_queue buffer : UInt64) (blocking_map : UInt32)
    (map_flags offset size : UInt64) (num_events_in_wait_list : UInt32)
    (event_wait_list event ret_map : UInt64)
  | piEnqueueMemBufferRead (queue buffer : UInt64) (blocking_read : UInt32)
    (offset size ptr : UInt64) (num_events_in_wait_list : UInt32) (event_wait_list event : UInt64)
  | piEnqueueMemUnmap (command_queue memobj mapped_ptr : UInt64) (num_events_in_wait_list : UInt32)
    (event_wait_list event : UInt64)
  | piEnqueueEventsWait (command_queue : UInt64) (num_events_in_wait_list : UInt32)
    (event_wait_list event : UInt64)
  | piEnqueueEventsWaitWithBarrier (command_queue : UInt64) (num_events_in_wait_list : UInt32)
    (event_wait_list event : UInt64)
  | piEventsWait (num_events : UInt32) (event_list : UInt64)
  | piEventRelease (event : UInt64)
  | piextUSMEnqueueMemcpy (queue : UInt64) (blocking : UInt32) (dst_ptr src_ptr size : UInt64)
    (num_events_in_waitlist : UInt32) (events_waitlist event : UInt64)
  | piextUSMEnqueueMemset (queue ptr : UInt64) (value : Int32) (count : UInt64)
    (num_events_in_waitlist : UInt32) (events_waitlist event : UInt64)
  | piextUSMDeviceAlloc (result_ptr context device properties size : UInt64) (alignment : UInt32)
  | piextUSMHostAlloc (result_ptr context properties size : UInt64) (alignment : UInt32)
  | piextUSMFree (context ptr : UInt64)

/-- The arguments of an info query behind its handles. -/
def InfoQuery.args (query : InfoQuery) : List Argument :=
  [.uint32 query.param_name, .uint64 query.param_value_size, .pointer query.param_value,
    .pointer query.param_value_size_ret]

namespace PiCall

/-- The entry a call goes through. -/
def api : PiCall → PiApiKind
  | piPlatformsGet .. => .piPlatformsGet
  | piPlatformGetInfo .. => .piPlatformGetInfo
  | piDevicesGet .. => .piDevicesGet
  | piDeviceGetInfo .. => .piDeviceGetInfo
  | piDeviceRetain .. => .piDeviceRetain
  | piDeviceRelease .. => .piDeviceRelease
  | piextDeviceSelectBinary .. => .piextDeviceSelectBinary
  | piContextCreate .. => .piContextCreate
  | piContextGetInfo .. => .piContextGetInfo
  | piContextRelease .. => .piContextRelease
  | piContextRetain .. => .piContextRetain
  | piQueueCreate .. => .piQueueCreate
  | piQueueGetInfo .. => .piQueueGetInfo
  | piQueueRetain .. => .piQueueRetain
  | piQueueRelease .. => .piQueueRelease
  | piQueueFinish .. => .piQueueFinish
  | piMemBufferCreate .. => .piMemBufferCreate
  | piMemRelease .. => .piMemRelease
  | piMemGetInfo .. => .piMemGetInfo
  | piMemImageGetInfo .. => .piMemImageGetInfo
  | piMemRetain .. => .piMemRetain
  | piProgramBuild .. => .piProgramBuild
  | piProgramCreateWithBinary .. => .piProgramCreateWithBinary
  | piProgramCreate .. => .piProgramCreate
  | piProgramRelease .. => .piProgramRelease
  | piProgramRetain .. => .piProgramRetain
  | piProgramCompile .. => .piProgramCompile
  | piProgramLink .. => .piProgramLink
  | piProgramGetInfo .. => .piProgramGetInfo
  | piextProgramSetSpecializationConstant .. => .piextProgramSetSpecializationConstant
  | piKernelCreate .. => .piKernelCreate
  | piKernelSetExecInfo .. => .piKernelSetExecInfo
  | piKernelGetInfo .. => .piKernelGetInfo
  | piKernelGetGroupInfo .. => .piKernelGetGroupInfo
  | piextKernelSetArgMemObj .. => .piextKernelSetArgMemObj
  | piextKernelSetArgPointer .. => .piextKernelSetArgPointer
  | piKernelSetArg .. => .piKernelSetArg
  | piKernelRelease .. => .piKernelRelease
  | piKernelRetain .. => .piKernelRetain
  | piEnqueueKernelLaunch .. => .piEnqueueKernelLaunch
  | piEnqueueMemBufferMap .. => .piEnqueueMemBufferMap
  | piEnqueueMemBufferRead .. => .piEnqueueMemBufferRead
  | piEnqueueMemUnmap .. => .piEnqueueMemUnmap
  | piEnqueueEventsWait .. => .piEnqueueEventsWait
  | piEnqueueEventsWaitWithBarrier .. => .piEnqueueEventsWaitWithBarrier
  | piEventsWait .. => .piEventsWait
  | piEventRelease .. => .piEventRelease
  | piextUSMEnqueueMemcpy .. => .piextUSMEnqueueMemcpy
  | piextUSMEnqueueMemset .. => .piextUSMEnqueueMemset
  | piextUSMDeviceAlloc .. => .piextUSMDeviceAlloc
  | piextUSMHostAlloc .. => .piextUSMHostAlloc
  | piextUSMFree .. => .piextUSMFree

/-- The arguments in the order of the entry's parameters. -/
def args : PiCall → List Argument
  | piPlatformsGet numEntries platforms numPlatforms =>
    [.uint32 numEntries, .pointer platforms, .pointer numPlatforms]
  | piPlatformGetInfo platform query => [.pointer platform] ++ query.args
  | piDevicesGet platform type numEntries devs numDevices =>
    [.pointer platform, .uint64 type, .uint32 numEntries, .pointer devs, .pointer numDevices]
  | piDeviceGetInfo device query => [.pointer device] ++ query.args
  | piDeviceRetain device => [.pointer device]
  | piDeviceRelease device => [.pointer device]
  | piextDeviceSelectBinary device binaries num_binaries selected_binary_ind =>
    [.pointer device, .pointer binaries, .uint32 num_binaries, .pointer selected_binary_ind]
  | piContextCreate properties num_devices devices pfn_notify user_data ret_context =>
    [.pointer properties, .uint32 num_devices, .pointer devices, .pointer pfn_notify,
      .pointer user_data, .pointer ret_context]
  | piContextGetInfo context query => [.pointer context] ++ query.args
  | piContextRelease context => [.pointer context]
  | piContextRetain context => [.pointer context]
  | piQueueCreate context device properties queue =>
    [.pointer context, .pointer device, .uint64 properties, .pointer queue]
  | piQueueGetInfo command_queue query => [.pointer command_queue] ++ query.args
  | piQueueRetain queue => [.pointer queue]
  | piQueueRelease command_queue => [.pointer command_queue]
  | piQueueFinish command_queue => [.pointer command_queue]
  | piMemBufferCreate context flags size host_ptr ret_mem properties =>
    [.pointer context, .uint64 flags, .uint64 size, .pointer host_ptr, .pointer ret_mem,
      .pointer properties]
  | piMemRelease mem => [.pointer mem]
  | piMemGetInfo mem query => [.pointer mem] ++ query.args
  | piMemImageGetInfo image query => [.pointer image] ++ query.args
  | piMemRetain mem => [.pointer mem]
  | piProgramBuild program num_devices device_list options pfn_notify user_data =>
    [.pointer program, .uint32 num_devices, .pointer device_list,
      .string options.address options.text, .pointer pfn_notify, .pointer user_data]
  | piProgramCreateWithBinary context num_devices device_list lengths binaries num_metadata_entries
      metadata binary_status ret_program =>
    [.pointer context, .uint32 num_devices, .pointer device_list, .pointer lengths,
      .pointer binaries, .uint64 num_metadata_entries, .pointer metadata, .pointer binary_status,
      .pointer ret_program]
  | piProgramCreate context il length ret_program =>
    [.pointer context, .pointer il, .uint64 length, .pointer ret_program]
  | piProgramRelease program => [.pointer program]
  | piProgramRetain program => [.pointer program]
  | piProgramCompile program num_devices device_list options num_input_headers input_headers
      header_include_names pfn_notify user_data =>
    [.pointer program, .uint32 num_devices, .pointer device_list,
      .string options.address options.text, .uint32 num_input_headers, .pointer input_headers,
      .pointer header_include_names, .pointer pfn_notify, .pointer user_data]
  | piProgramLink context num_devices device_list options num_input_programs input_programs
      pfn_notify user_data ret_program =>
    [.pointer context, .uint32 num_devices, .pointer device_list,
      .string options.address options.text, .uint32 num_input_programs, .pointer input_programs,
      .pointer pfn_notify, .pointer user_data, .pointer ret_program]
  | piProgramGetInfo program query => [.pointer program] ++ query.args
  | piextProgramSetSpecializationConstant prog spec_id spec_size spec_value =>
    [.pointer prog, .uint32 spec_id, .uint64 spec_size, .pointer spec_value]
  | piKernelCreate program kernel_name ret_kernel =>
    [.pointer program, .string kernel_name.address kernel_name.text, .pointer ret_kernel]
  | piKernelSetExecInfo kernel value_name param_value_size param_value =>
    [.pointer kernel, .uint32 value_name, .uint64 param_value_size, .pointer param_value]
  | piKernelGetInfo kernel query => [.pointer kernel] ++ query.args
  | piKernelGetGroupInfo kernel device query => [.pointer kernel, .pointer device] ++ query.args
  | piextKernelSetArgMemObj kernel arg_index arg_value =>
    [.pointer kernel, .uint32 arg_index, .pointer arg_value]
  | piextKernelSetArgPointer kernel arg_index arg_size arg_value =>
    [.pointer kernel, .uint32 arg_index, .uint64 arg_size, .pointer arg_value]
  | piKernelSetArg kernel arg_index arg_size arg_value =>
    [.pointer kernel, .uint32 arg_index, .uint64 arg_size, .pointer arg_value]
  | piKernelRelease kernel => [.pointer kernel]
  | piKernelRetain kernel => [.pointer kernel]
  | piEnqueueKernelLaunch queue kernel work_dim global_work_offset global_work_size local_work_size
      num_events_in_wait_list event_wait_list event =>
    [.pointer queue, .pointer kernel, .uint32 work_dim, .pointer global_work_offset,
      .pointer global_work_size, .pointer local_work_size, .uint32 num_events_in_wait_list,
      .pointer event_wait_list, .pointer event]
  | piEnqueueMemBufferMap command_queue buffer blocking_map map_flags offset size
      num_events_in_wait_list event_wait_list event ret_map =>
    [.pointer command_queue, .pointer buffer, .uint32 blocking_map, .uint64 map_flags,
      .uint64 offset, .uint64 size, .uint32 num_events_in_wait_list, .pointer event_wait_list,
      .pointer event, .pointer ret_map]
  | piEnqueueMemBufferRead queue buffer blocking_read offset size ptr num_events_in_wait_list
      event_wait_list event =>
    [.pointer queue, .pointer buffer, .uint32 blocking_read, .uint64 offset, .uint64 size,
      .pointer ptr, .uint32 num_events_in_wait_list, .pointer event_wait_list, .pointer event]
  | piEnqueueMemUnmap command_queue memobj mapped_ptr num_events_in_wait_list event_wait_list
      event =>
    [.pointer command_queue, .pointer memobj, .pointer mapped_ptr, .uint32 num_events_in_wait_list,
      .pointer event_wait_list, .pointer event]
  | piEnqueueEventsWait command_queue num_events_in_wait_list event_wait_list event =>
    [.pointer command_queue, .uint32 num_events_in_wait_list, .pointer event_wait_list,
      .pointer event]
  | piEnqueueEventsWaitWithBarrier command_queue num_events_in_wait_list event_wait_list event =>
    [.pointer command_queue, .uint32 num_events_in_wait_list, .pointer event_wait_list,
      .pointer event]
  | piEventsWait num_events event_list => [.uint32 num_events, .pointer event_list]
  | piEventRelease event => [.pointer event]
  | piextUSMEnqueueMemcpy queue blocking dst_ptr src_ptr size num_events_in_waitlist events_waitlist
      event =>
    [.pointer queue, .uint32 blocking, .pointer dst_ptr, .pointer src_ptr, .uint64 size,
      .uint32 num_events_in_waitlist, .pointer events_waitlist, .pointer event]
  | piextUSMEnqueueMemset queue ptr value count num_events_in_waitlist events_waitlist event =>
    [.pointer queue, .pointer ptr, .int32 value, .uint64 count, .uint32 num_events_in_waitlist,
      .pointer events_waitlist, .pointer event]
  | piextUSMDeviceAlloc result_ptr context device properties size alignment =>
    [.pointer result_ptr, .pointer context, .pointer device, .pointer properties, .uint64 size,
      .uint32 alignment]
  | piextUSMHostAlloc result_ptr context properties size alignment =>
    [.pointer result_ptr, .pointer context, .pointer properties, .uint64 size, .uint32 alignment]
  | piextUSMFree context ptr => [.pointer context, .pointer ptr]

end PiCall

end DpcppTrace.Model
