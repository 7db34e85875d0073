import DpcppTrace.Soundness.ReplayRuns

/-! # What an object was created from

The recorded answer to a query for a kernel's program, or for a buffer's context, is a handle of the
recorded program. Replay stores it all the same and then overwrites it with the handle that it
remembers. Only the query for a program asks before whether there is a place for it.
-/

namespace DpcppTrace.Soundness

open Foundation Model Effect

/-- The objects of which replay remembers what they were created from. -/
inductive Remembered where
  | kernel
  | mem

namespace Remembered

/-- The call creates such an object from `passed`, and returns it at `place`. -/
inductive Creates : Remembered → PiCall → UInt64 → UInt64 → Prop
  | kernel (program : UInt64) (kernel_name : CString) (ret_kernel : UInt64) :
      Creates .kernel (.piKernelCreate program kernel_name ret_kernel) program ret_kernel
  | mem (context flags size host_ptr ret_mem properties : UInt64) :
      Creates .mem (.piMemBufferCreate context flags size host_ptr ret_mem properties) context ret_mem

/-- The query for what an object was created from. -/
def query : Remembered → UInt64 → UInt64 → UInt64 → UInt64 → PiCall
  | .kernel, handle, param_value_size, param_value, param_value_size_ret =>
    .piKernelGetInfo handle ⟨PI_KERNEL_INFO_PROGRAM, param_value_size, param_value, param_value_size_ret⟩
  | .mem, handle, param_value_size, param_value, param_value_size_ret =>
    .piMemGetInfo handle ⟨CL_MEM_CONTEXT, param_value_size, param_value, param_value_size_ret⟩

/-- Where it is remembered. -/
def origins : Remembered → Books → UInt64 → UInt64
  | .kernel => Books.kernels
  | .mem => Books.contexts

end Remembered

/-- A query writes through no null pointer, and a place for the value gets the handle. -/
structure OriginAnswered (host : ReplayHost) (call : PiCall) (param_value passed : UInt64) (s : Replay) :
    Prop where
  unharmed : replay host call s ≠ .error .nullWrite
  received : param_value ≠ 0 → ∃ code next, replay host call s = .ok (code, next) ∧
    handleAt next.world param_value.toNat = passed

/-- The query has a place for the value. Without one, a kernel's may have a place for the size, or nothing
to store there; a buffer's has no answer to store at all. -/
def PlaceGiven (record : APICall) (param_value param_value_size_ret : UInt64) : Remembered → Prop
  | .kernel => param_value ≠ 0 ∨ param_value_size_ret ≠ 0 ∨ record.small_outputs.headD [] = []
  | .mem => param_value ≠ 0 ∨ param_value_size_ret = 0 ∧ record.small_outputs = []

variable {host : ReplayHost} {remembered : Remembered} {call : PiCall} {handle : UInt64}

/-! ## What is remembered -/

/-- A call that creates no object at this address leaves what is remembered of it. -/
theorem origins_account {books : Books}
    (other : handle ∉ ((outParameters call).objects books.allocations).map host.heap) :
    remembered.origins (account host call books) handle = remembered.origins books handle := by
  have away (single : (outParameters call).objects books.allocations = [books.allocations]) :
      handle ≠ host.heap books.allocations := by
    rintro rfl
    rw [single] at other
    exact other (List.mem_singleton.mpr rfl)
  cases remembered with
  | kernel =>
    cases call with
    | piKernelCreate program =>
      exact Function.update_of_ne (away rfl) program books.kernels
    | _ => rfl
  | mem =>
    cases call with
    | piMemBufferCreate context =>
      exact Function.update_of_ne (away rfl) context books.contexts
    | _ => rfl

/-- It stays over a run that creates no object there. -/
theorem origins_run {steps : List (PiCall × World)} {world : World} (run : ServedRun host steps world)
    (other : handle ∉ (objectNumbers (steps.map Prod.fst) world.allocations).map host.heap) :
    remembered.origins (booksOf (lastWorld steps world)) handle =
      remembered.origins (booksOf world) handle := by
  induction steps generalizing world with
  | nil => rfl
  | cons step steps ih =>
    obtain ⟨serves, rest⟩ := run
    rw [List.map_cons, objectNumbers, List.map_append, List.mem_append, not_or,
      ← serves.allocations] at other
    rw [lastWorld, ih rest other.2, serves.books]
    exact origins_account other.1

/-- The handle that a creation returns is remembered with what was passed. -/
theorem origins_created {world created : World} {passed place : UInt64}
    (creates : remembered.Creates call passed place) (serves : ServesCall host call world created) :
    handleAt created place.toNat = host.heap world.allocations ∧
      (outParameters call).objects world.allocations = [world.allocations] ∧
      remembered.origins (booksOf created) (host.heap world.allocations) = passed := by
  have books := serves.books
  obtain ⟨memory, arrays, traceFile, record, ran⟩ := serves.body
  cases creates with
  | kernel =>
    have delivered := (leaves_body rfl _ _ _ ran).2
    exact ⟨delivered, rfl, by rw [books]; exact Function.update_self ..⟩
  | mem =>
    have delivered := (leaves_body rfl _ _ _ ran).2
    exact ⟨delivered, rfl, by rw [books]; exact Function.update_self ..⟩

/-- So it is remembered still behind any further calls. -/
theorem origins_later {before later : List (PiCall × World)} {start created : World}
    {passed place : UInt64} (creates : remembered.Creates call passed place)
    (run : ServedRun host (before ++ (call, created) :: later) start)
    (distinct : ((objectNumbers ((before ++ (call, created) :: later).map Prod.fst)
      start.allocations).map host.heap).Nodup) :
    remembered.origins (booksOf (lastWorld (before ++ (call, created) :: later) start))
      (handleAt created place.toNat) = passed := by
  obtain ⟨earlier, serves, rest⟩ := ServedRun.append.mp run
  obtain ⟨delivered, single, stored⟩ := origins_created creates serves
  rw [List.map_append, objectNumbers_append earlier, List.map_cons, objectNumbers, single,
    ← serves.allocations, List.map_append, List.nodup_append] at distinct
  have other := (List.nodup_cons.mp distinct.2.1).1
  rw [lastWorld_append, lastWorld, delivered, origins_run rest other]
  exact stored

/-! ## The queries -/

section Queries

variable {record : APICall} {query : InfoQuery} {replaced : Prop} [Decidable replaced]
  {origin : World → UInt64}

/-- The body of both queries. -/
def replayOrigin (record : APICall) (query : InfoQuery) (replaced : Prop) [Decidable replaced]
    (origin : World → UInt64) : Effect Unit := do
  replayGetInfo record query
  if replaced then
    let world ← get
    storePointer query.param_value (origin world)

/-- With a place for the value, the handle is the last thing that is stored there. -/
theorem replayOrigin_value (given : query.param_value ≠ 0) (present : record.small_outputs ≠ [])
    (holds : replaced) (blind : ∀ world next, booksOf next = booksOf world → origin next = origin world)
    (world : World) :
    ∃ next, replayOrigin record query replaced origin world = .ok ((), next) ∧
      handleAt next query.param_value.toNat = origin world := by
  obtain ⟨output, more, outputs⟩ := List.exists_cons_of_ne_nil present
  have answered : Total (replayGetInfo record query) := by
    rw [replayGetInfo, (returns_smallOutput outputs).bind, if_pos given]
    exact total_store (.inl given)
  obtain ⟨⟨⟩, mid, ran⟩ := answered world
  have kept : origin mid = origin world := blind _ _ (counts_booksOf.replayGetInfo query world () mid ran)
  refine ⟨{ mid with
    memory := mid.memory.write query.param_value.toNat (leBytes 8 (origin mid).toNat) }, ?_, ?_⟩
  · rw [replayOrigin, bind_ok ran, if_pos holds]
    exact if_neg fun blocked => given blocked.1
  · rw [← kept]
    exact handleAt_of_read (Memory.read_write _ _ _)

/-- Without one, a query whose value is replaced in any case ends in a null pointer, unless there is no
answer to begin with. -/
theorem replayOrigin_null_iff (null : query.param_value = 0) (holds : replaced)
    (carried : query.param_value_size_ret ≠ 0 → record.small_outputs ≠ []) (world : World) :
    replayOrigin record query replaced origin world ≠ .error .nullWrite ↔
      query.param_value_size_ret = 0 ∧ record.small_outputs = [] := by
  rcases outputs : record.small_outputs with _ | ⟨output, more⟩
  · have faults : FaultsWith .missingOutput (replayOrigin record query replaced origin) :=
      .bind (.bind (fun world => by rw [smallOutput, outputs]; rfl) _) _
    rw [faults world]
    refine iff_of_true (fun wrong => by cases wrong) ⟨?_, rfl⟩
    exact not_not.mp fun size => carried size outputs
  · refine iff_of_false (not_not.mpr ?_) fun none => List.cons_ne_nil _ _ none.2
    have replace : FaultsWith .nullWrite (if replaced then
        (get >>= fun world => storePointer query.param_value (origin world)) else pure () :
        Effect Unit) := by
      rw [if_pos holds]
      exact .after total_get fun _ _ => if_pos ⟨null, List.cons_ne_nil _ _⟩
    have faults : FaultsWith .nullWrite (replayOrigin record query replaced origin) := by
      rw [replayOrigin, replayGetInfo, (returns_smallOutput outputs).bind]
      by_cases blocked : (if query.param_value ≠ 0 then query.param_value
          else query.param_value_size_ret) = 0 ∧ output ≠ []
      · exact FaultsWith.bind (fun world => if_pos blocked) _
      · exact .after (fun world => ⟨(), _, if_neg blocked⟩) fun _ => replace
    exact faults world

/-- Without one, a query that leaves the recorded answer alone fails only if that goes nowhere. -/
theorem replayOrigin_kept_iff (null : query.param_value = 0) (kept : ¬replaced) (world : World) :
    replayOrigin record query replaced origin world ≠ .error .nullWrite ↔
      query.param_value_size_ret ≠ 0 ∨ record.small_outputs.headD [] = [] := by
  have alone : replayOrigin record query replaced origin = replayGetInfo record query := by
    rw [replayOrigin, if_neg kept]
    exact bind_pure _
  rw [alone, replayGetInfo]
  rcases outputs : record.small_outputs with _ | ⟨output, more⟩
  · have faults : FaultsWith .missingOutput (smallOutput record) :=
      fun world => by rw [smallOutput, outputs]; rfl
    rw [faults.bind _ world]
    exact iff_of_true (fun wrong => by cases wrong) (.inr rfl)
  · rw [(returns_smallOutput outputs).bind, if_neg (not_not.mpr null), store, List.headD_cons]
    split_ifs with blocked
    · exact iff_of_false (not_not.mpr rfl) fun given =>
        given.elim (fun size => size blocked.1) blocked.2
    · refine iff_of_true (fun wrong => by cases wrong) ?_
      by_cases size : query.param_value_size_ret = 0
      · exact .inr (not_not.mp fun some => blocked ⟨size, some⟩)
      · exact .inl size

end Queries

/-- Queries for a value that is remembered, on records that carry what was queried. -/
theorem originAnswered_iff {s : Replay} {record : APICall} {query : InfoQuery} {passed : UInt64}
    {replaced : Prop} [Decidable replaced] {origin : World → UInt64} {given : Prop}
    (own : OwnReplay host call record s)
    (body : (piPluginInit host call).body record = replayOrigin record query replaced origin)
    (holds : query.param_value ≠ 0 → replaced)
    (blind : ∀ world next, booksOf next = booksOf world → origin next = origin world)
    (remembers : origin s.world = passed)
    (carried : query.param_value ≠ 0 ∨ query.param_value_size_ret ≠ 0 → record.small_outputs ≠ [])
    (without : query.param_value = 0 →
      (replayOrigin record query replaced origin s.world ≠ .error .nullWrite ↔ given)) :
    OriginAnswered host call query.param_value passed s ↔ query.param_value ≠ 0 ∨ given := by
  by_cases null : query.param_value = 0
  · rw [or_iff_right (not_not.mpr null), ← without null, ← body]
    constructor
    · intro answered wrong
      exact answered.unharmed (own.error _ wrong)
    · intro safe
      refine ⟨fun wrong => safe ?_, fun wanted => absurd null wanted⟩
      rcases ran : (piPluginInit host call).body record s.world with fault | ⟨⟨⟩, world⟩
      · rw [own.error fault ran] at wrong
        rw [Except.error.inj wrong]
      · obtain ⟨code, next, answered, -⟩ := own.ok world ran
        rw [answered] at wrong
        cases wrong
  · refine iff_of_true ?_ (.inl null)
    obtain ⟨world, ran, value⟩ := replayOrigin_value null (carried (.inl null)) (holds null) blind s.world
    rw [← body] at ran
    obtain ⟨code, next, answered, rfl⟩ := own.ok world ran
    refine ⟨?_, fun _ => ⟨code, next, answered, value.trans remembers⟩⟩
    rw [answered]
    exact fun wrong => by cases wrong

/-- Behind any run that created an object, the query for what it was created from writes through no null
pointer and answers with what was passed then, exactly if it gives a place; records carry what was
queried, and the objects of the run have different addresses. -/
theorem origin_answered_iff (host : ReplayHost) (remembered : Remembered)
    (before later : List (PiCall × World)) (start created : World) (create : PiCall)
    (passed place : UInt64) (creates : remembered.Creates create passed place)
    (run : ServedRun host (before ++ (create, created) :: later) start)
    (distinct : ((objectNumbers ((before ++ (create, created) :: later).map Prod.fst)
      start.allocations).map host.heap).Nodup)
    (s : Replay)
    (standing : booksOf s.world = booksOf (lastWorld (before ++ (create, created) :: later) start))
    (param_value_size param_value param_value_size_ret : UInt64) (record : APICall) (trace : IStream)
    (read : getNextRecord host.pb (host.junk s.records) (ensureTraceOpened host s) =
      .ok (record, trace))
    (id : record.function_id = host.pi.number (remembered.query (handleAt created place.toNat)
      param_value_size param_value param_value_size_ret).api)
    (carried : param_value ≠ 0 ∨ param_value_size_ret ≠ 0 → record.small_outputs ≠ []) :
    OriginAnswered host (remembered.query (handleAt created place.toNat) param_value_size param_value
        param_value_size_ret) param_value passed s ↔
      PlaceGiven record param_value param_value_size_ret remembered := by
  have remembers := origins_later creates run distinct
  rw [← standing] at remembers
  cases remembered with
  | kernel =>
    have own : OwnReplay host (Remembered.kernel.query (handleAt created place.toNat) param_value_size
      param_value param_value_size_ret) record s := ownReplay_of_read read id
    refine originAnswered_iff own rfl (fun given => ⟨rfl, given⟩) ?_ remembers carried fun null => ?_
    · exact fun world next same => congrFun (congrArg Books.kernels same) _
    · exact replayOrigin_kept_iff null (fun wanted => wanted.2 null) _
  | mem =>
    have own : OwnReplay host (Remembered.mem.query (handleAt created place.toNat) param_value_size
      param_value param_value_size_ret) record s := ownReplay_of_read read id
    refine originAnswered_iff own rfl (fun _ => rfl) ?_ remembers carried fun null => ?_
    · exact fun world next same => congrFun (congrArg Books.contexts same) _
    · exact replayOrigin_null_iff null rfl (fun size => carried (.inr size)) _

def createKernel : PiCall := .piKernelCreate 0x1234 ⟨0x2000, []⟩ 0x3000

def createBuffer : PiCall := .piMemBufferCreate 0x1234 0 0 0 0x3000 0

/-- What the new objects leave: a context that was made before, the kernel or the buffer, which is
remembered, and an event that was made behind it. -/
def contextBefore : World := issue (sampleHost []) 0x5000 sampleWorld

def kernelWorld : World :=
  { issue (sampleHost []) 0x3000 contextBefore with
    GKernelProgramMap := Function.update contextBefore.GKernelProgramMap 0x1020 0x1234 }

def eventWorld : World := issue (sampleHost []) 0x6000 kernelWorld

def bufferWorld : World :=
  { issue (sampleHost []) 0x3000 sampleWorld with
    GMemContextMap := Function.update sampleWorld.GMemContextMap 0x1000 0x1234 }

/-- The record of a query that was answered with a handle. -/
def originRecord (api : PiApiKind) : APICall :=
  { function_id := tableOrder.number api, small_outputs := [leBytes 8 0x9999] }

/-- A call that returned and had no outputs, replayed in a thread of its own. -/
theorem servesCall_alone {traceFile : Bytes} {call : PiCall} {world next : World}
    (ran : ∃ code after, replay (sampleHost (written wire [Outputs.record {} tableOrder call (sampleEnd 0)]))
      call ⟨none, 0, world⟩ = .ok (code, after) ∧ after.world = next) :
    ServesCall (sampleHost traceFile) call world next :=
  ⟨world.memory, world.arrays, _, none, 0, ran⟩

/-- The calls around the creation: a context before it, a retain and an event behind it. -/
def beforeKernel : List (PiCall × World) := [(.piContextCreate 0 0 0 0 0 0x5000, contextBefore)]

def behindKernel : List (PiCall × World) :=
  [(.piKernelRetain 0x1020, kernelWorld), (.piEnqueueEventsWait 0x7000 0 0 0x6000, eventWorld)]

/-- Another thread asks for the program of a kernel. -/
theorem origin_answered_iff_kernel :
    OriginAnswered (sampleHost (written wire [originRecord .piKernelGetInfo]))
      (Remembered.kernel.query (handleAt kernelWorld (0x3000 : UInt64).toNat) 8 0x4000 0) 0x4000 0x1234
      ⟨none, 0, eventWorld⟩ := by
  have run : ServedRun (sampleHost (written wire [originRecord .piKernelGetInfo]))
      (beforeKernel ++ (createKernel, kernelWorld) :: behindKernel) sampleWorld :=
    ⟨servesCall_alone ⟨0, _, rfl, rfl⟩, servesCall_alone ⟨0, _, rfl, rfl⟩,
      servesCall_alone ⟨0, _, rfl, rfl⟩, servesCall_alone ⟨0, _, rfl, rfl⟩, trivial⟩
  exact (origin_answered_iff (sampleHost (written wire [originRecord .piKernelGetInfo])) .kernel
    beforeKernel behindKernel sampleWorld kernelWorld createKernel 0x1234 0x3000 (.kernel ..) run
    (by decide) ⟨none, 0, eventWorld⟩ rfl 8 0x4000 0 (originRecord .piKernelGetInfo) { rest := [] } rfl
    rfl (fun _ => List.cons_ne_nil _ _)).mpr (.inl (by decide))

/-- Asked only for the size of a buffer's context, the entry writes through a null pointer. -/
theorem not_origin_answered :
    ¬∀ (host : ReplayHost) (remembered : Remembered) (before later : List (PiCall × World))
      (start created : World) (create : PiCall) (passed place : UInt64),
      remembered.Creates create passed place →
        ServedRun host (before ++ (create, created) :: later) start →
        ((objectNumbers ((before ++ (create, created) :: later).map Prod.fst)
          start.allocations).map host.heap).Nodup →
        ∀ (s : Replay),
          booksOf s.world = booksOf (lastWorld (before ++ (create, created) :: later) start) →
          ∀ (param_value_size param_value param_value_size_ret : UInt64) (record : APICall)
            (trace : IStream),
            getNextRecord host.pb (host.junk s.records) (ensureTraceOpened host s) =
              .ok (record, trace) →
            record.function_id = host.pi.number (remembered.query (handleAt created place.toNat)
              param_value_size param_value param_value_size_ret).api →
            (param_value ≠ 0 ∨ param_value_size_ret ≠ 0 → record.small_outputs ≠ []) →
            OriginAnswered host (remembered.query (handleAt created place.toNat) param_value_size
              param_value param_value_size_ret) param_value passed s := by
  intro always
  have buffer : ServesCall (sampleHost (written wire [originRecord .piMemGetInfo])) createBuffer
      sampleWorld bufferWorld :=
    servesCall_alone ⟨0, _, rfl, rfl⟩
  have answered := always (sampleHost (written wire [originRecord .piMemGetInfo])) .mem [] []
    sampleWorld bufferWorld createBuffer 0x1234 0x3000 (.mem ..) ⟨buffer, trivial⟩ (by decide)
    ⟨none, 0, bufferWorld⟩ rfl 8 0 0x5000 (originRecord .piMemGetInfo) { rest := [] } rfl rfl
    (fun _ => List.cons_ne_nil _ _)
  exact answered.unharmed rfl

end DpcppTrace.Soundness
