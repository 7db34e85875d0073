import DpcppTrace.Foundation.Machine
import DpcppTrace.Model.HostProcess
import DpcppTrace.Soundness.MemoryPackets

/-! # The selected thread

A client selects a thread by its id. The protocol keeps the number until the next selection, and
the debugger takes it for an id when it reads registers or a stop reason. To name the current
thread, however, the protocol hands it to the debugger as a place in the list of threads.
-/

namespace DpcppTrace.Soundness

open Foundation Model Pattern

/-! ## What the handlers keep -/

/-- At every end of the handler this part of the protocol is as it was. -/
def KeepsPart {α : Type} (part : GDBServerProtocol → α) (handler : Handler) : Prop :=
  ∀ protocol : GDBServerProtocol,
    (handler protocol).Always fun result => part result.2 = part protocol

private theorem traverses_keeps {α : Type} {part : GDBServerProtocol → α} : Traverses (KeepsPart part) where
  respond _ := fun _ => rfl
  ask then_ := fun protocol answer => then_ answer protocol
  get then_ := fun protocol => then_ protocol protocol
  throw := fun _ => trivial

private theorem keeps_process_qXfer {α : Type} {part : GDBServerProtocol → α} (packet : Bytes) :
    KeepsPart part (process_qXfer packet) := by
  rw [process_qXfer]
  split
  · exact fun _ _ => rfl
  · exact fun _ _ => rfl
  · exact fun _ _ => rfl
  · exact fun _ => rfl

/-- Only thread packets change the selected thread. -/
theorem keeps_selection {packet : Bytes} (after : UInt8) (other : route packet ≠ .process_H) :
    KeepsPart GDBServerProtocol.mCurrentThreadIndex (processPacket packet after) := by
  by_cases changing : route packet ∈ [.process_QStartNoAckMode, .process_qXfer, .processAck, .stop,
    .process_H, .process_qfThreadInfo]
  · rw [processPacket]
    cases routed : route packet with
    | process_QStartNoAckMode | processAck | stop => exact fun _ => rfl
    | process_qXfer => exact keeps_process_qXfer packet
    | process_qfThreadInfo =>
      apply traverses_keeps.ask
      intro numThreads protocol
      change Program.Always _
        ((if protocol.mLastThreadInfoIndex < numThreads then _ else _ : Handler) protocol)
      split
      · exact fun _ => rfl
      · rfl
    | process_H => exact absurd routed other
    | _ => simp [routed] at changing
  · exact processPacket_of_traverses traverses_keeps after changing

/-! ## The server between packets -/

section Runs

variable {τ : Type}

/-- The server takes one packet after another until one ends it, or the debugger ends. -/
def packetMachine (process : LLDBProcess τ) (others : Environment Request.Answer τ)
    (after : Bytes → UInt8) : Machine (GDBServerProtocol × τ) Bytes where
  step here packet :=
    let transcript := handled (process.environment others) (.ok here.2) here.1 after packet
    match transcript.value, transcript.final with
    | some (_, next), .ok debugger => if here.1.mRunning then some (next, debugger) else none
    | _, _ => none

/-- What the client reads, if the debugger gets through the packet. -/
def observed (transcript : Transcript Request (Except DebuggerFault τ) (Bytes × GDBServerProtocol)) :
    Option Bytes :=
  match transcript.final with
  | .ok _ => payload transcript
  | .error _ => none

/-- The thread that a call uses. -/
def threadOf (process : LLDBProcess τ) (debugger : τ) : Request → Option UInt64
  | .getRegistersData threadId | .readRegister threadId _ | .getStopReason threadId =>
    process.findThread debugger threadId
  | .getThreadIDAtIndex threadIdx => (process.threads debugger)[threadIdx.toNat]?
  | _ => none

/-- While the thread is alive, `qC` names it, and `g`, `p` and `?` are about it. -/
def ThreadServed (process : LLDBProcess τ) (others : Environment Request.Answer τ)
    (after : Bytes → UInt8) (thread : UInt64) (here : GDBServerProtocol × τ) (packet : Bytes) : Prop :=
  thread ∈ process.threads here.2 →
    let transcript := handled (process.environment others) (.ok here.2) here.1 after packet
    (route packet = .process_qC → observed transcript = some (str "QC" ++ hexNumeral thread.toNat)) ∧
    (route packet ∈ [.process_g, .process_p, .processStatus] →
      ∃ request, transcript.calls = [request] ∧ threadOf process here.2 request = some thread)

/-- While the thread is alive, `qC` is only asked when its id is its place in the list. -/
def PlacedById (process : LLDBProcess τ) (thread : UInt64) (here : GDBServerProtocol × τ)
    (packet : Bytes) : Prop :=
  thread ∈ process.threads here.2 → route packet = .process_qC →
    (process.threads here.2)[thread.toNat]? = some thread

variable {process : LLDBProcess τ} {others : Environment Request.Answer τ} {after : Bytes → UInt8}
  {thread : UInt64} {here next : GDBServerProtocol × τ} {packet : Bytes}

/-- A step is the end of a packet. -/
theorem packetMachine_step (stepped : (packetMachine process others after).step here packet = some next) :
    ∃ reply, (handled (process.environment others) (.ok here.2) here.1 after packet).value =
        some (reply, next.1) ∧
      (handled (process.environment others) (.ok here.2) here.1 after packet).final = .ok next.2 := by
  simp only [packetMachine] at stepped
  split at stepped
  · rename_i reply protocol debugger value final
    split at stepped
    · obtain rfl := Option.some.inj stepped
      exact ⟨reply, value, final⟩
    · cases stepped
  · cases stepped

private theorem selection_kept (other : route packet ≠ .process_H)
    (stepped : (packetMachine process others after).step here packet = some next) :
    next.1.mCurrentThreadIndex = here.1.mCurrentThreadIndex := by
  obtain ⟨reply, value, -⟩ := packetMachine_step stepped
  exact (keeps_selection (after packet) other here.1).run value

theorem encodeInt_thread (id : UInt64) : encodeInt 8 id.toBitVec = hexNumeral id.toNat :=
  encodeInt_eq 8 id.toBitVec

/-- A live thread is found by its id. -/
theorem findThread_live {debugger : τ} (nonzero : thread ≠ 0)
    (live : thread ∈ process.threads debugger) : process.findThread debugger thread = some thread := by
  rw [LLDBProcess.findThread, if_neg nonzero]
  have present : ((process.threads debugger).find? (· = thread)).isSome :=
    List.find?_isSome.mpr ⟨thread, live, decide_eq_true rfl⟩
  obtain ⟨found, located⟩ := Option.isSome_iff_exists.mp present
  have same := List.find?_some located
  rw [located]
  simpa using same

private theorem observed_qC (routed : route packet = .process_qC) :
    observed (handled (process.environment others) (.ok here.2) here.1 after packet) =
      (process.threads here.2)[here.1.mCurrentThreadIndex.toNat]?.map
        fun id => str "QC" ++ hexNumeral id.toNat := by
  have ran : handled (process.environment others) (.ok here.2) here.1 after packet =
      let answer : UInt64 × Except DebuggerFault τ := process.environment others (.ok here.2)
        (.getThreadIDAtIndex here.1.mCurrentThreadIndex)
      ⟨[.getThreadIDAtIndex here.1.mCurrentThreadIndex], answer.2,
        some (createResponse (str "QC" ++ encodeInt 8 answer.1.toBitVec) here.1.mAck, here.1)⟩ := by
    rw [handled, processPacket, routed]
    rfl
  rw [ran]
  simp only [LLDBProcess.environment_getThreadIDAtIndex, LLDBProcess.getThreadIDAtIndex]
  cases (process.threads here.2)[here.1.mCurrentThreadIndex.toNat]? with
  | none => rfl
  | some id =>
    have clean : Clean (str "QC" ++ encodeInt 8 id.toBitVec) :=
      .append (by decide) (clean_encodeInt _ _)
    rw [Option.map_some, ← encodeInt_thread]
    exact receive_createResponse clean _

private theorem threadServed_iff (nonzero : thread ≠ 0) (selected : here.1.mCurrentThreadIndex = thread) :
    ThreadServed process others after thread here packet ↔ PlacedById process thread here packet := by
  refine imp_congr_right fun live => ?_
  have found := findThread_live nonzero live
  constructor
  · intro served routed
    have named := served.1 routed
    rw [observed_qC routed, selected] at named
    obtain ⟨id, located, same⟩ := Option.map_eq_some_iff.mp named
    rw [located, UInt64.toNat.inj (hexNumeral_injective (List.append_cancel_left same))]
  · intro placed
    constructor
    · intro routed
      rw [observed_qC routed, selected, placed routed]
      rfl
    · intro routed
      simp only [List.mem_cons, List.not_mem_nil, or_false] at routed
      rcases routed with routed | routed | routed
      · refine ⟨.getRegistersData thread, ?_, found⟩
        rw [← selected, handled, processPacket, routed]
        exact congrArg (_ :: ·) (congrArg Transcript.calls (run_respondData _ _))
      · refine ⟨.readRegister thread (registerNumber packet), ?_, found⟩
        rw [← selected, handled, processPacket, routed]
        exact congrArg (_ :: ·) (congrArg Transcript.calls (run_respondData _ _))
      · refine ⟨.getStopReason thread, ?_, found⟩
        rw [← selected, handled, processPacket, routed]
        rfl

/-! ## The selection -/

/-- The body of the packet that selects a thread. -/
def selectBody (thread : UInt64) : Bytes := str "H" ++ (str "g" ++ hexNumeral thread.toNat)

theorem bodyRoute_selectBody (thread : UInt64) : bodyRoute (selectBody thread) = .process_H :=
  bodyRoute_command "H" 6 (by simp [hexNumeral_ne_nil]) rfl rfl

theorem threadBody_selectBody (thread : UInt64) :
    threadBody.fullMatch (selectBody thread) = some [hexNumeral thread.toNat] := by
  have letter : str "g" = [0x67] := by decide
  have described {captures : List Bytes} : threadBody.Matches (selectBody thread) captures ↔
      captures = [hexNumeral thread.toNat] := by
    rw [threadBody, matches_text_append, selectBody]
    constructor
    · rintro ⟨rest, same, fits⟩
      rw [← List.append_cancel_left same, letter] at fits
      obtain ⟨_, digits, _, _, split, ⟨⟨c, -, rfl⟩, rfl⟩, ⟨_, ⟨-, rfl⟩, rfl⟩, rfl⟩ := fits
      have same : hexNumeral thread.toNat = digits := (List.cons.inj split).2
      rw [same]
      rfl
    · rintro rfl
      refine ⟨_, rfl, str "g", hexNumeral thread.toNat, [], _, rfl,
        ⟨⟨0x67, by decide, letter⟩, rfl⟩, ⟨[], ⟨⟨hexNumeral_ne_nil _, fun c mem => ?_⟩, rfl⟩, rfl⟩, rfl⟩
      simp [anyHex_of_lowerHex (mem_hexNumeral mem)]
  exact fullMatch_eq_some (described.mpr rfl) fun others => described.mp

theorem parseUInt64_thread (thread : UInt64) : parseUInt64 (hexNumeral thread.toNat) = thread :=
  UInt64.toNat.inj (parseUInt64_hexNumeral thread.toNat_lt)

/-- A selection that is answered OK is kept. -/
theorem selected_of_step {high low : UInt8} (highDigit : anyHex high = true)
    (lowDigit : anyHex low = true) {lead trail : Bool} {start : GDBServerProtocol × τ}
    (stepped : (packetMachine process others after).step here
      (packetOf lead trail (selectBody thread) high low) = some start)
    (answered : payload (handled (process.environment others) (.ok here.2) here.1 after
      (packetOf lead trail (selectBody thread) high low)) = some (str "OK")) :
    start.1.mCurrentThreadIndex = thread := by
  have routed : route (packetOf lead trail (selectBody thread) high low) = .process_H := by
    rw [route_packetOf highDigit lowDigit, bodyRoute_selectBody]
  obtain ⟨reply, value, -⟩ := packetMachine_step stepped
  cases trail with
  | true =>
    rw [payload, handled_process_H routed, threadPattern_back, Option.bind_some,
      receive_createResponse (by decide)] at answered
    exact absurd answered (by decide)
  | false =>
    have matched := threadPattern_front highDigit lowDigit lead (selectBody thread)
    rw [threadBody_selectBody] at matched
    obtain ⟨c, rest, digits⟩ := List.exists_cons_of_ne_nil (hexNumeral_ne_nil thread.toNat)
    have unsigned : (hexNumeral thread.toNat).head? ≠ some 0x2d := by
      rw [digits]
      intro same
      have member : (0x2d : UInt8) ∈ hexNumeral thread.toNat := by
        rw [digits, Option.some.inj same]
        exact List.mem_cons_self
      exact absurd (mem_hexNumeral member) (by decide)
    rw [handled, processPacket, routed] at value
    change ((process_H _ here.1).run _ _).value = _ at value
    rw [process_H, matched] at value
    have kept := congrArg (fun result => result.map (·.2.mCurrentThreadIndex)) value
    change some (if (hexNumeral thread.toNat).head? = some 0x2d then 0
      else parseUInt64 (hexNumeral thread.toNat)) = some start.1.mCurrentThreadIndex at kept
    rw [if_neg unsigned, parseUInt64_thread] at kept
    exact (Option.some.inj kept).symm

/-- After a thread has been selected, and until the next thread packet, every packet is served for it
exactly if `qC` is only asked while the thread's id is its place in the list of threads. -/
theorem selection_served_iff (process : LLDBProcess τ) (others : Environment Request.Answer τ)
    (after : Bytes → UInt8) (here start : GDBServerProtocol × τ) (lead trail : Bool)
    (high low : UInt8) (thread : UInt64) (highDigit : anyHex high = true)
    (lowDigit : anyHex low = true) (nonzero : thread ≠ 0)
    (stepped : (packetMachine process others after).step here
      (packetOf lead trail (selectBody thread) high low) = some start)
    (answered : payload (handled (process.environment others) (.ok here.2) here.1 after
      (packetOf lead trail (selectBody thread) high low)) = some (str "OK"))
    (packets : List Bytes) (until_ : ∀ packet ∈ packets, route packet ≠ .process_H) :
    (packetMachine process others after).Meets (ThreadServed process others after thread) start
        packets ↔
      (packetMachine process others after).Meets (PlacedById process thread) start packets := by
  have selected := selected_of_step highDigit lowDigit stepped answered
  have keeps (here : GDBServerProtocol × τ) (packet : Bytes) (next : GDBServerProtocol × τ)
      (kept : here.1.mCurrentThreadIndex = thread) (other : route packet ≠ .process_H)
      (stepped : (packetMachine process others after).step here packet = some next) :
      next.1.mCurrentThreadIndex = thread := (selection_kept other stepped).trans kept
  exact Machine.meets_congr keeps (fun here packet kept _ => threadServed_iff nonzero kept) selected
    until_

end Runs

/-! ## A process with a list of threads -/

/-- A process that has stopped, with these threads and registers and the same contents of a register
in every thread. -/
def listedProcess (threads : List UInt64) (few : threads.length < 2 ^ 32)
    (registers : List RegisterInfo) (printable : (targetXML [] registers).length < 2 ^ 64)
    (contents : (regInfo : RegisterInfo) → Option (RegisterValue regInfo)) : LLDBProcess Unit where
  threads _ := threads
  archName := []
  registers _ := registers
  ReadRegister _ _ := contents
  GetState _ := .stopped
  GetStopReason _ _ := .breakpoint
  stopInfoValue _ _ := 0
  few _ := few
  printable _ := printable

private theorem targetXML_nil_sized : (targetXML [] []).length < 2 ^ 64 := by decide

/-- The threads 7 and 1, without registers. -/
def twoThreads : LLDBProcess Unit :=
  listedProcess [7, 1] (Nat.lt_trans (by decide : 2 < 3) (by norm_num)) [] targetXML_nil_sized
    fun _ => none

/-- The second thread has the id of its place: it is selected and named. -/
theorem selection_served_iff_one :
    (packetMachine twoThreads (objectsDebugger default default default) fun _ => 0).Meets
      (ThreadServed twoThreads (objectsDebugger default default default) (fun _ => 0) 1)
      ({ mCurrentThreadIndex := 1 }, ()) [str "$qC#b4", str "$g#67"] := by
  have packet : packetOf false false (selectBody 1) 0x30 0x30 = str "$Hg1#00" := by decide
  refine (selection_served_iff twoThreads _ (fun _ => 0) ({}, ()) ({ mCurrentThreadIndex := 1 }, ())
    false false 0x30 0x30 1 (by decide) (by decide) (by decide) ?_ ?_ _ (by decide)).mpr ?_
  · rw [packet]
    rfl
  · rw [packet]
    decide
  · exact ⟨fun _ _ => rfl, fun _ _ => ⟨fun _ _ => rfl, fun _ _ => trivial⟩⟩

/-- The first thread is selected, and asked for its name the debugger ends. -/
theorem not_selection_served :
    ¬∀ (process : LLDBProcess Unit) (start : GDBServerProtocol × Unit) (thread : UInt64)
      (packets : List Bytes), thread ≠ 0 → thread ∈ process.threads () →
        (packetMachine process (objectsDebugger default default default) fun _ => 0).step ({}, ())
          (packetOf false false (selectBody thread) 0x30 0x30) = some start →
        payload (handled (process.environment (objectsDebugger default default default)) (.ok ()) {}
          (fun _ => 0) (packetOf false false (selectBody thread) 0x30 0x30)) = some (str "OK") →
        (∀ packet ∈ packets, route packet ≠ .process_H) →
          (packetMachine process (objectsDebugger default default default) fun _ => 0).Meets
            (ThreadServed process (objectsDebugger default default default) (fun _ => 0) thread)
            start packets := by
  intro always
  have packet : packetOf false false (selectBody 7) 0x30 0x30 = str "$Hg7#00" := by decide
  have served := always twoThreads ({ mCurrentThreadIndex := 7 }, ()) 7 [str "$qC#b4"] (by decide)
    (by decide) (by rw [packet]; rfl) (by rw [packet]; decide) (by decide)
  have named := (served.1 (by decide)).1 (by decide)
  rw [observed_qC (by decide)] at named
  exact absurd named (by decide)

end DpcppTrace.Soundness
