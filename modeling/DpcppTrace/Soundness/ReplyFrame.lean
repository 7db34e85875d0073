import DpcppTrace.Soundness.Dispatch
import DpcppTrace.Soundness.PacketText

/-! # Every reply is one frame

Most handlers build their payload from digits, fixed text and escaped binary, and frame it with the
acknowledgement the client expects; for them nothing depends on what the debugger answers. The
exceptions are the acknowledgement of `QStartNoAckMode`, which is sent again when acknowledgements
are already off, and the slices that `qXfer` cuts out of texts it does not escape, or out of a text
it has escaped before.
-/

namespace DpcppTrace.Soundness

open Foundation Model

/-- Whatever is answered, the handler replies with the frame of a payload that is `good`, under the
acknowledgement setting it found, and does not stop the server. -/
def Sends (good : Bytes → Prop) (handler : Handler) : Prop :=
  ∀ protocol : GDBServerProtocol, (handler protocol).Always fun result =>
    (∃ payload, good payload ∧ result.1 = createResponse payload protocol.mAck) ∧
      result.2.mRunning = protocol.mRunning

/-- The property goes through the requests of a handler, and holds of clean responses and where a
handler breaks off. -/
structure Traverses (property : Handler → Prop) : Prop where
  respond : ∀ {response : Bytes}, Clean response → property (respond response)
  ask : ∀ {request : Request} {rest : request.Answer → Handler},
    (∀ answer, property (rest answer)) → property (ask request >>= rest)
  get : ∀ {rest : GDBServerProtocol → Handler},
    (∀ protocol, property (rest protocol)) → property (get >>= rest)
  throw : property throwException

private theorem traverses_sends : Traverses (Sends Clean) where
  respond {response} clean := fun _ => ⟨⟨response, clean, rfl⟩, rfl⟩
  ask then_ := fun protocol answer => then_ answer protocol
  get then_ := fun protocol => then_ protocol protocol
  throw := fun _ => trivial

private theorem clean_encodeStopReason (stopReason : StopReason) : Clean (encodeStopReason stopReason) := by
  rw [encodeStopReason]
  split
  · exact .append (by decide) (clean_formatHex2 _)
  all_goals decide

section Handlers

variable {property : Handler → Prop} (walk : Traverses property)

include walk

private theorem respondData_of_traverses {data : Bytes} {text : Bytes → Bytes} (clean : Clean (text data)) :
    property (respondData data text) := by
  rw [respondData]
  split
  · exact walk.respond (by decide)
  · exact walk.respond clean

private theorem processStatus_of_traverses : property processStatus :=
  walk.get fun _ => walk.ask fun _ => walk.respond (clean_encodeStopReason _)

private theorem respondStopped_of_traverses (action : Request) : property (respondStopped action) :=
  walk.ask fun _ => processStatus_of_traverses walk

private theorem respondResult_of_traverses (res : Int32) : property (respondResult res) := by
  rw [respondResult]
  split
  · exact walk.respond (.append (by decide) (clean_encodeInt _ _))
  · exact walk.respond (.append (by decide) (.append (by decide) (clean_encodeInt _ _)))

private theorem process_m_of_traverses (packet : Bytes) : property (process_m packet) := by
  rw [process_m]
  obtain ⟨start, length⟩ := memoryRange packet
  dsimp only
  split
  · exact walk.respond (by decide)
  · apply walk.ask
    intro data
    apply respondData_of_traverses walk
    split
    · exact clean_escape _
    · exact clean_encode _

private theorem process_M_of_traverses (packet : Bytes) : property (process_M packet) := by
  rw [process_M]
  obtain ⟨startHex, lengthHex, dataHex⟩ := writeCaptures packet
  dsimp only
  split
  · exact walk.respond (by decide)
  · exact walk.ask fun _ => walk.respond (by decide)

private theorem processBreakpoint_of_traverses (command : String) (action : UInt64 → Request)
    (packet : Bytes) : property (processBreakpoint command action packet) := by
  rw [processBreakpoint]
  split
  · exact walk.ask fun _ => walk.respond (by decide)
  · exact walk.respond (by decide)

private theorem process_vCont_of_traverses (packet : Bytes) : property (process_vCont packet) := by
  rw [process_vCont]
  repeat' split
  all_goals first
    | exact respondStopped_of_traverses walk _
    | exact walk.respond (by decide)

private theorem vFilePread_of_traverses (fdHex countHex offsetHex : Bytes) :
    property (vFilePread fdHex countHex offsetHex) := by
  rw [vFilePread]
  split
  · exact walk.throw
  · apply walk.ask
    intro allocated
    cases allocated with
    | false => exact walk.throw
    | true =>
      apply walk.ask
      intro res
      cases res with
      | none => exact walk.throw
      | some buf =>
        dsimp only
        split
        · exact walk.throw
        · have result : Clean (str "F" ++ encodeInt 4 (Int32.ofNat buf.length).toBitVec) :=
            .append (by decide) (clean_encodeInt _ _)
          exact walk.respond (.append (.append result (by decide)) (clean_escape _))

private theorem process_vFile_of_traverses (packet : Bytes) : property (process_vFile packet) := by
  rw [process_vFile]
  repeat' split
  · exact walk.respond (by decide)
  · exact walk.ask fun _ => respondResult_of_traverses walk _
  · exact walk.ask fun _ => respondResult_of_traverses walk _
  · exact vFilePread_of_traverses walk _ _ _
  · exact walk.respond (by decide)

/-- All handlers but those that change the protocol or cut slices are built of these parts. -/
theorem processPacket_of_traverses {packet : Bytes} (after : UInt8)
    (ordinary : route packet ∉ [.process_QStartNoAckMode, .process_qXfer, .processAck, .stop,
      .process_H, .process_qfThreadInfo]) :
    property (processPacket packet after) := by
  rw [processPacket]
  cases routed : route packet with
  | process_qAttached =>
    apply walk.ask
    intro attached
    apply walk.respond
    cases attached <;> decide
  | process_qSupported => exact walk.respond (by decide)
  | processStatus => exact processStatus_of_traverses walk
  | process_g | process_p => exact walk.get fun _ => walk.ask fun _ =>
      respondData_of_traverses walk (clean_encode _)
  | process_G => exact walk.get fun _ => walk.ask fun _ => walk.respond (by decide)
  | process_qC => exact walk.get fun _ => walk.ask fun _ =>
      walk.respond (.append (by decide) (clean_encodeInt _ _))
  | process_m => exact process_m_of_traverses walk packet
  | process_M => exact process_M_of_traverses walk packet
  | process_z | process_Z => exact processBreakpoint_of_traverses walk _ _ packet
  | process_vCont => exact process_vCont_of_traverses walk packet
  | process_vFile => exact process_vFile_of_traverses walk packet
  | process_c => exact respondStopped_of_traverses walk _
  | process_qProcessInfo | processUnsupported => exact walk.respond .nil
  | _ => simp [routed] at ordinary

end Handlers

private theorem sends_process_H (packet : Bytes) : Sends Clean (process_H packet) := by
  rw [process_H]
  split
  · exact fun _ => ⟨⟨_, by decide, rfl⟩, rfl⟩
  · exact traverses_sends.respond (by decide)

private theorem sends_process_qfThreadInfo : Sends Clean process_qfThreadInfo := by
  apply traverses_sends.ask
  intro numThreads protocol
  change Program.Always _
    ((if protocol.mLastThreadInfoIndex < numThreads then _ else _ : Handler) protocol)
  split
  · exact fun _ => ⟨⟨_, .append (by decide) (clean_encodeInt _ _), rfl⟩, rfl⟩
  · exact ⟨⟨_, by decide, rfl⟩, rfl⟩

theorem clean_xferSlice (size : ℕ) (text : Bytes) (offset length : UInt64) :
    Clean (xferSlice size text offset length) ↔
      (offset.toNat < size → Clean (substr text offset length)) := by
  have more : str "m" = [0x6d] := by decide
  have last : str "l" = [0x6c] := by decide
  rw [xferSlice, more, last]
  split
  · rename_i past
    exact ⟨fun _ inside => absurd inside (by omega), fun _ => .nil⟩
  · rename_i inside
    rw [imp_iff_right (by omega)]
    split
    · exact Clean.cons_iff (by decide) (by decide) _
    · exact Clean.cons_iff (by decide) (by decide) _

section Replies

variable {σ : Type} {environment : Environment Request.Answer σ} {state : σ}
  {protocol : GDBServerProtocol}

/-- Nothing depends on the answers for the packets of all other routes. -/
theorem sends_processPacket {packet : Bytes} (after : UInt8)
    (ordinary : route packet ∉
      [.process_QStartNoAckMode, .process_qXfer, .processAck, .stop]) :
    Sends Clean (processPacket packet after) := by
  by_cases changing : route packet = .process_H ∨ route packet = .process_qfThreadInfo
  · rw [processPacket]
    rcases changing with routed | routed
    · simp only [routed]
      exact sends_process_H packet
    · simp only [routed]
      exact sends_process_qfThreadInfo
  · apply processPacket_of_traverses traverses_sends
    simp only [List.mem_cons, List.not_mem_nil, or_false, not_or] at ordinary changing ⊢
    simp only [ordinary, changing, not_false_eq_true, and_self]

end Replies

/-- A debugger that has an XML text, an auxiliary vector and an executable path, but nothing to
show of the program. -/
def objectsDebugger (xml auxv path : Buffer) : Environment Request.Answer Unit :=
  fun _ request => (match request with
    | .getGDBTargetXML => xml
    | .getAuxvData => auxv
    | .getExecutablePath => path
    | .getRegistersData _ | .readRegister _ _ | .readMemory _ _ => default
    | .isAttached | .allocate _ => true
    | .getNumThreads | .getThreadIDAtIndex _ => 0
    | .getStopReason _ => {}
    | .llopen .. | .llclose _ => -1
    | .llread .. => none
    | .writeRegistersData .. | .createSoftwareBreakpoint _ | .removeSoftwareBreakpoint _
    | .resume .. | .stepInstruction .. | .writeMemory .. => (), ())

end DpcppTrace.Soundness
