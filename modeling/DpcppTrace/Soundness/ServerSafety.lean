import DpcppTrace.Model.DebugServer
import DpcppTrace.Soundness.FileRead

/-! # What a client can do to the server

A read may hold any bytes. What they make the server ask is bounded by the packet that they are taken
for, so a session changes of the debugged program only what its packets are for, and no packet writes
memory. Only one packet can end the server before its time, a read from a file that is not served.
-/

namespace DpcppTrace.Soundness

open Foundation Model Pattern

/-! ## What a packet is for -/

/-- The requests that the handler of the packet may make. -/
def mayAsk : Route → Request → Bool
  | .process_qAttached, .isAttached => true
  | .processStatus, .getStopReason _ => true
  | .process_g, .getRegistersData _ => true
  | .process_G, .writeRegistersData .. => true
  | .process_qfThreadInfo, .getNumThreads | .process_qfThreadInfo, .getThreadIDAtIndex _ => true
  | .process_qC, .getThreadIDAtIndex _ => true
  | .process_m, .readMemory .. => true
  | .process_qXfer, .getGDBTargetXML | .process_qXfer, .getAuxvData
  | .process_qXfer, .getExecutablePath => true
  | .process_z, .removeSoftwareBreakpoint _ => true
  | .process_Z, .createSoftwareBreakpoint _ => true
  | .process_vCont, .resume .. | .process_vCont, .stepInstruction .. => true
  | .process_vCont, .getStopReason _ => true
  | .process_vFile, .llopen .. | .process_vFile, .llclose _ | .process_vFile, .allocate _
  | .process_vFile, .llread .. => true
  | .process_c, .resume .. | .process_c, .getStopReason _ => true
  | .process_p, .readRegister .. => true
  | _, _ => false

/-- The packet is a read from a file. -/
def NamesPread (packet fdHex countHex offsetHex : Bytes) : Prop :=
  Numeral lowerHex fdHex ∧ Numeral lowerHex countHex ∧ Numeral lowerHex offsetHex ∧
    ∃ lead trail high low, anyHex high = true ∧ anyHex low = true ∧
      packet = packetOf lead trail (preadBody fdHex countHex offsetHex) high low

/-- Of all handlers only that of a read from a file breaks off. -/
def KeepsTo (packet : Bytes) (handler : Handler) : Prop :=
  ∀ protocol, (handler protocol).Asks (fun request => mayAsk (route packet) request = true)
    (∃ fdHex countHex offsetHex, NamesPread packet fdHex countHex offsetHex)

/-! ## The handlers -/

section Handlers

variable {packet : Bytes}

private theorem confined_respond (response : Bytes) : KeepsTo packet (respond response) := fun _ => trivial

private theorem confined_ask {request : Request} {rest : request.Answer → Handler}
    (allowed : mayAsk (route packet) request = true)
    (then_ : ∀ answer, KeepsTo packet (rest answer)) : KeepsTo packet (ask request >>= rest) :=
  fun protocol => ⟨allowed, fun answer => then_ answer protocol⟩

private theorem confined_get {rest : GDBServerProtocol → Handler}
    (then_ : ∀ protocol, KeepsTo packet (rest protocol)) : KeepsTo packet (get >>= rest) :=
  fun protocol => then_ protocol protocol

private theorem confined_respondData (data : Bytes) (text : Bytes → Bytes) :
    KeepsTo packet (respondData data text) := by
  rw [respondData]
  split
  · exact confined_respond _
  · exact confined_respond _

private theorem confined_respondResult (res : Int32) : KeepsTo packet (respondResult res) := by
  rw [respondResult]
  split
  · exact confined_respond _
  · exact confined_respond _

private theorem confined_processStatus
    (allowed : ∀ thread, mayAsk (route packet) (.getStopReason thread) = true) : KeepsTo packet processStatus :=
  confined_get fun _ => confined_ask (allowed _) fun _ => confined_respond _

private theorem confined_respondStopped {action : Request} (resumes : mayAsk (route packet) action = true)
    (allowed : ∀ thread, mayAsk (route packet) (.getStopReason thread) = true) :
    KeepsTo packet (respondStopped action) :=
  confined_ask resumes fun _ => confined_processStatus allowed

private theorem confined_processBreakpoint (command : String) {action : UInt64 → Request}
    (allowed : ∀ addr, mayAsk (route packet) (action addr) = true) :
    KeepsTo packet (processBreakpoint command action packet) := by
  rw [processBreakpoint]
  split
  · exact confined_ask (allowed _) fun _ => confined_respond _
  · exact confined_respond _

private theorem confined_process_m (routed : route packet = .process_m) :
    KeepsTo packet (process_m packet) := by
  rw [process_m]
  obtain ⟨start, length⟩ := memoryRange packet
  dsimp only
  split
  · exact confined_respond _
  · apply confined_ask
    · rw [routed]
      rfl
    · exact fun data => confined_respondData _ _

private theorem confined_process_qfThreadInfo (routed : route packet = .process_qfThreadInfo) :
    KeepsTo packet process_qfThreadInfo := by
  apply confined_ask
  · rw [routed]
    rfl
  · intro numThreads protocol
    change Program.Asks _ _ ((if protocol.mLastThreadInfoIndex < numThreads then _ else _ : Handler) protocol)
    split
    · refine ⟨?_, fun _ => trivial⟩
      rw [routed]
      rfl
    · trivial

private theorem confined_process_qXfer (routed : route packet = .process_qXfer) :
    KeepsTo packet (process_qXfer packet) := by
  rw [process_qXfer]
  split
  all_goals first
    | exact confined_respond _
    | exact confined_ask (by rw [routed]; rfl) fun _ => confined_respond _

private theorem confined_process_vCont (routed : route packet = .process_vCont) :
    KeepsTo packet (process_vCont packet) := by
  have status : ∀ thread, mayAsk (route packet) (.getStopReason thread) = true := by
    rw [routed]
    exact fun _ => rfl
  rw [process_vCont]
  repeat' split
  all_goals first
    | exact confined_respond _
    | exact confined_respondStopped (by rw [routed]; rfl) status

/-- What the handler matches against the pattern of a read is one. -/
theorem namesPread_of_fullMatch (routed : route packet = .process_vFile) {fdHex countHex offsetHex : Bytes}
    (matched : (packetPattern (text "vFile:pread:" ++ (number ++ (text "," ++ (number ++
      (text "," ++ number)))))).fullMatch packet = some [fdHex, countHex, offsetHex]) :
    NamesPread packet fdHex countHex offsetHex := by
  have comma : str "," = [0x2c] := by decide
  obtain ⟨lead, trail, high, low, highDigit, lowDigit, framed, -⟩ := body_of_route routed (by decide)
  rw [framed, fullMatch_packetOf highDigit lowDigit] at matched
  obtain ⟨rest, body, fits⟩ := matches_text_append.mp (matches_of_fullMatch matched)
  obtain ⟨fd, left, _, split, fdNumeral, inner, captures⟩ := matches_number_append.mp fits
  obtain ⟨numbers, behind, last⟩ := matches_text_append.mp inner
  obtain ⟨count, offset, between, countNumeral, offsetNumeral, rfl⟩ := matches_numbers.mp last
  obtain ⟨rfl, rfl, rfl⟩ : fdHex = fd ∧ countHex = count ∧ offsetHex = offset := by simpa using captures
  refine ⟨fdNumeral, countNumeral, offsetNumeral, lead, trail, high, low, highDigit, lowDigit, ?_⟩
  have written : bodyOf packet = preadBody fdHex countHex offsetHex := by
    rw [body, split, behind, between, comma]
    rfl
  rw [← written]
  exact framed

/-- The handler of a read breaks off only for a packet that says so. -/
theorem confined_vFilePread (routed : route packet = .process_vFile) {fdHex countHex offsetHex : Bytes}
    (names : NamesPread packet fdHex countHex offsetHex) :
    KeepsTo packet (vFilePread fdHex countHex offsetHex) := by
  have broken : KeepsTo packet throwException := fun _ => ⟨fdHex, countHex, offsetHex, names⟩
  rw [vFilePread]
  split
  · exact broken
  · apply confined_ask
    · rw [routed]
      rfl
    · intro allocated
      cases allocated with
      | false => exact broken
      | true =>
        apply confined_ask
        · rw [routed]
          rfl
        · intro result
          cases result with
          | none => exact broken
          | some buf =>
            dsimp only
            split
            · exact broken
            · exact confined_respond _

private theorem confined_process_vFile (routed : route packet = .process_vFile) :
    KeepsTo packet (process_vFile packet) := by
  rw [process_vFile]
  split
  · exact confined_respond _
  · split
    · exact confined_ask (by rw [routed]; rfl) fun _ => confined_respondResult _
    · split
      · exact confined_ask (by rw [routed]; rfl) fun _ => confined_respondResult _
      · split
        · rename_i matched
          exact confined_vFilePread routed (namesPread_of_fullMatch routed matched)
        · exact confined_respond _

/-- Every handler keeps to what its packet is for. -/
theorem confined_processPacket (after : UInt8) : KeepsTo packet (processPacket packet after) := by
  rw [processPacket]
  cases routed : route packet with
  | process_qAttached => exact confined_ask (by rw [routed]; rfl) fun _ => confined_respond _
  | process_qSupported | process_qProcessInfo | processUnsupported => exact confined_respond _
  | process_QStartNoAckMode | processAck | stop => exact fun _ => trivial
  | processStatus => exact confined_processStatus fun _ => by rw [routed]; rfl
  | process_g | process_p =>
    exact confined_get fun _ => confined_ask (by rw [routed]; rfl) fun _ => confined_respondData _ _
  | process_G => exact confined_get fun _ => confined_ask (by rw [routed]; rfl) fun _ => confined_respond _
  | process_H =>
    change KeepsTo packet (process_H packet)
    rw [process_H]
    split
    · exact fun _ => trivial
    · exact confined_respond _
  | process_qfThreadInfo => exact confined_process_qfThreadInfo routed
  | process_qC => exact confined_get fun _ => confined_ask (by rw [routed]; rfl) fun _ => confined_respond _
  | process_m => exact confined_process_m routed
  | process_M =>
    change KeepsTo packet (process_M packet)
    rw [process_M, writeCaptures_of_route routed]
    exact confined_respond _
  | process_qXfer => exact confined_process_qXfer routed
  | process_z | process_Z => exact confined_processBreakpoint _ fun _ => by rw [routed]; rfl
  | process_vCont => exact confined_process_vCont routed
  | process_vFile => exact confined_process_vFile routed
  | process_c => exact confined_respondStopped (by rw [routed]; rfl) fun _ => by rw [routed]; rfl

end Handlers

/-! ## Sessions -/

section Runs

variable {σ : Type} {environment : Environment Request.Answer σ}

/-- Whatever is read, everything asked is what one of the packets is for, and what all such requests keep
of the debugger the session keeps. -/
theorem session_confined {holds : σ → Prop} (reads : List Bytes)
    (kept : ∀ packet ∈ reads, ∀ state request, mayAsk (route packet) request = true → holds state →
      holds (environment state request).2)
    (buf : Memory) (protocol : GDBServerProtocol) (state : σ) (start : holds state) :
    let session := DebugServer.run environment reads buf protocol state
    holds session.environment ∧
      ∀ request ∈ session.calls, ∃ packet ∈ reads, mayAsk (route packet) request = true := by
  induction reads generalizing buf protocol state with
  | nil => exact ⟨start, fun request mem => absurd mem List.not_mem_nil⟩
  | cons packet reads ih =>
    have confined : KeepsTo packet (processPacket packet (buf.write 0 packet packet.length)) :=
      confined_processPacket _
    have asks := confined protocol
    have final := asks.final (kept packet List.mem_cons_self) start
    have calls : ∀ request ∈ ((processPacket packet (buf.write 0 packet packet.length) protocol).run
        environment state).calls, ∃ other ∈ packet :: reads, mayAsk (route other) request = true :=
      fun request mem => ⟨packet, List.mem_cons_self, asks.calls environment state request mem⟩
    rw [DebugServer.run]
    dsimp only
    split
    · exact ⟨final, calls⟩
    · rename_i response next value
      split
      · obtain ⟨held, later⟩ := ih (fun other mem => kept other (List.mem_cons_of_mem _ mem))
          (buf.write 0 packet) next _ final
        refine ⟨held, fun request mem => ?_⟩
        rcases List.mem_append.mp mem with here | rest
        · exact calls request here
        · obtain ⟨other, mem, allowed⟩ := later request rest
          exact ⟨other, List.mem_cons_of_mem _ mem, allowed⟩
      · exact ⟨final, calls⟩

end Runs

/-- The requests that let the debugged program go on or change something in it. -/
def changes : Request → Bool
  | .writeRegistersData .. | .writeMemory .. | .createSoftwareBreakpoint _
  | .removeSoftwareBreakpoint _ | .resume .. | .stepInstruction .. => true
  | _ => false

/-- A debugger that counts the changes. -/
def countingDebugger : Environment Request.Answer ℕ := fun count request =>
  ((objectsDebugger default default default () request).1, if changes request then count + 1 else count)

/-- Registers and memory are looked at, a write and bytes without sense are passed over. -/
def lookingReads : List Bytes := [str "$g#67", str "$M10,1:ab#00", str "+$m10,4#00", str "$G", [0, 0xff]]

private theorem route_looking {packet : Bytes} (mem : packet ∈ lookingReads) :
    route packet = .process_g ∨ route packet = .process_M ∨ route packet = .process_m ∨
      route packet = .processUnsupported := by
  have registers : route (str "$g#67") = .process_g := by decide
  have write : route (str "$M10,1:ab#00") = .process_M := by decide
  have memory : route (str "+$m10,4#00") = .process_m := by decide
  have unframed : route (str "$G") = .processUnsupported := by decide
  have senseless : route [0, 0xff] = .processUnsupported := by decide
  simp only [lookingReads, List.mem_cons, List.not_mem_nil, or_false] at mem
  rcases mem with rfl | rfl | rfl | rfl | rfl
  · exact .inl registers
  · exact .inr (.inl write)
  · exact .inr (.inr (.inl memory))
  · exact .inr (.inr (.inr unframed))
  · exact .inr (.inr (.inr senseless))

private theorem changes_looking {kind : Route} (looks : kind = .process_g ∨ kind = .process_M ∨
    kind = .process_m ∨ kind = .processUnsupported) {request : Request}
    (allowed : mayAsk kind request = true) : changes request = false := by
  rcases looks with rfl | rfl | rfl | rfl
  all_goals
    cases request <;> first
      | rfl
      | cases allowed

/-- Nothing is changed by looking. -/
theorem session_confined_looking :
    (DebugServer.run countingDebugger lookingReads (fun _ => 0) {} 0).environment = 0 ∧
      ∀ request ∈ (DebugServer.run countingDebugger lookingReads (fun _ => 0) {} 0).calls,
        ∃ packet ∈ lookingReads, mayAsk (route packet) request = true := by
  have kept : ∀ packet ∈ lookingReads, ∀ count request, mayAsk (route packet) request = true →
      count = 0 → (countingDebugger count request).2 = 0 := by
    rintro packet mem count request allowed rfl
    change (if changes request = true then 0 + 1 else 0) = 0
    rw [changes_looking (route_looking mem) allowed]
    rfl
  exact session_confined lookingReads kept (fun _ => 0) {} 0 rfl

/-! ## How a session ends before its time -/

section Breaks

variable {σ : Type} {environment : FallibleEnvironment Request.Answer σ}

/-- A packet with the byte behind it in the buffer, and the states of the protocol and the debugger when
it is handled. -/
structure PacketTurn (σ : Type) where
  packet : Bytes
  after : UInt8
  protocol : GDBServerProtocol
  state : σ

/-- What handles it. -/
def PacketTurn.handler (turn : PacketTurn σ) : Program Request.Answer (Bytes × GDBServerProtocol) :=
  processPacket turn.packet turn.after turn.protocol

end Breaks

end DpcppTrace.Soundness
