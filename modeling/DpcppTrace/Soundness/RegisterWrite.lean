import DpcppTrace.Soundness.Acknowledgement

/-! # Writing registers back

The reply to `g` shows the registers in hexadecimal digits, and `G` brings such digits back. The
decoder undoes the encoder, but the handler hands it the whole packet behind its first character:
the letter, the trailer, and the acknowledgements around them. It decodes two bytes or three more
than it was sent, whatever the registers are.
-/

namespace DpcppTrace.Soundness

open Foundation Model Pattern

/-! ## Decoding -/

private theorem decodePair_hexPair (v : UInt8) :
    decodePair (hexCharacter (v.toNat / 16)) (hexCharacter (v.toNat % 16)) = v := by
  have all : ∀ n < 256, decodePair (hexCharacter (n / 16)) (hexCharacter (n % 16)) =
      UInt8.ofNat n := by
    decide +kernel
  have here := all v.toNat v.toNat_lt
  rwa [UInt8.ofNat_toNat] at here

/-- The decoder undoes the encoder. -/
theorem decode_encode (after : UInt8) (data : Bytes) : decode after (encode data) = data := by
  induction data with
  | nil => rfl
  | cons v rest ih =>
    rw [encode] at ih
    rw [encode, List.flatMap_cons, hexPair_eq, List.cons_append, List.cons_append,
      List.nil_append, decode, decodePair_hexPair, ih]

private theorem decode_length (after : UInt8) (data : Bytes) :
    (decode after data).length = (data.length + 1) / 2 := by
  induction data using decode.induct with
  | case1 => rfl
  | case2 high => simp [decode]
  | case3 high low rest ih =>
    rw [decode, List.length_cons, ih, List.length_cons, List.length_cons]
    omega

/-! ## The packet -/

/-- The body of the packet that writes these registers. -/
def registerBody (registers : Bytes) : Bytes := 0x47 :: encode registers

private theorem bodyRoute_registerBody {registers : Bytes} (nonempty : registers ≠ []) :
    bodyRoute (registerBody registers) = .process_G := by
  have some_digits : encode registers ≠ [] := by
    rw [← List.length_pos_iff, encode_length]
    have := List.length_pos_iff.mpr nonempty
    omega
  have skipped : dispatchTable.find?
      (fun entry => (entry.1.fullMatch (registerBody registers)).isSome) =
        (dispatchTable.drop 5).find?
          (fun entry => (entry.1.fullMatch (registerBody registers)).isSome) := by
    rfl
  have digits : goMany lowerHex (encode registers) atEnd = some [] := by
    have whole : goMany lowerHex (encode registers ++ []) atEnd = atEnd [] :=
      goMany_run (fun c => mem_encode) some_digits nofun fun c left _ => rfl
    rwa [List.append_nil] at whole
  have letter : text "G" = one (· == 0x47) ++ nothing := rfl
  have fits : ((text "G" ++ many lowerHex).fullMatch (registerBody registers)).isSome = true := by
    rw [fullMatch, go_append, letter, registerBody]
    simp [go, digits]
  rw [bodyRoute, skipped]
  simp only [dispatchTable, List.drop_succ_cons, List.drop_zero, List.find?_cons, fits]

/-- More bytes are decoded from the packet than it carries. -/
theorem length_decode_packetOf (lead trail : Bool) (registers : Bytes) (high low after : UInt8) :
    registers.length <
      (decode after ((packetOf lead trail (registerBody registers) high low).drop 1)).length := by
  rw [decode_length, List.length_drop, packetOf, registerBody]
  cases lead <;> cases trail <;> simp [encode_length] <;> omega

/-! ## What is written -/

section Runs

variable {σ : Type}

/-- The packet makes the protocol pass exactly these bytes for the selected thread. -/
def WritesRegisters (environment : Environment Request.Answer σ) (state : σ)
    (protocol : GDBServerProtocol) (after : UInt8) (packet registers : Bytes) : Prop :=
  ((processPacket packet after protocol).run environment state).calls =
    [.writeRegistersData registers protocol.mCurrentThreadIndex]

variable {environment : Environment Request.Answer σ} {state : σ} {protocol : GDBServerProtocol}
  {high low : UInt8}

private theorem calls_process_G {packet : Bytes} (routed : route packet = .process_G) (after : UInt8) :
    ((processPacket packet after protocol).run environment state).calls =
      [.writeRegistersData (decode after (packet.drop 1)) protocol.mCurrentThreadIndex] :=
  handled_process_G routed fun _ => after

private theorem not_writesRegisters (highDigit : anyHex high = true) (lowDigit : anyHex low = true)
    {registers : Bytes} (nonempty : registers ≠ []) (lead trail : Bool) (after : UInt8) :
    ¬WritesRegisters environment state protocol after
      (packetOf lead trail (registerBody registers) high low) registers := by
  have routed : route (packetOf lead trail (registerBody registers) high low) = .process_G := by
    rw [route_packetOf highDigit lowDigit, bodyRoute_registerBody nonempty]
  rw [WritesRegisters, calls_process_G routed]
  intro same
  have written := (Request.writeRegistersData.inj (List.cons.inj same).1).1
  have longer := length_decode_packetOf lead trail registers high low after
  rw [written] at longer
  exact lt_irrefl _ longer

/-- The registers that `g` asks for in this state. -/
def readRegisters (environment : Environment Request.Answer σ) (state : σ)
    (protocol : GDBServerProtocol) : Buffer :=
  (environment state (.getRegistersData protocol.mCurrentThreadIndex)).1

/-- The payload of the reply to `g` is the encoded register image. -/
theorem receive_process_g {request : Bytes} (asked : route request = .process_g)
    {before : UInt8} {reply payload : Bytes} {next : GDBServerProtocol}
    (readable : (readRegisters environment state protocol).data ≠ [])
    (replied : ((processPacket request before protocol).run environment state).value =
      some (reply, next))
    (received : receive reply = some payload) :
    payload = encode (readRegisters environment state protocol).data := by
  rw [processPacket, asked] at replied
  change ((respondData (readRegisters environment state protocol).data encode protocol).run
    environment _).value = some (reply, next) at replied
  rw [respondData, if_neg readable] at replied
  have sent := (Prod.mk.inj (Option.some.inj replied)).1
  rw [← sent, receive_createResponse (clean_encode _)] at received
  exact (Option.some.inj received).symm

/-- No packet with a register image makes the protocol pass that image, and sending the payload of
a reply to `g` back does not restore the registers. -/
theorem registers_not_restored (environment : Environment Request.Answer σ)
    (highDigit : anyHex high = true) (lowDigit : anyHex low = true) (lead trail : Bool)
    (after : UInt8) :
    (∀ (state : σ) (protocol : GDBServerProtocol) (registers : Bytes), registers ≠ [] →
      ¬WritesRegisters environment state protocol after
        (packetOf lead trail (registerBody registers) high low) registers) ∧
    ∀ (state : σ) (protocol next : GDBServerProtocol) (request reply payload : Bytes)
      (before : UInt8), route request = .process_g →
      (readRegisters environment state protocol).data ≠ [] →
      ((processPacket request before protocol).run environment state).value = some (reply, next) →
      receive reply = some payload →
      ¬WritesRegisters environment
        ((processPacket request before protocol).run environment state).final next after
        (packetOf lead trail (0x47 :: payload) high low)
        (readRegisters environment state protocol).data := by
  constructor
  · intro state protocol registers nonempty
    exact not_writesRegisters highDigit lowDigit nonempty lead trail after
  · intro state protocol next request reply payload before asked readable replied received
    rw [receive_process_g asked readable replied received]
    exact not_writesRegisters highDigit lowDigit readable lead trail after

end Runs

/-- A debugger that shows these registers and nothing else. -/
def registersDebugger (registers : Buffer) : Environment Request.Answer Unit :=
  fun state request => match request with
    | .getRegistersData _ => (registers, ())
    | other => objectsDebugger default default default state other

/-- The registers `0x12 0x34`, read with `$g#67` and written back with `$G1234#11`. -/
theorem registers_not_restored_two :
    ¬WritesRegisters (registersDebugger (.short [0x12, 0x34] (by decide))) () {} 0 (str "$G1234#11")
      [0x12, 0x34] := by
  have written := (registers_not_restored (registersDebugger (.short [0x12, 0x34] (by decide)))
    (by decide : anyHex 0x31 = true) (by decide : anyHex 0x31 = true) false false 0).2 () {} {}
    (str "$g#67") (createResponse (str "1234") true) (str "1234") 0 (by decide) (by decide)
    (by decide) (by decide)
  have packet : packetOf false false (0x47 :: str "1234") 0x31 0x31 = str "$G1234#11" := by decide
  rwa [packet] at written

/-- Four bytes are passed for an image of two. -/
theorem not_registers_restored :
    ¬∀ (environment : Environment Request.Answer Unit) (protocol : GDBServerProtocol)
      (registers : Bytes), registers ≠ [] →
        WritesRegisters environment () protocol 0
          (packetOf false false (registerBody registers) 0x31 0x31) registers := by
  intro always
  have written := always (objectsDebugger default default default) {} [0x12, 0x34] (by decide)
  rw [WritesRegisters] at written
  exact absurd written (by decide)

end DpcppTrace.Soundness
