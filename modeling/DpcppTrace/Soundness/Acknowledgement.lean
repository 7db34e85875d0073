import DpcppTrace.Soundness.ReplyFrame

/-! # Acknowledgements around a packet

The dispatcher and most handlers see only the body of a packet. Three handlers look at the packet
itself: the register write decodes it from its second character on, the thread packet leaves no
place for an acknowledgement behind it, and the memory read looks for `$x` at the very front.
-/

namespace DpcppTrace.Soundness

open Foundation Model Pattern

variable {high low : UInt8}

/-! ## Handlers that see the body only -/

private theorem memoryRange_packetOf (highDigit : anyHex high = true) (lowDigit : anyHex low = true)
    (lead trail : Bool) (body : Bytes) :
    memoryRange (packetOf lead trail body high low) =
      memoryRange (packetOf false false body high low) := by
  simp only [memoryRange, memoryPattern, fullMatch_packetOf highDigit lowDigit]

private theorem writeCaptures_packetOf (highDigit : anyHex high = true) (lowDigit : anyHex low = true)
    (lead trail : Bool) (body : Bytes) :
    writeCaptures (packetOf lead trail body high low) =
      writeCaptures (packetOf false false body high low) := by
  simp only [writeCaptures, writePattern, fullMatch_packetOf highDigit lowDigit]

private theorem registerNumber_packetOf (highDigit : anyHex high = true) (lowDigit : anyHex low = true)
    (lead trail : Bool) (body : Bytes) :
    registerNumber (packetOf lead trail body high low) =
      registerNumber (packetOf false false body high low) := by
  simp only [registerNumber, fullMatch_packetOf highDigit lowDigit]

/-- All other packets are handled alike, whatever is around them. -/
theorem processPacket_packetOf (highDigit : anyHex high = true) (lowDigit : anyHex low = true)
    {body : Bytes} (plain : bodyRoute body ∉ [.process_G, .process_H, .process_m])
    (lead trail : Bool) (after other : UInt8) :
    processPacket (packetOf lead trail body high low) after =
      processPacket (packetOf false false body high low) other := by
  rw [processPacket, processPacket, route_packetOf highDigit lowDigit,
    route_packetOf highDigit lowDigit]
  cases routed : bodyRoute body with
  | process_G | process_H | process_m => simp [routed] at plain
  | process_M =>
    change process_M _ = process_M _
    rw [process_M, process_M, writeCaptures_packetOf highDigit lowDigit]
  | process_qXfer =>
    simp only [process_qXfer, qXferRead, XferObject.pattern,
      fullMatch_packetOf highDigit lowDigit]
  | process_z | process_Z =>
    simp only [process_z, process_Z, processBreakpoint, breakpointPattern,
      fullMatch_packetOf highDigit lowDigit]
  | process_vCont =>
    simp only [process_vCont, signalPattern, fullMatch_packetOf highDigit lowDigit]
  | process_vFile => simp only [process_vFile, fullMatch_packetOf highDigit lowDigit]
  | process_p =>
    change process_p _ = process_p _
    rw [process_p, process_p, registerNumber_packetOf highDigit lowDigit]
  | _ => rfl

/-! ## The register write -/

/-- A packet of this route has a digit behind the letter. -/
theorem body_of_process_G {body : Bytes} (routed : bodyRoute body = .process_G) :
    ∃ digit rest, body = 0x47 :: digit :: rest ∧ lowerHex digit = true := by
  obtain ⟨pattern, captures, member, fits⟩ := bodyRoute_mem routed (by decide)
  obtain rfl : pattern = text "G" ++ many lowerHex := by simpa [dispatchTable] using member
  obtain ⟨digits, rfl, ⟨nonempty, hex⟩, -⟩ := matches_text_append.mp fits
  obtain ⟨digit, rest, rfl⟩ := List.exists_cons_of_ne_nil nonempty
  have letter : str "G" = [0x47] := by decide
  exact ⟨digit, rest, by rw [letter, List.singleton_append], hex digit (List.mem_cons_self ..)⟩

/-- The first decoded byte tells the letter in front of a digit from the mark in front of the
letter. -/
theorem decode_packet_ne {digit : UInt8} (isDigit : lowerHex digit = true) (after other : UInt8)
    (rest more : Bytes) :
    decode after (0x24 :: 0x47 :: rest) ≠ decode other (0x47 :: digit :: more) := by
  have heads : ∀ n < 256, lowerHex (UInt8.ofNat n) = true →
      decodePair 0x24 0x47 ≠ decodePair 0x47 (UInt8.ofNat n) := by
    decide +kernel
  have differs := heads digit.toNat digit.toNat_lt
  rw [UInt8.ofNat_toNat] at differs
  exact fun same => differs isDigit (List.cons.inj same).1

/-! ## The thread packet -/

private theorem packetEnd_some {rest : Bytes} {captures : List Bytes}
    (matched : packetEnd.go rest atEnd = some captures) :
    ∃ high low, rest = [0x23, high, low] ∧ anyHex high = true ∧ anyHex low = true := by
  match rest with
  | [] => cases matched
  | [a] | [a, b] => simp [packetEnd, text_hash, go] at matched
  | a :: b :: c :: rest =>
    simp only [packetEnd, text_hash, go, go_append] at matched
    split at matched
    · rename_i hash
      split at matched
      · rename_i highDigit
        split at matched
        · rename_i lowDigit
          cases rest with
          | nil => exact ⟨b, c, by rw [beq_iff_eq.mp hash], highDigit, lowDigit⟩
          | cons d rest => cases matched
        · cases matched
      · cases matched
    · cases matched

/-- Without an acknowledgement behind it, a thread packet is read like any other packet. -/
theorem threadPattern_front (highDigit : anyHex high = true) (lowDigit : anyHex low = true)
    (lead : Bool) (body : Bytes) :
    threadPattern.fullMatch (packetOf lead false body high low) = threadBody.fullMatch body := by
  have step : threadPattern.fullMatch (packetOf lead false body high low) =
      threadBody.go (body ++ [0x23, high, low]) fun rest => packetEnd.go rest atEnd := by
    rw [fullMatch, threadPattern, go_append, packetOf, packetStart_go]
    rfl
  have accepted : packetEnd.go [0x23, high, low] atEnd = some [] := by
    simp [packetEnd, text_hash, go, atEnd, highDigit, lowDigit]
  have refuses {rest : Bytes} (width : rest.length ≠ 3) : packetEnd.go rest atEnd = none := by
    by_contra matched
    obtain ⟨captures, matched⟩ := Option.ne_none_iff_exists'.mp matched
    obtain ⟨_, _, rfl, -⟩ := packetEnd_some matched
    exact width rfl
  rw [step]
  apply go_eq_fullMatch threadBody accepted
  · intro c rest
    exact refuses (by simp)
  · intro rest _ shorter
    exact refuses (Nat.ne_of_lt shorter)

/-- With an acknowledgement behind it, no thread packet is recognised. -/
theorem threadPattern_back (lead : Bool) (body : Bytes) :
    threadPattern.fullMatch (packetOf lead true body high low) = none := by
  have step : threadPattern.fullMatch (packetOf lead true body high low) =
      threadBody.go (body ++ [0x23, high, low, 0x2b]) fun rest => packetEnd.go rest atEnd := by
    rw [fullMatch, threadPattern, go_append, packetOf, packetStart_go]
    rfl
  rw [step]
  apply go_eq_none
  intro rest suffix
  by_contra matched
  obtain ⟨captures, matched⟩ := Option.ne_none_iff_exists'.mp matched
  obtain ⟨_, last, rfl, -, lastDigit⟩ := packetEnd_some matched
  obtain ⟨front, same⟩ := suffix
  have ends := congrArg List.getLast? same
  simp only [List.getLast?_append] at ends
  exact (plain_of_anyHex lastDigit).2 (by simpa using ends)

/-! ## The memory read -/

private theorem escape_length_le (data : Bytes) : (escape data).length ≤ 2 * data.length := by
  induction data with
  | nil => exact le_rfl
  | cons c data ih =>
    rw [escape_cons, List.length_append, List.length_cons]
    split <;> simp only [List.length_cons, List.length_nil] <;> omega

theorem encode_length (data : Bytes) : (encode data).length = 2 * data.length := by
  induction data with
  | nil => rfl
  | cons c data ih =>
    have width : (encode (c :: data)).length = (encode data).length + 2 := by
      simp [encode, hexPair]
    rw [width, ih, List.length_cons]
    omega

/-- The two texts of memory contents differ unless there are none. -/
theorem escape_ne_encode {data : Bytes} (nonempty : data ≠ []) : escape data ≠ encode data := by
  obtain ⟨c, rest, rfl⟩ := List.exists_cons_of_ne_nil nonempty
  intro same
  rw [escape_cons] at same
  split at same
  · have mark : (0x7d : UInt8) ∈ encode (c :: rest) := by
      rw [← same]
      simp
    exact (plain_of_lowerHex (mem_encode mark)).2 rfl
  · have widths := congrArg List.length same
    have short := escape_length_le rest
    rw [encode_length, List.length_append, List.length_cons, List.length_cons] at widths
    simp only [List.length_nil] at widths
    omega

private theorem createResponse_injective (ack : Bool) : Function.Injective fun response =>
    createResponse response ack := by
  intro first second same
  simp only [createResponse_eq] at same
  have bodies := (List.cons.inj (List.append_cancel_left same)).2
  have widths := congrArg List.length bodies
  simp only [List.length_append, List.length_cons, sumDigits, List.length_nil] at widths
  exact List.append_inj_left bodies (by omega)

/-! ## All packets -/

section Runs

variable {σ : Type} {environment : Environment Request.Answer σ} {state : σ}
  {protocol : GDBServerProtocol}

/-- A handler that asks goes on with the answer, in the state the answer leaves. -/
theorem run_ask (request : Request) (rest : request.Answer → Handler) :
    ((ask request >>= rest) protocol).run environment state =
      let answer := environment state request
      let next := (rest answer.1 protocol).run environment answer.2
      { next with calls := request :: next.calls } := rfl

theorem run_respondData (data : Bytes) (text : Bytes → Bytes) :
    (respondData data text protocol).run environment state =
      ⟨[], state, some (createResponse (if data = [] then str "E01" else text data) protocol.mAck,
        protocol)⟩ := by
  rw [respondData]
  split <;> rfl

/-- The memory that a packet asks for, as the debugger answers. -/
def memoryAnswer (environment : Environment Request.Answer σ) (state : σ) (packet : Bytes) : Bytes :=
  Buffer.data (environment state (.readMemory (memoryRange packet).1 (memoryRange packet).2)).1

/-- The packet is handled alike with and without acknowledgements around it: it is no register
write, no thread packet whose thread is recognised, and no `x` packet for memory that the debugger
can read. -/
def AcknowledgementsIgnored (environment : Environment Request.Answer σ) (state : σ)
    (packet : Bytes) : Prop :=
  route packet ≠ .process_G ∧
  (route packet = .process_H → threadPattern.fullMatch packet = none) ∧
  (route packet = .process_m → (str "$x").isPrefixOf packet = true → (memoryRange packet).2 ≠ 0 →
    memoryAnswer environment state packet = [])

/-- What a packet makes the protocol do. -/
def handled (environment : Environment Request.Answer σ) (state : σ) (protocol : GDBServerProtocol)
    (after : Bytes → UInt8) (packet : Bytes) :
    Transcript Request σ (Bytes × GDBServerProtocol) :=
  (processPacket packet (after packet) protocol).run environment state

theorem handled_process_G {packet : Bytes} (routed : route packet = .process_G)
    (after : Bytes → UInt8) :
    (handled environment state protocol after packet).calls =
      [.writeRegistersData (decode (after packet) (packet.drop 1)) protocol.mCurrentThreadIndex] := by
  rw [handled, processPacket, routed]
  rfl

/-- A register write decodes other bytes behind an acknowledgement. -/
theorem handled_process_G_ne (highDigit : anyHex high = true) (lowDigit : anyHex low = true)
    {body : Bytes} (routed : bodyRoute body = .process_G) (after : Bytes → UInt8) :
    handled environment state protocol after (packetOf true false body high low) ≠
      handled environment state protocol after (packetOf false false body high low) := by
  obtain ⟨digit, rest, rfl, isDigit⟩ := body_of_process_G routed
  intro same
  have calls := congrArg Transcript.calls same
  rw [handled_process_G (by rw [route_packetOf highDigit lowDigit, routed]),
    handled_process_G (by rw [route_packetOf highDigit lowDigit, routed])] at calls
  have decoded := (Request.writeRegistersData.inj (List.cons.inj calls).1).1
  exact decode_packet_ne isDigit _ _ _ _ decoded

theorem handled_process_H {packet : Bytes} (routed : route packet = .process_H)
    (after : Bytes → UInt8) :
    ((handled environment state protocol after packet).value.map (·.1)) =
      some (createResponse
        (if (threadPattern.fullMatch packet).isSome then str "OK" else str "E01") protocol.mAck) := by
  rw [handled, processPacket, routed]
  change (((process_H packet protocol).run environment state).value.map (·.1)) = _
  rcases found : threadPattern.fullMatch packet with _ | captures
  · rw [process_H, found]
    rfl
  · have width : captures.length = 1 := fullMatch_length found
    obtain ⟨threadIdHex, rfl⟩ := List.length_eq_one_iff.mp width
    rw [process_H, found]
    rfl

/-- A thread packet is rejected in front of an acknowledgement. -/
theorem handled_process_H_ne (highDigit : anyHex high = true) (lowDigit : anyHex low = true)
    {body : Bytes} (routed : bodyRoute body = .process_H)
    (found : threadPattern.fullMatch (packetOf false false body high low) ≠ none)
    (after : Bytes → UInt8) :
    handled environment state protocol after (packetOf false true body high low) ≠
      handled environment state protocol after (packetOf false false body high low) := by
  intro same
  have replies := congrArg (fun transcript => transcript.value.map (·.1)) same
  simp only [handled_process_H (route_packetOf highDigit lowDigit _ _ body ▸ routed),
    threadPattern_back, Option.isSome_iff_ne_none.mpr found] at replies
  have responses := createResponse_injective _ (Option.some.inj replies)
  exact absurd responses (by decide)

private theorem memoryAnswer_packetOf (highDigit : anyHex high = true) (lowDigit : anyHex low = true)
    (lead trail : Bool) (body : Bytes) :
    memoryAnswer environment state (packetOf lead trail body high low) =
      memoryAnswer environment state (packetOf false false body high low) := by
  rw [memoryAnswer, memoryAnswer, memoryRange_packetOf highDigit lowDigit]

/-- The memory handler, on the range of the packet. -/
theorem process_m_eq (packet : Bytes) : process_m packet =
    if (memoryRange packet).2 = 0 then respond (str "OK")
    else ask (.readMemory (memoryRange packet).1 (memoryRange packet).2) >>= fun data : Buffer =>
      respondData data.data (if (str "$x").isPrefixOf packet then escape else encode) := rfl

/-- The reply to a memory packet is one of the two texts of the memory, by the front of the
packet. -/
theorem handled_process_m {packet : Bytes} (routed : route packet = .process_m)
    (nonzero : (memoryRange packet).2 ≠ 0) (after : Bytes → UInt8) :
    ((handled environment state protocol after packet).value.map (·.1)) =
      some (createResponse (if memoryAnswer environment state packet = [] then str "E01"
        else (if (str "$x").isPrefixOf packet then escape else encode)
          (memoryAnswer environment state packet)) protocol.mAck) := by
  rw [handled, processPacket, routed]
  change (((process_m packet protocol).run environment state).value.map (·.1)) = _
  rw [process_m_eq, if_neg nonzero]
  change (((respondData (memoryAnswer environment state packet) _ protocol).run environment
    _).value.map (·.1)) = _
  rw [respondData]
  split <;> rfl

private theorem isPrefixOf_packetOf (trail : Bool) (body : Bytes) :
    (str "$x").isPrefixOf (packetOf false trail body high low) =
      (str "$x").isPrefixOf (packetOf false false body high low) := by
  have mark : str "$x" = [0x24, 0x78] := by decide
  cases body <;> simp [mark, packetOf, List.isPrefixOf]

private theorem not_isPrefixOf_packetOf (trail : Bool) (body : Bytes) :
    (str "$x").isPrefixOf (packetOf true trail body high low) = false := by
  have mark : str "$x" = [0x24, 0x78] := by decide
  simp [mark, packetOf, List.isPrefixOf]

/-- Memory that can be read is sent in another form behind an acknowledgement. -/
theorem handled_process_m_ne (highDigit : anyHex high = true) (lowDigit : anyHex low = true)
    {body : Bytes} (routed : bodyRoute body = .process_m)
    (isX : (str "$x").isPrefixOf (packetOf false false body high low) = true)
    (nonzero : (memoryRange (packetOf false false body high low)).2 ≠ 0)
    (readable : memoryAnswer environment state (packetOf false false body high low) ≠ [])
    (after : Bytes → UInt8) :
    handled environment state protocol after (packetOf true false body high low) ≠
      handled environment state protocol after (packetOf false false body high low) := by
  intro same
  have replies := congrArg (fun transcript => transcript.value.map (·.1)) same
  have routes (lead : Bool) : route (packetOf lead false body high low) = .process_m := by
    rw [route_packetOf highDigit lowDigit, routed]
  have nonzero' : (memoryRange (packetOf true false body high low)).2 ≠ 0 := by
    rwa [memoryRange_packetOf highDigit lowDigit]
  simp only [handled_process_m (routes true) nonzero', handled_process_m (routes false) nonzero,
    memoryAnswer_packetOf highDigit lowDigit true, if_neg readable, isX,
    not_isPrefixOf_packetOf, if_true] at replies
  have responses := createResponse_injective _ (Option.some.inj replies)
  exact escape_ne_encode readable responses.symm

/-- Without a readable answer the form of the reply does not matter. -/
theorem process_m_packetOf (highDigit : anyHex high = true) (lowDigit : anyHex low = true)
    {body : Bytes} (ignored : (str "$x").isPrefixOf (packetOf false false body high low) = true →
      (memoryRange (packetOf false false body high low)).2 ≠ 0 →
        memoryAnswer environment state (packetOf false false body high low) = [])
    (lead trail : Bool) :
    (process_m (packetOf lead trail body high low) protocol).run environment state =
      (process_m (packetOf false false body high low) protocol).run environment state := by
  rw [process_m_eq, process_m_eq, memoryRange_packetOf highDigit lowDigit lead trail]
  split
  · rfl
  · rename_i nonzero
    by_cases isX : (str "$x").isPrefixOf (packetOf false false body high low) = true
    · have unreadable := ignored isX nonzero
      rw [memoryAnswer] at unreadable
      rw [run_ask, run_ask]
      simp only [unreadable, respondData, if_true]
    · cases lead with
      | false => rw [isPrefixOf_packetOf]
      | true => rw [not_isPrefixOf_packetOf, Bool.eq_false_iff.mpr isX]

/-- A packet is handled alike, in reply, calls and next state, with an acknowledgement in front of
it, behind it, on both sides or on neither, exactly when it is none of the packets whose handler
looks beyond the body. -/
theorem handled_packetOf_iff (environment : Environment Request.Answer σ) (state : σ)
    (protocol : GDBServerProtocol) (after : Bytes → UInt8) (body : Bytes)
    (highDigit : anyHex high = true) (lowDigit : anyHex low = true) :
    (∀ lead trail, handled environment state protocol after (packetOf lead trail body high low) =
      handled environment state protocol after (packetOf false false body high low)) ↔
    AcknowledgementsIgnored environment state (packetOf false false body high low) := by
  have routes (lead trail : Bool) : route (packetOf lead trail body high low) = bodyRoute body :=
    route_packetOf highDigit lowDigit lead trail body
  rw [AcknowledgementsIgnored, routes]
  constructor
  · intro alike
    refine ⟨fun routed => ?_, fun routed => ?_, fun routed isX nonzero => ?_⟩
    · exact handled_process_G_ne highDigit lowDigit routed after (alike true false)
    · by_contra found
      exact handled_process_H_ne highDigit lowDigit routed found after (alike false true)
    · by_contra readable
      exact handled_process_m_ne highDigit lowDigit routed isX nonzero readable after (alike true false)
  · rintro ⟨notG, unrecognised, unreadable⟩ lead trail
    rw [handled, handled]
    by_cases plain : bodyRoute body ∉ [.process_G, .process_H, .process_m]
    · rw [processPacket_packetOf highDigit lowDigit plain lead trail]
    · rw [processPacket, processPacket, routes, routes]
      cases routed : bodyRoute body with
      | process_G => exact absurd routed notG
      | process_H =>
        have none : threadPattern.fullMatch (packetOf lead trail body high low) = none := by
          cases trail with
          | false =>
            rw [threadPattern_front highDigit lowDigit, ← threadPattern_front highDigit lowDigit false]
            exact unrecognised routed
          | true => exact threadPattern_back lead body
        simp only [process_H, none, unrecognised routed]
      | process_m => exact process_m_packetOf highDigit lowDigit (unreadable routed) lead trail
      | _ => simp [routed] at plain

end Runs

/-- `$qC#b4` between two acknowledgements and alone. -/
theorem handled_packetOf_iff_qC :
    handled (objectsDebugger default default default) () {} (fun _ => 0)
        (packetOf true true (str "qC") 0x62 0x34) =
      handled (objectsDebugger default default default) () {} (fun _ => 0)
        (packetOf false false (str "qC") 0x62 0x34) := by
  have routed : route (packetOf false false (str "qC") 0x62 0x34) = .process_qC := by decide
  refine (handled_packetOf_iff _ () {} (fun _ => 0) (str "qC") (by decide) (by decide)).mpr ?_ true true
  rw [AcknowledgementsIgnored, routed]
  exact ⟨by decide, nofun, nofun⟩

/-- A register write decodes other bytes behind an acknowledgement. -/
theorem not_handled_packetOf :
    ¬∀ (environment : Environment Request.Answer Unit) (protocol : GDBServerProtocol)
      (after : Bytes → UInt8) (body : Bytes) (high low : UInt8), anyHex high = true →
        anyHex low = true → ∀ lead trail,
          handled environment () protocol after (packetOf lead trail body high low) =
            handled environment () protocol after (packetOf false false body high low) := by
  intro always
  have routed : bodyRoute (str "G00") = .process_G := by decide
  have digit : anyHex 0x30 = true := by decide
  exact handled_process_G_ne digit digit routed (fun _ => 0)
    (always (objectsDebugger default default default) {} (fun _ => 0) (str "G00") 0x30 0x30
      digit digit true false)

end DpcppTrace.Soundness
