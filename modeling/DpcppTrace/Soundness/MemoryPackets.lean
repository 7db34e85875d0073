import DpcppTrace.Soundness.Acknowledgement

/-! # Packets for memory

The dispatcher routes a memory packet by one pattern and its handler parses it by another. What the
handler's pattern does not match is taken for empty numerals, whose value is zero, and a length of
zero is a success. The pattern of the write handler has the letters of the reads, so it matches no
write at all; that of the read handler has no upper-case digits and allows any number of digits,
which the parser cuts to the largest number.
-/

namespace DpcppTrace.Soundness

open Foundation Model Pattern

variable {σ : Type} {environment : Environment Request.Answer σ} {state : σ}
  {protocol : GDBServerProtocol} {after : Bytes → UInt8}

/-- What a client reads of the reply. -/
def payload {σ : Type} (transcript : Transcript Request σ (Bytes × GDBServerProtocol)) :
    Option Bytes :=
  (transcript.value.map (·.1)).bind receive

/-- The reply to a packet is that of the handler's last part. -/
theorem payload_ask (request : Request) (rest : request.Answer → Handler) :
    payload (((ask request >>= rest) protocol).run environment state) =
      payload ((rest (environment state request).1 protocol).run environment
        (environment state request).2) := rfl

/-- A packet that a handler of its own takes has a body, which an entry of the table fits. -/
theorem body_of_route {packet : Bytes} {found : Route} (routed : route packet = found)
    (handled : found ∉ [.processAck, .stop, .processUnsupported]) :
    ∃ lead trail high low, anyHex high = true ∧ anyHex low = true ∧
      packet = packetOf lead trail (bodyOf packet) high low ∧
        ∃ pattern captures, (pattern, found) ∈ dispatchTable ∧
          pattern.Matches (bodyOf packet) captures := by
  simp only [List.mem_cons, List.not_mem_nil, or_false, not_or] at handled
  have packetLike : packet ≠ str "+" := by
    rintro rfl
    exact handled.1 (routed.symm.trans (by decide))
  obtain ⟨lead, trail, body, high, low, highDigit, lowDigit, rfl⟩ :=
    packetOf_of_route (fun same => handled.2.2 (routed.symm.trans same)) packetLike
  rw [route_packetOf highDigit lowDigit] at routed
  rw [bodyOf_packetOf highDigit lowDigit]
  exact ⟨lead, trail, high, low, highDigit, lowDigit, rfl, bodyRoute_mem routed handled.2⟩

/-! ## Writes -/

/-- The body of the packet that writes these bytes at an address. -/
def writeBody (addr : ℕ) (data : Bytes) : Bytes :=
  str "M" ++ (hexNumeral addr ++ (str "," ++ (hexNumeral data.length ++ (str ":" ++ encode data))))

/-- The dispatcher sends every such packet to the write handler. -/
theorem bodyRoute_writeBody (addr : ℕ) (data : Bytes) :
    bodyRoute (writeBody addr data) = .process_M := by
  apply bodyRoute_command "M" 11 _ rfl rfl
  simp [hexNumeral_ne_nil]

theorem writeCaptures_of_route {packet : Bytes} (routed : route packet = .process_M) :
    writeCaptures packet = ([], [], []) := by
  obtain ⟨lead, trail, high, low, highDigit, lowDigit, framed, pattern, captures, member, fits⟩ :=
    body_of_route routed (by decide)
  obtain rfl : pattern = text "M" ++ many anyChar := by simpa [dispatchTable] using member
  obtain ⟨rest, letter, -⟩ := matches_text_append.mp fits
  have start : str "M" = [0x4d] := by decide
  rw [writeCaptures, framed, writePattern, fullMatch_packetOf highDigit lowDigit, letter, start,
    fullMatch, go_append, List.cons_append, go_one_cons]
  rfl

/-- Whatever a write packet says, the handler does nothing and says that all is well. -/
theorem handled_process_M {packet : Bytes} (routed : route packet = .process_M) :
    handled environment state protocol after packet =
      ⟨[], state, some (createResponse (str "OK") protocol.mAck, protocol)⟩ := by
  rw [handled, processPacket, routed]
  change (process_M packet protocol).run environment state = _
  rw [process_M, writeCaptures_of_route routed]
  rfl

/-- The packet makes exactly this write and is answered OK. -/
structure Written (environment : Environment Request.Answer σ) (state : σ)
    (protocol : GDBServerProtocol) (after : Bytes → UInt8) (packet : Bytes) (addr len : UInt64)
    (data : Bytes) : Prop where
  calls : (handled environment state protocol after packet).calls = [.writeMemory addr len data]
  reply : payload (handled environment state protocol after packet) = some (str "OK")

/-- The packet writes nothing and is not answered OK. -/
structure Refused (environment : Environment Request.Answer σ) (state : σ)
    (protocol : GDBServerProtocol) (after : Bytes → UInt8) (packet : Bytes) : Prop where
  calls : ∀ addr len data,
    .writeMemory addr len data ∉ (handled environment state protocol after packet).calls
  reply : payload (handled environment state protocol after packet) ≠ some (str "OK")

/-- No write packet is ever carried out, and none is ever refused. -/
theorem memory_never_written (environment : Environment Request.Answer σ) (state : σ)
    (protocol : GDBServerProtocol) (after : Bytes → UInt8) :
    (∀ (lead trail : Bool) (high low : UInt8) (addr : ℕ) (data : Bytes), anyHex high = true →
      anyHex low = true → addr < 2 ^ 64 → data ≠ [] →
        ¬Written environment state protocol after
          (packetOf lead trail (writeBody addr data) high low) (.ofNat addr) (.ofNat data.length)
          data) ∧
    ∀ packet, route packet = .process_M → ¬Refused environment state protocol after packet := by
  constructor
  · intro lead trail high low addr data highDigit lowDigit _ _ written
    have routed : route (packetOf lead trail (writeBody addr data) high low) = .process_M := by
      rw [route_packetOf highDigit lowDigit, bodyRoute_writeBody]
    have calls := written.calls
    rw [handled_process_M routed] at calls
    cases calls
  · intro packet routed refused
    apply refused.reply
    rw [handled_process_M routed]
    exact receive_createResponse (by decide) _

/-- The packet that writes one byte, and one that has no numerals at all. -/
theorem memory_never_written_byte :
    ¬Written (objectsDebugger default default default) () {} (fun _ => 0)
        (packetOf false false (writeBody 0x10 [0xab]) 0x30 0x30) 0x10 1 [0xab] ∧
      ¬Refused (objectsDebugger default default default) () {} (fun _ => 0) (str "$Mxyz#00") := by
  have never := memory_never_written (objectsDebugger default default default) () {} (fun _ => 0)
  have digit : anyHex 0x30 = true := by decide
  exact ⟨never.1 false false 0x30 0x30 0x10 [0xab] digit digit (by decide) (by decide),
    never.2 (str "$Mxyz#00") (by decide)⟩

/-- A byte is not written although the packet is answered OK. -/
theorem not_memory_written :
    ¬∀ (environment : Environment Request.Answer Unit) (addr : ℕ) (data : Bytes), addr < 2 ^ 64 →
      data ≠ [] → Written environment () {} (fun _ => 0)
        (packetOf false false (writeBody addr data) 0x30 0x30) (.ofNat addr) (.ofNat data.length)
        data := by
  intro always
  have written := always (objectsDebugger default default default) 0x10 [0xab] (by decide) (by decide)
  have digit : anyHex 0x30 = true := by decide
  have calls := written.calls
  rw [handled_process_M (by rw [route_packetOf digit digit, bodyRoute_writeBody])] at calls
  cases calls

/-! ## Reads -/

/-- The body names a range by two numerals of either case behind its letter. -/
structure NamesRange (body addrHex lenHex : Bytes) : Prop where
  text : body.tail = addrHex ++ 0x2c :: lenHex
  address : Numeral anyHex addrHex
  length : Numeral anyHex lenHex

theorem NamesRange.unique {body addrHex lenHex otherAddr otherLen : Bytes}
    (names : NamesRange body addrHex lenHex) (other : NamesRange body otherAddr otherLen) :
    otherAddr = addrHex ∧ otherLen = lenHex := by
  have same := names.text.symm.trans other.text
  obtain ⟨first, second⟩ := eq_of_separated (names.address.comma_notMem rfl)
    (other.address.comma_notMem rfl) same
  exact ⟨first.symm, second.symm⟩

/-- A numeral that the parser reads as what it says. -/
structure ExactNumeral (numeral : Bytes) : Prop where
  digits : ∀ c ∈ numeral, lowerHex c = true
  fits : numeral.length ≤ 16 ∨ hexValue numeral = 2 ^ 64 - 1

private theorem parseUInt64_exact {numeral : Bytes} (hex : ∀ c ∈ numeral, lowerHex c = true) :
    (hexValue numeral < 2 ^ 64 ∧ parseUInt64 numeral = .ofNat (hexValue numeral)) ↔
      ExactNumeral numeral := by
  have parsed := parseUInt64_toNat hex
  constructor
  · rintro ⟨fits, same⟩
    refine ⟨hex, ?_⟩
    by_contra neither
    obtain ⟨long, value⟩ := not_or.mp neither
    rw [same, if_neg long, UInt64.toNat_ofNat', Nat.mod_eq_of_lt fits] at parsed
    exact value parsed
  · intro exact
    have value : (parseUInt64 numeral).toNat = hexValue numeral := by
      rcases exact.fits with short | largest
      · rw [parsed, if_pos short]
      · rw [parsed, largest, ite_self]
    refine ⟨value ▸ (parseUInt64 numeral).toNat_lt, ?_⟩
    rw [← value, UInt64.ofNat_toNat]

/-- The packet is answered with an error. -/
def RepliesError (transcript : Transcript Request σ (Bytes × GDBServerProtocol)) : Prop :=
  ∃ code, payload transcript = some (str "E" ++ code)

/-- The bytes the debugger has for a range. -/
def memoryAt (environment : Environment Request.Answer σ) (state : σ) (addr len : UInt64) : Bytes :=
  Buffer.data (environment state (.readMemory addr len)).1

/-- A packet that reads memory is answered as it says: the range it names is read and shown in the
form it asks for, only a range of length zero is answered OK, and everything else is refused. -/
structure MemoryAnswered (environment : Environment Request.Answer σ) (state : σ)
    (protocol : GDBServerProtocol) (after : Bytes → UInt8) (packet : Bytes) : Prop where
  read : ∀ addrHex lenHex, NamesRange (bodyOf packet) addrHex lenHex →
    hexValue addrHex < 2 ^ 64 → hexValue lenHex < 2 ^ 64 → 0 < hexValue lenHex →
    let data := memoryAt environment state (.ofNat (hexValue addrHex)) (.ofNat (hexValue lenHex))
    (handled environment state protocol after packet).calls =
        [.readMemory (.ofNat (hexValue addrHex)) (.ofNat (hexValue lenHex))] ∧
      if data = [] then RepliesError (handled environment state protocol after packet)
      else payload (handled environment state protocol after packet) =
        some (if (bodyOf packet).head? = some 0x78 then escape data else encode data)
  zero : (handled environment state protocol after packet).calls = [] →
    payload (handled environment state protocol after packet) = some (str "OK") →
      ∃ addrHex lenHex, NamesRange (bodyOf packet) addrHex lenHex ∧ hexValue lenHex = 0
  other : (∀ addrHex lenHex, NamesRange (bodyOf packet) addrHex lenHex →
      0 < hexValue lenHex ∧ (2 ^ 64 ≤ hexValue addrHex ∨ 2 ^ 64 ≤ hexValue lenHex)) →
    (handled environment state protocol after packet).calls = [] ∧
      RepliesError (handled environment state protocol after packet)

/-- The packet names a range of length zero, or one whose numerals are exact; and if it is an `x`
packet behind an acknowledgement, the debugger has no bytes for it. -/
def RangeServed (environment : Environment Request.Answer σ) (state : σ) (packet : Bytes) : Prop :=
  ∃ addrHex lenHex, NamesRange (bodyOf packet) addrHex lenHex ∧
    (hexValue lenHex = 0 ∨ (ExactNumeral addrHex ∧ ExactNumeral lenHex ∧
      (packet.head? = some 0x2b → (bodyOf packet).head? = some 0x78 →
        memoryAt environment state (.ofNat (hexValue addrHex)) (.ofNat (hexValue lenHex)) = [])))

private theorem body_of_process_m {packet : Bytes} (routed : route packet = .process_m) :
    ∃ lead trail high low letter rest, anyHex high = true ∧ anyHex low = true ∧
      packet = packetOf lead trail (letter :: rest) high low ∧ bodyOf packet = letter :: rest ∧
        (letter = 0x6d ∨ letter = 0x78) := by
  obtain ⟨lead, trail, high, low, highDigit, lowDigit, framed, pattern, captures, member, fits⟩ :=
    body_of_route routed (by decide)
  have m : str "m" = [0x6d] := by decide
  have x : str "x" = [0x78] := by decide
  have fitting : pattern = text "m" ++ many (fun c => anyHex c || c = 0x2c) ∨
      pattern = text "x" ++ many (fun c => anyHex c || c = 0x2c) := by
    simpa [dispatchTable] using member
  rcases fitting with rfl | rfl
  · obtain ⟨rest, body, -⟩ := matches_text_append.mp fits
    rw [m] at body
    exact ⟨lead, trail, high, low, 0x6d, rest, highDigit, lowDigit,
      framed.trans (congrArg (packetOf lead trail · high low) body), body, .inl rfl⟩
  · obtain ⟨rest, body, -⟩ := matches_text_append.mp fits
    rw [x] at body
    exact ⟨lead, trail, high, low, 0x78, rest, highDigit, lowDigit,
      framed.trans (congrArg (packetOf lead trail · high low) body), body, .inr rfl⟩

private theorem matches_memory {letter : UInt8} (isMemory : letter = 0x6d ∨ letter = 0x78) {rest : Bytes}
    {captures : List Bytes} :
    (one (fun c => c = 0x6d || c = 0x78) ++ (number ++ (text "," ++ number))).Matches
        (letter :: rest) captures ↔
      ∃ addrHex lenHex, NamesRange (letter :: rest) addrHex lenHex ∧
        (∀ c ∈ addrHex, lowerHex c = true) ∧ (∀ c ∈ lenHex, lowerHex c = true) ∧
          captures = [addrHex, lenHex] := by
  rw [matches_append]
  constructor
  · rintro ⟨_, body, _, _, split, ⟨⟨c, _, rfl⟩, rfl⟩, fits, rfl⟩
    obtain ⟨rfl, rfl⟩ := List.cons.inj split
    obtain ⟨addrHex, lenHex, rfl, address, length, rfl⟩ := matches_numbers.mp fits
    exact ⟨addrHex, lenHex,
      ⟨rfl, ⟨address.nonempty, fun c mem => anyHex_of_lowerHex (address.digits c mem)⟩,
        ⟨length.nonempty, fun c mem => anyHex_of_lowerHex (length.digits c mem)⟩⟩,
      address.digits, length.digits, rfl⟩
  · rintro ⟨addrHex, lenHex, names, address, length, rfl⟩
    refine ⟨[letter], rest, [], _, rfl, ⟨⟨letter, by simpa using isMemory, rfl⟩, rfl⟩, ?_, rfl⟩
    exact matches_numbers.mpr ⟨addrHex, lenHex, names.text, ⟨names.address.nonempty, address⟩,
      ⟨names.length.nonempty, length⟩, rfl⟩

/-- The range that the handler parses: the one of the body when its digits are lower-case, else an
empty one. -/
theorem memoryRange_of_route {packet : Bytes} (routed : route packet = .process_m) :
    (∃ addrHex lenHex, NamesRange (bodyOf packet) addrHex lenHex ∧
      (∀ c ∈ addrHex, lowerHex c = true) ∧ (∀ c ∈ lenHex, lowerHex c = true) ∧
        memoryRange packet = (parseUInt64 addrHex, parseUInt64 lenHex)) ∨
    ((∀ addrHex lenHex, NamesRange (bodyOf packet) addrHex lenHex →
      ¬((∀ c ∈ addrHex, lowerHex c = true) ∧ ∀ c ∈ lenHex, lowerHex c = true)) ∧
        (memoryRange packet).2 = 0) := by
  obtain ⟨lead, trail, high, low, letter, rest, highDigit, lowDigit, framed, body, isMemory⟩ :=
    body_of_process_m routed
  rw [body]
  have parsed : memoryPattern.fullMatch packet = (one (fun c => c = 0x6d || c = 0x78) ++
      (number ++ (text "," ++ number))).fullMatch (letter :: rest) := by
    rw [framed, memoryPattern, fullMatch_packetOf highDigit lowDigit]
  rw [memoryRange]
  rcases found : memoryPattern.fullMatch packet with _ | captures
  · right
    refine ⟨fun addrHex lenHex names lower => ?_, rfl⟩
    have fits := isSome_fullMatch_iff.mpr ⟨_, (matches_memory isMemory).mpr
      ⟨addrHex, lenHex, names, lower.1, lower.2, rfl⟩⟩
    rw [← parsed, found] at fits
    cases fits
  · left
    rw [parsed] at found
    obtain ⟨addrHex, lenHex, names, address, length, rfl⟩ :=
      (matches_memory isMemory).mp (matches_of_fullMatch found)
    exact ⟨addrHex, lenHex, names, address, length, rfl⟩

/-- The form of the reply is told by the front of the packet. -/
theorem isPrefixOf_of_route {packet : Bytes} (routed : route packet = .process_m) :
    (str "$x").isPrefixOf packet = true ↔
      packet.head? ≠ some 0x2b ∧ (bodyOf packet).head? = some 0x78 := by
  obtain ⟨lead, trail, high, low, letter, rest, highDigit, lowDigit, framed, body, isMemory⟩ :=
    body_of_process_m routed
  have mark : str "$x" = [0x24, 0x78] := by decide
  rw [body, framed, mark]
  cases lead <;> simp [packetOf, List.isPrefixOf]
  exact eq_comm

variable (environment state protocol after) in
/-- A memory packet for an empty range makes no call and is answered OK. -/
theorem handled_process_m_zero {packet : Bytes} (routed : route packet = .process_m)
    (zero : (memoryRange packet).2 = 0) :
    (handled environment state protocol after packet).calls = [] ∧
      payload (handled environment state protocol after packet) = some (str "OK") := by
  have done : handled environment state protocol after packet =
      ⟨[], state, some (createResponse (str "OK") protocol.mAck, protocol)⟩ := by
    rw [handled, processPacket, routed]
    change (process_m packet protocol).run environment state = _
    rw [process_m_eq, if_pos zero]
    rfl
  rw [done]
  exact ⟨rfl, receive_createResponse (by decide) _⟩

variable (environment state protocol after) in
private theorem calls_process_m {packet : Bytes} (routed : route packet = .process_m)
    (nonzero : (memoryRange packet).2 ≠ 0) :
    (handled environment state protocol after packet).calls =
      [.readMemory (memoryRange packet).1 (memoryRange packet).2] := by
  rw [handled, processPacket, routed]
  change ((process_m packet protocol).run environment state).calls = _
  rw [process_m_eq, if_neg nonzero, run_ask]
  simp only [run_respondData]

variable (environment state protocol after) in
private theorem payload_process_m {packet : Bytes} (routed : route packet = .process_m)
    (nonzero : (memoryRange packet).2 ≠ 0) :
    payload (handled environment state protocol after packet) =
      some (if memoryAnswer environment state packet = [] then str "E01"
        else (if (str "$x").isPrefixOf packet then escape else encode)
          (memoryAnswer environment state packet)) := by
  rw [payload, handled_process_m routed nonzero]
  apply receive_createResponse
  split
  · decide
  · split
    · exact clean_escape _
    · exact clean_encode _

/-- Nothing is asked of the answer to a packet that names a range of length zero. -/
theorem memoryAnswered_of_zero {packet addrHex lenHex : Bytes}
    (names : NamesRange (bodyOf packet) addrHex lenHex) (zero : hexValue lenHex = 0) :
    MemoryAnswered environment state protocol after packet where
  read := by
    intro otherAddr otherLen other _ _ positive
    obtain ⟨-, rfl⟩ := names.unique other
    omega
  zero _ _ := ⟨addrHex, lenHex, names, zero⟩
  other := by
    intro outside
    have := (outside addrHex lenHex names).1
    omega

/-- An exact range is read. -/
theorem memoryAnswered_of_exact {packet addrHex lenHex : Bytes} (routed : route packet = .process_m)
    (names : NamesRange (bodyOf packet) addrHex lenHex) (address : ExactNumeral addrHex)
    (length : ExactNumeral lenHex) (positive : 0 < hexValue lenHex)
    (plain : packet.head? = some 0x2b → (bodyOf packet).head? = some 0x78 →
      memoryAt environment state (.ofNat (hexValue addrHex)) (.ofNat (hexValue lenHex)) = []) :
    MemoryAnswered environment state protocol after packet := by
  obtain ⟨addressFits, parsedAddress⟩ := (parseUInt64_exact address.digits).mpr address
  obtain ⟨lengthFits, parsedLength⟩ := (parseUInt64_exact length.digits).mpr length
  have range : memoryRange packet =
      (.ofNat (hexValue addrHex), .ofNat (hexValue lenHex)) := by
    rcases memoryRange_of_route routed with ⟨otherAddr, otherLen, other, -, -, range⟩ | ⟨none, -⟩
    · obtain ⟨rfl, rfl⟩ := names.unique other
      rw [range, parsedAddress, parsedLength]
    · exact absurd ⟨address.digits, length.digits⟩ (none addrHex lenHex names)
  have nonzero : (memoryRange packet).2 ≠ 0 := by
    rw [range]
    intro zero
    have value := congrArg UInt64.toNat zero
    rw [UInt64.toNat_ofNat', Nat.mod_eq_of_lt lengthFits] at value
    exact absurd value positive.ne'
  have calls := calls_process_m environment state protocol after routed nonzero
  have reply := payload_process_m environment state protocol after routed nonzero
  rw [memoryAnswer, range] at reply
  rw [range] at calls
  constructor
  · intro otherAddr otherLen other _ _ _
    obtain ⟨rfl, rfl⟩ := names.unique other
    refine ⟨calls, ?_⟩
    split
    · rename_i unreadable
      rw [memoryAt] at unreadable
      exact ⟨str "01", by rw [reply, if_pos unreadable]; rfl⟩
    · rename_i readable
      have front : (str "$x").isPrefixOf packet = true ↔ (bodyOf packet).head? = some 0x78 := by
        rw [isPrefixOf_of_route routed, and_iff_right_iff_imp]
        exact fun isX lead => readable (plain lead isX)
      rw [reply]
      simp only [front]
      rw [memoryAt] at readable
      rw [if_neg readable, memoryAt]
      split <;> rfl
  · intro quiet
    rw [calls] at quiet
    cases quiet
  · intro outside
    have := (outside addrHex lenHex names).2
    omega

/-- A packet for memory is answered as it says exactly when it names a range of length zero, or a
range in lower-case numerals that the parser does not cut, and no acknowledgement in front of an `x`
packet hides the form it asks for. -/
theorem memoryAnswered_iff (environment : Environment Request.Answer σ) (state : σ)
    (protocol : GDBServerProtocol) (after : Bytes → UInt8) (packet : Bytes)
    (routed : route packet = .process_m) :
    MemoryAnswered environment state protocol after packet ↔
      RangeServed environment state packet := by
  constructor
  · intro answered
    by_cases empty : (memoryRange packet).2 = 0
    · obtain ⟨calls, reply⟩ := handled_process_m_zero environment state protocol after routed empty
      obtain ⟨addrHex, lenHex, names, zero⟩ := answered.zero calls reply
      exact ⟨addrHex, lenHex, names, .inl zero⟩
    · rcases memoryRange_of_route routed with
        ⟨addrHex, lenHex, names, address, length, range⟩ | ⟨-, zero⟩
      · have calls := calls_process_m environment state protocol after routed empty
        refine ⟨addrHex, lenHex, names, or_iff_not_imp_left.mpr fun nonzero => ?_⟩
        by_cases fits : hexValue addrHex < 2 ^ 64 ∧ hexValue lenHex < 2 ^ 64
        · obtain ⟨read, reply⟩ := answered.read addrHex lenHex names fits.1 fits.2
            (Nat.pos_of_ne_zero nonzero)
          rw [calls, range] at read
          obtain ⟨parsedAddress, parsedLength⟩ := Request.readMemory.inj (List.cons.inj read).1
          refine ⟨(parseUInt64_exact address).mp ⟨fits.1, parsedAddress⟩,
            (parseUInt64_exact length).mp ⟨fits.2, parsedLength⟩, fun lead isX => ?_⟩
          by_contra readable
          have front : (str "$x").isPrefixOf packet = false := by
            rw [← Bool.not_eq_true, isPrefixOf_of_route routed]
            exact fun both => both.1 lead
          have other := payload_process_m environment state protocol after routed empty
          have bytes : memoryAnswer environment state packet = memoryAt environment state
              (.ofNat (hexValue addrHex)) (.ofNat (hexValue lenHex)) := by
            rw [memoryAnswer, memoryAt, range, parsedAddress, parsedLength]
          rw [if_neg readable, if_pos isX, other, bytes, if_neg readable, front] at reply
          exact escape_ne_encode readable (Option.some.inj reply).symm
        · have outside := answered.other fun otherAddr otherLen other => by
            obtain ⟨rfl, rfl⟩ := names.unique other
            exact ⟨Nat.pos_of_ne_zero nonzero, by omega⟩
          rw [calls] at outside
          cases outside.1
      · exact absurd zero empty
  · rintro ⟨addrHex, lenHex, names, served⟩
    rcases Nat.eq_zero_or_pos (hexValue lenHex) with zero | positive
    · exact memoryAnswered_of_zero names zero
    · obtain ⟨address, length, plain⟩ := served.resolve_left positive.ne'
      exact memoryAnswered_of_exact routed names address length positive plain

/-- Five bytes from `0x1f` on, three of them reserved in a reply. -/
def fiveBytes : Bytes := [0x23, 0x2a, 0x7d, 0x41, 0xff]

private theorem fiveBytes_sized (start count : ℕ) : ((fiveBytes.drop start).take count).length < 2 ^ 64 := by
  have all : fiveBytes.length = 5 := rfl
  rw [List.length_take, List.length_drop]
  omega

/-- A debugger with this memory. -/
def memoryDebugger : Environment Request.Answer Unit := fun state request =>
  match request with
  | .readMemory addr len =>
    (⟨(fiveBytes.drop (addr.toNat - 0x1f)).take len.toNat, fiveBytes_sized _ _⟩, ())
  | other => objectsDebugger default default default state other

private theorem exact_four : ExactNumeral (str "1f") ∧ ExactNumeral (str "4") :=
  ⟨⟨List.all_eq_true.mp (by decide), .inl (by decide)⟩, ⟨List.all_eq_true.mp (by decide), .inl (by decide)⟩⟩

/-- Four of them, as digits and escaped. -/
theorem memoryAnswered_iff_four :
    MemoryAnswered memoryDebugger () {} (fun _ => 0) (str "$m1f,4#00") ∧
      MemoryAnswered memoryDebugger () {} (fun _ => 0) (str "$x1f,4#00") ∧
        payload (handled memoryDebugger () {} (fun _ => 0) (str "$m1f,4#00")) = some (str "232a7d41") := by
  obtain ⟨address, length⟩ := exact_four
  have hexNames : NamesRange (bodyOf (str "$m1f,4#00")) (str "1f") (str "4") :=
    ⟨by decide, .of_all (by decide) (by decide), .of_all (by decide) (by decide)⟩
  have binaryNames : NamesRange (bodyOf (str "$x1f,4#00")) (str "1f") (str "4") :=
    ⟨by decide, .of_all (by decide) (by decide), .of_all (by decide) (by decide)⟩
  have hex := (memoryAnswered_iff memoryDebugger () {} (fun _ => 0) (str "$m1f,4#00") (by decide)).mpr
    ⟨_, _, hexNames, .inr ⟨address, length, fun lead => absurd lead (by decide)⟩⟩
  have binary := (memoryAnswered_iff memoryDebugger () {} (fun _ => 0) (str "$x1f,4#00") (by decide)).mpr
    ⟨_, _, binaryNames, .inr ⟨address, length, fun lead => absurd lead (by decide)⟩⟩
  refine ⟨hex, binary, ?_⟩
  have shown := (hex.read _ _ hexNames (by decide) (by decide) (by decide)).2
  rw [if_neg (by decide), if_neg (by decide)] at shown
  rw [shown]
  decide

/-- The same packet in upper-case digits is answered OK and reads nothing. -/
theorem not_memoryAnswered :
    ¬∀ (environment : Environment Request.Answer Unit) (packet : Bytes), route packet = .process_m →
      MemoryAnswered environment () {} (fun _ => 0) packet := by
  intro always
  have answered := always (objectsDebugger default default default) (str "$m1F,4#00") (by decide)
  have names : NamesRange (bodyOf (str "$m1F,4#00")) (str "1F") (str "4") :=
    ⟨by decide, .of_all (by decide) (by decide), .of_all (by decide) (by decide)⟩
  have read := (answered.read _ _ names (by decide) (by decide) (by decide)).1
  exact absurd read (by decide)

end DpcppTrace.Soundness
