import DpcppTrace.Soundness.MemoryPackets

/-! # Reading a file

A `vFile:pread` packet makes the handler take a buffer of the requested size, read into it, and cut it to
the result. Only a read that succeeds gets past the cut: a failed one has the result minus one, which
is no size. The request itself may be for more than a buffer can hold.
-/

namespace DpcppTrace.Soundness

open Foundation Model Pattern

/-! ## The packet -/

/-- The body of the packet that reads from a file. -/
def preadBody (fdHex countHex offsetHex : Bytes) : Bytes :=
  str "vFile:pread:" ++ (fdHex ++ 0x2c :: (countHex ++ 0x2c :: offsetHex))

private theorem bodyRoute_preadBody (fdHex countHex offsetHex : Bytes) :
    bodyRoute (preadBody fdHex countHex offsetHex) = .process_vFile := by
  have split : preadBody fdHex countHex offsetHex =
      str "vFile" ++ (str ":pread:" ++ (fdHex ++ 0x2c :: (countHex ++ 0x2c :: offsetHex))) := rfl
  rw [split]
  exact bodyRoute_command "vFile" 17 (List.cons_ne_nil _ _) rfl rfl

private theorem pread_fullMatch {fdHex countHex offsetHex : Bytes} (fd : Numeral lowerHex fdHex)
    (count : Numeral lowerHex countHex) (offset : Numeral lowerHex offsetHex) :
    (text "vFile:pread:" ++ (number ++ (text "," ++ (number ++ (text "," ++ number))))).fullMatch
      (preadBody fdHex countHex offsetHex) = some [fdHex, countHex, offsetHex] := by
  have comma : str "," = [0x2c] := by decide
  have described {captures : List Bytes} :
      (text "vFile:pread:" ++ (number ++ (text "," ++ (number ++ (text "," ++ number))))).Matches
          (preadBody fdHex countHex offsetHex) captures ↔ captures = [fdHex, countHex, offsetHex] := by
    rw [matches_text_append, preadBody]
    constructor
    · rintro ⟨rest, same, fits⟩
      obtain ⟨fd', left, _, split, fdNumeral, inner, rfl⟩ :=
        matches_number_append.mp (List.append_cancel_left same ▸ fits)
      obtain ⟨numbers, behind, last⟩ := matches_text_append.mp inner
      rw [behind, comma] at split
      obtain ⟨rfl, rest⟩ := eq_of_separated (fd.comma_notMem rfl) (fdNumeral.comma_notMem rfl) split
      obtain ⟨count', offset', between, countNumeral, -, rfl⟩ := matches_numbers.mp last
      rw [between] at rest
      obtain ⟨rfl, rfl⟩ := eq_of_separated (count.comma_notMem rfl) (countNumeral.comma_notMem rfl) rest
      rfl
    · rintro rfl
      refine ⟨_, rfl, matches_number_append.mpr ⟨fdHex, _, _, rfl, fd, ?_, rfl⟩⟩
      exact matches_text_append.mpr ⟨_, by rw [comma]; rfl,
        matches_numbers.mpr ⟨countHex, offsetHex, rfl, count, offset, rfl⟩⟩
  exact fullMatch_eq_some (described.mpr rfl) fun others => described.mp

/-- The packet reaches the read. -/
theorem processPacket_pread {high low : UInt8} (highDigit : anyHex high = true)
    (lowDigit : anyHex low = true) (lead trail : Bool) {fdHex countHex offsetHex : Bytes}
    (fd : Numeral lowerHex fdHex) (count : Numeral lowerHex countHex)
    (offset : Numeral lowerHex offsetHex) (after : UInt8) :
    processPacket (packetOf lead trail (preadBody fdHex countHex offsetHex) high low) after =
      vFilePread fdHex countHex offsetHex := by
  have noSetfs : ((text "vFile:setfs:" ++ many anyChar).fullMatch
      (preadBody fdHex countHex offsetHex)) = none := rfl
  have noOpen : ((text "vFile:open:" ++ (group (many anyChar) ++ (text "," ++ (number ++
      (text "," ++ number))))).fullMatch (preadBody fdHex countHex offsetHex)) = none := rfl
  have noClose : ((text "vFile:close:" ++ number).fullMatch
      (preadBody fdHex countHex offsetHex)) = none := rfl
  rw [processPacket, route_packetOf highDigit lowDigit, bodyRoute_preadBody]
  change process_vFile _ = _
  rw [process_vFile]
  simp only [fullMatch_packetOf highDigit lowDigit, noSetfs, noOpen, noClose,
    pread_fullMatch fd count offset]
  rfl

/-! ## The read -/

section Runs

variable {σ : Type} {environment : Environment Request.Answer σ} {state : σ}
  {protocol : GDBServerProtocol}

/-- Whether there is room for the requested bytes, and the state after asking. -/
def roomFor (environment : Environment Request.Answer σ) (state : σ) (countHex : Bytes) : Bool × σ :=
  environment state (.allocate (parseUInt64 countHex))

/-- How the read ends: with bytes, possibly none at the end of the file, or with a failure. -/
def preadOutcome (environment : Environment Request.Answer σ) (state : σ)
    (fdHex countHex offsetHex : Bytes) : Option Bytes :=
  (environment (roomFor environment state countHex).2
    (.llread (parseInt32 fdHex) (parseUInt64 offsetHex) (parseUInt64 countHex))).1

/-- The handler replies, with the bytes that were read behind their number, or with minus one. -/
def PreadAnswered (environment : Environment Request.Answer σ) (state : σ)
    (protocol : GDBServerProtocol) (after : Bytes → UInt8) (packet fdHex countHex offsetHex : Bytes) :
    Prop :=
  ∃ reply, payload (handled environment state protocol after packet) = some reply ∧
    match preadOutcome environment state fdHex countHex offsetHex with
    | some bytes => ∃ data, reply = str "F" ++ (hexNumeral bytes.length ++ 0x3b :: data) ∧
        unescape data = some bytes
    | none => reply = str "F-1"

/-- A buffer can have the requested size, there is room for it, and the read succeeds with fewer bytes
than an `int` can count. -/
structure PreadServed (environment : Environment Request.Answer σ) (state : σ)
    (fdHex countHex offsetHex : Bytes) : Prop where
  size : (parseUInt64 countHex).toNat < 2 ^ 63
  room : (roomFor environment state countHex).1 = true
  outcome : ∃ bytes, preadOutcome environment state fdHex countHex offsetHex = some bytes ∧
    bytes.length < 2 ^ 31

/-- The reply to a successful read. -/
def preadReply (bytes : Bytes) : Bytes :=
  str "F" ++ encodeInt 4 (Int32.ofNat bytes.length).toBitVec ++ str ";" ++
    escape (bytes.take (Int32.ofNat bytes.length).toNatClampNeg)

private theorem preadReply_clean (bytes : Bytes) : Clean (preadReply bytes) :=
  .append (.append (.append (by decide) (clean_encodeInt _ _)) (by decide)) (clean_escape _)

/-- What the client reads of the handler's reply. -/
theorem payload_pread (fdHex countHex offsetHex : Bytes) :
    payload ((vFilePread fdHex countHex offsetHex protocol).run environment state) =
      if (parseUInt64 countHex).toNat < 2 ^ 63 ∧ (roomFor environment state countHex).1 = true then
        (preadOutcome environment state fdHex countHex offsetHex).bind fun bytes =>
          if Int32.ofNat bytes.length < 0 then none else some (preadReply bytes)
      else none := by
  have bound : 0x8000000000000000 ≤ parseUInt64 countHex ↔ ¬(parseUInt64 countHex).toNat < 2 ^ 63 := by
    rw [UInt64.le_iff_toNat_le, not_lt]
    rfl
  rw [vFilePread]
  simp only [bound]
  by_cases small : (parseUInt64 countHex).toNat < 2 ^ 63
  · rw [if_neg (not_not.mpr small), payload_ask]
    change payload (((if (roomFor environment state countHex).1 = true then _ else _ : Handler)
      protocol).run environment (roomFor environment state countHex).2) = _
    cases (roomFor environment state countHex).1 with
    | false =>
      rw [if_neg Bool.false_ne_true, if_neg (fun both => Bool.false_ne_true both.2)]
      rfl
    | true =>
      rw [if_pos rfl, if_pos ⟨small, rfl⟩, payload_ask, preadOutcome]
      cases (environment (roomFor environment state countHex).2
        (.llread (parseInt32 fdHex) (parseUInt64 offsetHex) (parseUInt64 countHex))).1 with
      | none => rfl
      | some bytes =>
        rw [Option.bind_some]
        by_cases negative : Int32.ofNat bytes.length < 0
        · simp only [if_pos negative]
          rfl
        · simp only [if_neg negative]
          exact receive_createResponse (preadReply_clean bytes) _
  · rw [if_pos small, if_neg (fun both => small both.1)]
    rfl

/-- The number in front of the bytes is the number of the bytes exactly if an `int` can count them. -/
theorem preadReply_iff (bytes : Bytes) :
    (¬Int32.ofNat bytes.length < 0 ∧ ∃ data, preadReply bytes =
        str "F" ++ (hexNumeral bytes.length ++ 0x3b :: data) ∧ unescape data = some bytes) ↔
      bytes.length < 2 ^ 31 := by
  have result : encodeInt 4 (Int32.ofNat bytes.length).toBitVec =
      hexNumeral (bytes.length % 2 ^ 32) := by
    rw [encodeInt_eq 4]
    rfl
  have reply : preadReply bytes = str "F" ++ (hexNumeral (bytes.length % 2 ^ 32) ++
      0x3b :: escape (bytes.take (Int32.ofNat bytes.length).toNatClampNeg)) := by
    have semicolon : str ";" = [0x3b] := by decide
    rw [preadReply, result, semicolon]
    simp
  have plain (n : ℕ) : 0x3b ∉ hexNumeral n := fun mem => absurd (mem_hexNumeral mem) (by decide)
  constructor
  · rintro ⟨positive, data, same, -⟩
    rw [reply] at same
    have numerals := (eq_of_separated (plain _) (plain _) (List.append_cancel_left same)).1
    have counted := hexNumeral_injective numerals
    have zero : (0 : Int32).toInt = 0 := rfl
    have size : ((Int32.size : ℕ) : ℤ) = 4294967296 := rfl
    rw [Int32.lt_iff_toInt_lt, Int32.toInt_ofNat', zero, Int.bmod_def, size] at positive
    split at positive <;> omega
  · intro short
    refine ⟨?_, escape bytes, ?_, unescape_escape bytes⟩
    · rw [Int32.lt_iff_toInt_lt, Int32.toInt_ofNat_of_lt short]
      exact not_lt.mpr (Int.natCast_nonneg bytes.length)
    · rw [reply, Int32.toNatClampNeg_ofNat_of_lt short, List.take_length,
        Nat.mod_eq_of_lt (by omega)]

/-- A `vFile:pread` packet is answered, with the bytes that were read or with minus one, exactly if a
buffer can have the requested size, there is room for it, and the read succeeds with fewer bytes than
an `int` can count. -/
theorem pread_answered_iff (environment : Environment Request.Answer σ) (state : σ)
    (protocol : GDBServerProtocol) (after : Bytes → UInt8) (lead trail : Bool) (high low : UInt8)
    (fdHex countHex offsetHex : Bytes) (highDigit : anyHex high = true) (lowDigit : anyHex low = true)
    (fd : Numeral lowerHex fdHex) (count : Numeral lowerHex countHex)
    (offset : Numeral lowerHex offsetHex) :
    PreadAnswered environment state protocol after
        (packetOf lead trail (preadBody fdHex countHex offsetHex) high low) fdHex countHex offsetHex ↔
      PreadServed environment state fdHex countHex offsetHex := by
  have replied : payload (handled environment state protocol after
      (packetOf lead trail (preadBody fdHex countHex offsetHex) high low)) =
        payload ((vFilePread fdHex countHex offsetHex protocol).run environment state) := by
    rw [handled, processPacket_pread highDigit lowDigit lead trail fd count offset]
  rw [PreadAnswered, replied, payload_pread]
  constructor
  · rintro ⟨reply, sent, right⟩
    split at sent
    · rename_i room
      cases outcome : preadOutcome environment state fdHex countHex offsetHex with
      | none =>
        rw [outcome] at sent
        cases sent
      | some bytes =>
        rw [outcome, Option.bind_some] at sent
        rw [outcome] at right
        split at sent
        · cases sent
        · rename_i positive
          obtain rfl := Option.some.inj sent
          exact ⟨room.1, room.2, bytes, outcome, (preadReply_iff bytes).mp ⟨positive, right⟩⟩
    · cases sent
  · rintro ⟨size, room, bytes, outcome, short⟩
    obtain ⟨positive, right⟩ := (preadReply_iff bytes).mpr short
    refine ⟨preadReply bytes, ?_, ?_⟩
    · rw [if_pos ⟨size, room⟩, outcome, Option.bind_some, if_neg positive]
    · rw [outcome]
      exact right

end Runs

/-- A debugger under which every read ends so. -/
def fileDebugger (outcome : Option Bytes) : Environment Request.Answer Unit :=
  fun state request => match request with
    | .llread .. => (outcome, ())
    | other => objectsDebugger default default default state other

/-- Two bytes of a file. -/
theorem pread_answered_iff_two :
    PreadAnswered (fileDebugger (some [0x61, 0x23])) () {} (fun _ => 0)
      (packetOf false false (preadBody (str "5") (str "10") (str "0")) 0x30 0x30) (str "5") (str "10")
      (str "0") :=
  (pread_answered_iff _ () {} (fun _ => 0) false false 0x30 0x30 _ _ _ (by decide) (by decide)
    (.of_all (by decide) (by decide)) (.of_all (by decide) (by decide))
    (.of_all (by decide) (by decide))).mpr
      ⟨by decide, rfl, [0x61, 0x23], rfl, by decide⟩

/-- A failed read is not answered. -/
theorem not_pread_answered :
    ¬∀ outcome : Option Bytes, PreadAnswered (fileDebugger outcome) () {} (fun _ => 0)
      (packetOf false false (preadBody (str "5") (str "10") (str "0")) 0x30 0x30) (str "5") (str "10")
      (str "0") := by
  intro always
  obtain ⟨reply, sent, -⟩ := always none
  have fd : Numeral lowerHex (str "5") := .of_all (by decide) (by decide)
  have count : Numeral lowerHex (str "10") := .of_all (by decide) (by decide)
  have offset : Numeral lowerHex (str "0") := .of_all (by decide) (by decide)
  rw [handled, processPacket_pread (by decide) (by decide) false false fd count offset] at sent
  cases sent

end DpcppTrace.Soundness
