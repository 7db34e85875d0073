import DpcppTrace.Soundness.MemoryPackets

/-! # Reading the auxiliary vector

The auxiliary vector is the one object that is escaped, and the slice of a read is cut out of the
escaped text. The offset and the length of the read count bytes of the vector, so behind the first
reserved byte they are off.
-/

namespace DpcppTrace.Soundness

open Foundation Model Pattern

/-! ## Slices of an escaped text -/

/-- A slice of an escaped text is the escaped slice of the data, when nothing in front of it is
reserved, exactly if nothing in it is reserved or it reaches the end of the text. -/
theorem unescape_slice_iff {data : Bytes} {offset n : ℕ}
    (plain : ∀ c ∈ data.take offset, reserved c = false) (inside : offset ≤ data.length) :
    unescape (((escape data).drop offset).take n) = some ((data.drop offset).take n) ↔
      (∀ c ∈ (data.drop offset).take n, reserved c = false) ∨
        (escape (data.drop offset)).length ≤ n := by
  have behind : (escape data).drop offset = escape (data.drop offset) := by
    have width : (data.take offset).length = offset := List.length_take_of_le inside
    conv_lhs => rw [← List.take_append_drop offset data, escape_append, escape_plain plain]
    rw [List.drop_append_of_le_length width.ge, List.drop_eq_nil_of_le width.le, List.nil_append]
  rw [behind]
  generalize data.drop offset = rest
  constructor
  · intro decodes
    rw [or_iff_not_imp_right]
    intro longer
    have same := congrArg List.length (escape_of_unescape_take decodes)
    rw [escape_length, List.length_take, List.length_take] at same
    have all := escape_length rest
    have none : (rest.take n).countP reserved = 0 := by
      rcases Nat.lt_or_ge rest.length n with long | short
      · rw [List.take_of_length_le long.le] at same ⊢
        omega
      · omega
    simpa using List.countP_eq_zero.mp none
  · rintro (unescaped | whole)
    · have front : (escape rest).take n = rest.take n := by
        have split := congrArg escape (List.take_append_drop n rest)
        rw [escape_append, escape_plain unescaped] at split
        rw [← split]
        rcases Nat.lt_or_ge rest.length n with long | short
        · have none : escape [] = [] := rfl
          rw [List.drop_eq_nil_of_le long.le, List.take_of_length_le long.le, none, List.append_nil,
            List.take_of_length_le long.le]
        · rw [List.take_append_of_le_length (List.length_take_of_le short).ge]
          exact List.take_of_length_le (List.length_take_of_le short).le
      have self := unescape_escape (rest.take n)
      rw [escape_plain unescaped] at self
      rwa [front]
    · have short : rest.length ≤ n := by
        rw [escape_length] at whole
        omega
      rw [List.take_of_length_le whole, List.take_of_length_le short, unescape_escape]

/-! ## Reads -/

/-- The body of the packet that reads `n` bytes at an offset. -/
def auxvBody (offset n : ℕ) : Bytes :=
  str "qXfer:auxv:read::" ++ (hexNumeral offset ++ 0x2c :: hexNumeral n)

private theorem bodyRoute_auxvBody (offset n : ℕ) : bodyRoute (auxvBody offset n) = .process_qXfer := by
  have split : auxvBody offset n =
      str "qXfer" ++ (str ":auxv:read::" ++ (hexNumeral offset ++ 0x2c :: hexNumeral n)) := rfl
  rw [split]
  exact bodyRoute_command "qXfer" 13 (List.cons_ne_nil _ _) rfl rfl

private theorem qXferRead_auxvBody {high low : UInt8} (highDigit : anyHex high = true)
    (lowDigit : anyHex low = true) (lead trail : Bool) {offset n : ℕ} (offsetFits : offset < 2 ^ 64)
    (lengthFits : n < 2 ^ 64) :
    qXferRead (packetOf lead trail (auxvBody offset n) high low) =
      some (.auxv, .ofNat offset, .ofNat n) := by
  have noFeatures : (text "qXfer:features:read:target.xml:" ++
      (number ++ (text "," ++ number))).fullMatch (auxvBody offset n) = none := rfl
  have fits : (text "qXfer:auxv:read::" ++ (number ++ (text "," ++ number))).fullMatch
      (auxvBody offset n) = some [hexNumeral offset, hexNumeral n] := by
    have comma : str "," = [0x2c] := by decide
    have numbers := numbers_go (fun _ => mem_hexNumeral) (hexNumeral_ne_nil offset)
      (fun _ => mem_hexNumeral) (hexNumeral_ne_nil n)
    rw [comma] at numbers
    rw [fullMatch, auxvBody, go_append, text, go_literal_self]
    exact numbers
  rw [qXferRead]
  simp only [XferObject.pattern, fullMatch_packetOf highDigit lowDigit, noFeatures, fits,
    parseUInt64_ofNat offsetFits, parseUInt64_ofNat lengthFits]

section Runs

variable {σ : Type} {environment : Environment Request.Answer σ} {state : σ}
  {protocol : GDBServerProtocol} {after : Bytes → UInt8}

/-- The auxiliary vector, as the debugger answers. -/
def auxvData (environment : Environment Request.Answer σ) (state : σ) : Buffer :=
  (environment state .getAuxvData).1

/-- The data behind the mark of the reply decodes to the bytes that the read asks for. -/
def AuxvRead (environment : Environment Request.Answer σ) (state : σ) (protocol : GDBServerProtocol)
    (after : Bytes → UInt8) (packet : Bytes) (offset n : ℕ) : Prop :=
  ∃ mark data, payload (handled environment state protocol after packet) = some (mark :: data) ∧
    unescape data = some (((auxvData environment state).data.drop offset).take n)

variable (environment state protocol after) in
private theorem payload_auxv {high low : UInt8} (highDigit : anyHex high = true)
    (lowDigit : anyHex low = true) (lead trail : Bool) {offset n : ℕ}
    (inside : offset < (auxvData environment state).data.length) (lengthFits : n < 2 ^ 64) :
    ∃ mark, payload (handled environment state protocol after
        (packetOf lead trail (auxvBody offset n) high low)) =
      some (mark :: ((escape (auxvData environment state).data).drop offset).take n) := by
  have offsetFits : offset < 2 ^ 64 := inside.trans (auxvData environment state).sized
  have routed : route (packetOf lead trail (auxvBody offset n) high low) = .process_qXfer := by
    rw [route_packetOf highDigit lowDigit, bodyRoute_auxvBody]
  have ran : payload (handled environment state protocol after
      (packetOf lead trail (auxvBody offset n) high low)) =
      receive (createResponse (xferSlice (auxvData environment state).data.length
        (escape (auxvData environment state).data) (.ofNat offset) (.ofNat n)) protocol.mAck) := by
    rw [payload, handled, processPacket, routed]
    change (((process_qXfer _ protocol).run environment state).value.map _).bind receive = _
    rw [process_qXfer, qXferRead_auxvBody highDigit lowDigit lead trail offsetFits lengthFits]
    rfl
  have cut : substr (escape (auxvData environment state).data) (.ofNat offset) (.ofNat n) =
      ((escape (auxvData environment state).data).drop offset).take n := by
    rw [substr, UInt64.toNat_ofNat', UInt64.toNat_ofNat', Nat.mod_eq_of_lt offsetFits,
      Nat.mod_eq_of_lt lengthFits]
  have unhashed (mark : UInt8) (plain : mark ≠ 0x23) :
      0x23 ∉ mark :: ((escape (auxvData environment state).data).drop offset).take n := by
    intro member
    rcases List.mem_cons.mp member with same | member
    · exact plain same.symm
    · exact (clean_escape _).hash_notMem (List.mem_of_mem_drop (List.mem_of_mem_take member))
  have more : str "m" = [0x6d] := by decide
  have last : str "l" = [0x6c] := by decide
  rw [ran, xferSlice, cut, UInt64.toNat_ofNat', Nat.mod_eq_of_lt offsetFits, if_neg (by omega), more,
    last]
  split
  · exact ⟨0x6d, receive_unhashed (unhashed 0x6d (by decide)) _⟩
  · exact ⟨0x6c, receive_unhashed (unhashed 0x6c (by decide)) _⟩

/-- A read behind plain data is right exactly if it is of plain data or reaches the end of the
escaped vector. -/
theorem auxvRead_iff {high low : UInt8} (highDigit : anyHex high = true)
    (lowDigit : anyHex low = true) (lead trail : Bool) {offset n : ℕ}
    (inside : offset < (auxvData environment state).data.length) (lengthFits : n < 2 ^ 64)
    (plain : ∀ c ∈ (auxvData environment state).data.take offset, reserved c = false) :
    AuxvRead environment state protocol after (packetOf lead trail (auxvBody offset n) high low)
        offset n ↔
      (∀ c ∈ ((auxvData environment state).data.drop offset).take n, reserved c = false) ∨
        (escape ((auxvData environment state).data.drop offset)).length ≤ n := by
  obtain ⟨mark, replied⟩ := payload_auxv environment state protocol after highDigit lowDigit lead
    trail inside lengthFits
  rw [← unescape_slice_iff plain inside.le, AuxvRead, replied]
  constructor
  · rintro ⟨_, data, same, decodes⟩
    obtain ⟨-, rfl⟩ := List.cons.inj (Option.some.inj same)
    exact decodes
  · exact fun decodes => ⟨mark, _, rfl, decodes⟩

/-- If one-byte reads are right up to here, nothing up to here is reserved. -/
theorem plain_of_reads {high low : UInt8} (highDigit : anyHex high = true)
    (lowDigit : anyHex low = true) {lead trail : Bool} {size : ℕ}
    (bounded : size ≤ (auxvData environment state).data.length)
    (reads : ∀ offset < size, AuxvRead environment state protocol after
      (packetOf lead trail (auxvBody offset 1) high low) offset 1) :
    ∀ c ∈ (auxvData environment state).data.take size, reserved c = false := by
  induction size with
  | zero => simp
  | succ size ih =>
    have front := ih (by omega) fun offset inside => reads offset (by omega)
    have right := (auxvRead_iff highDigit lowDigit lead trail (by omega) (by norm_num) front).mp
      (reads size (Nat.lt_succ_self size))
    have next : (auxvData environment state).data.drop size =
        (auxvData environment state).data[size] :: (auxvData environment state).data.drop (size + 1) :=
      List.drop_eq_getElem_cons (by omega)
    have here : reserved (auxvData environment state).data[size] = false := by
      rcases right with plain | whole
      · apply plain
        rw [next]
        exact List.mem_cons_self
      · rw [next, escape_length, List.length_cons, List.countP_cons] at whole
        by_contra escaped
        rw [if_pos (by simpa using escaped)] at whole
        omega
    rw [List.take_succ_eq_append_getElem (by omega)]
    intro c member
    rcases List.mem_append.mp member with earlier | last
    · exact front c earlier
    · rw [List.mem_singleton.mp last]
      exact here

/-- All reads up to a place in the auxiliary vector bring the bytes they ask for exactly if no byte in
front of the place is reserved. -/
theorem auxv_reads_iff (environment : Environment Request.Answer σ) (state : σ)
    (protocol : GDBServerProtocol) (after : Bytes → UInt8) (lead trail : Bool) (high low : UInt8)
    (size : ℕ) (highDigit : anyHex high = true) (lowDigit : anyHex low = true)
    (bounded : size ≤ (auxvData environment state).data.length) :
    (∀ offset n, offset < (auxvData environment state).data.length → 1 ≤ n → offset + n < 2 ^ 64 →
      min (offset + n) (auxvData environment state).data.length ≤ size →
        AuxvRead environment state protocol after (packetOf lead trail (auxvBody offset n) high low)
          offset n) ↔
      ∀ c ∈ (auxvData environment state).data.take size, reserved c = false := by
  have sized := (auxvData environment state).sized
  constructor
  · intro reads
    apply plain_of_reads highDigit lowDigit bounded
    exact fun offset inside => reads offset 1 (by omega) le_rfl (by omega) (by omega)
  · intro plain offset n inside positive fits within
    have front : ∀ c ∈ (auxvData environment state).data.take offset, reserved c = false :=
      fun c member => plain c (List.take_subset_take_left _ (by omega) member)
    refine (auxvRead_iff highDigit lowDigit lead trail inside (by omega) front).mpr (.inl ?_)
    intro c member
    rw [List.take_drop] at member
    apply plain
    rcases Nat.lt_or_ge (auxvData environment state).data.length (offset + n) with long | short
    · rw [List.take_of_length_le (by omega)]
      exact List.mem_of_mem_take (List.mem_of_mem_drop member)
    · exact List.take_subset_take_left _ (by omega) (List.mem_of_mem_drop member)

end Runs

/-- A debugger that has this auxiliary vector and nothing else. -/
def auxvDebugger (auxv : Buffer) : Environment Request.Answer Unit :=
  objectsDebugger default auxv default

/-- Two bytes of a vector without reserved ones. -/
theorem auxv_reads_iff_plain :
    AuxvRead (auxvDebugger (.short [6, 0, 16] (by decide))) () {} (fun _ => 0)
      (packetOf false false (auxvBody 1 2) 0x30 0x30) 1 2 := by
  refine (auxv_reads_iff _ () {} (fun _ => 0) false false 0x30 0x30 3 (by decide) (by decide)
    (by decide)).mpr ?_ 1 2 (by decide) (by decide) (by decide) (by decide)
  intro c member
  have bytes : c ∈ [6, 0, 16] := member
  simp only [List.mem_cons, List.not_mem_nil, or_false] at bytes
  rcases bytes with rfl | rfl | rfl <;> decide

/-- The byte `#` is cut in the middle of its escape. -/
theorem not_auxv_reads :
    ¬∀ (auxv : Buffer) (offset n : ℕ), offset < auxv.data.length → 1 ≤ n → offset + n < 2 ^ 64 →
      AuxvRead (auxvDebugger auxv) () {} (fun _ => 0)
        (packetOf false false (auxvBody offset n) 0x30 0x30) offset n := by
  intro always
  have read := always (.short [0x23] (by decide)) 0 1 (by decide) (by decide) (by decide)
  have plain := (auxvRead_iff (by decide) (by decide) false false (by decide) (by decide)
    (by simp)).mp read
  rcases plain with plain | short
  · exact absurd (plain 0x23 (by decide)) (by decide)
  · exact absurd short (by decide)

end DpcppTrace.Soundness
