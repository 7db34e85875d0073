import DpcppTrace.Soundness.ThreadSelection

/-! # Reading one register

The target description announces the registers under their places in the list, and a `p` packet asks
for one by that number. The debugger refuses numbers behind the count of the registers; the count
itself passes, but no register has it as its number.
-/

namespace DpcppTrace.Soundness

open Foundation Model Pattern

variable {τ : Type} {process : LLDBProcess τ} {others : Environment Request.Answer τ}
  {after : Bytes → UInt8} {protocol : GDBServerProtocol} {debugger : τ} {thread : UInt64}
  {packet : Bytes}

/-- A register is announced under its place. -/
theorem mem_announcedRegisters {registers : List RegisterInfo} {n : ℕ} {regInfo : RegisterInfo} :
    (n, regInfo) ∈ announcedRegisters registers ↔ registers[n]? = some regInfo := by
  simp only [announcedRegisters, List.mem_mapIdx, List.getElem?_eq_some_iff, Prod.mk.injEq]
  constructor
  · rintro ⟨place, inside, rfl, same⟩
    exact ⟨inside, same⟩
  · rintro ⟨inside, same⟩
    exact ⟨n, inside, rfl, same⟩

/-- The description of a register takes some room, so there are fewer registers than a `size_t` can
count. -/
theorem count_lt (process : LLDBProcess τ) (debugger : τ) :
    (process.registers debugger).length < 2 ^ 64 - 1 := by
  have elements (announced : List (ℕ × RegisterInfo)) :
      announced.length ≤ (announced.flatMap registerElement).length := by
    induction announced with
    | nil => exact le_rfl
    | cons first rest ih =>
      have positive : 0 < (registerElement first).length := by
        rw [registerElement, List.length_append]
        exact Nat.add_pos_right _ (by decide)
      rw [List.flatMap_cons, List.length_append, List.length_cons]
      omega
  have printable := process.printable debugger
  have described := elements (announcedRegisters (process.registers debugger))
  have counted : (announcedRegisters (process.registers debugger)).length =
      (process.registers debugger).length := List.length_mapIdx
  have closing : (str "</feature>\n</target>").length = 20 := by decide
  simp only [targetXML, List.length_append, closing] at printable
  omega

/-- The digits of a `p` packet, all of which the handler parses. -/
theorem registerNumber_of_route (routed : route packet = .process_p) :
    (∀ c ∈ (bodyOf packet).tail, lowerHex c = true) ∧
      registerNumber packet = parseUInt64 (bodyOf packet).tail := by
  obtain ⟨lead, trail, high, low, highDigit, lowDigit, framed, pattern, captures, member, fits⟩ :=
    body_of_route routed (by decide)
  obtain rfl : pattern = text "p" ++ many lowerHex := by simpa [dispatchTable] using member
  obtain ⟨digits, body, ⟨nonempty, hex⟩, -⟩ := matches_text_append.mp fits
  have tail : (bodyOf packet).tail = digits := by
    rw [body]
    rfl
  have described {others : List Bytes} :
      (text "p" ++ number).Matches (bodyOf packet) others ↔ others = [digits] := by
    rw [matches_text_append]
    constructor
    · rintro ⟨rest, same, number⟩
      rw [(matches_number.mp number).2, List.append_cancel_left (body.symm.trans same)]
    · rintro rfl
      exact ⟨digits, body, matches_number.mpr ⟨⟨nonempty, hex⟩, rfl⟩⟩
  have parsed := fullMatch_eq_some (described.mpr rfl) fun others => described.mp
  refine ⟨tail ▸ hex, ?_⟩
  rw [tail, registerNumber, framed, fullMatch_packetOf highDigit lowDigit, parsed]

/-- The reply is what the debugger reads; none when the debugger ends. -/
theorem observed_p (routed : route packet = .process_p) :
    observed (handled (process.environment others) (.ok debugger) protocol after packet) =
      match process.readRegister debugger protocol.mCurrentThreadIndex (registerNumber packet) with
      | .ok data => some (if data.data = [] then str "E01" else encode data.data)
      | .error _ => none := by
  have ran : handled (process.environment others) (.ok debugger) protocol after packet =
      ((ask (.readRegister protocol.mCurrentThreadIndex (registerNumber packet)) >>=
        fun data : Buffer => respondData data.data encode) protocol).run
          (process.environment others) (.ok debugger) := by
    rw [handled, processPacket, routed]
    rfl
  rw [ran, run_ask]
  simp only [LLDBProcess.environment_readRegister]
  cases process.readRegister debugger protocol.mCurrentThreadIndex (registerNumber packet) with
  | error fault => rfl
  | ok data =>
    simp only [LLDBProcess.finish, run_respondData]
    apply receive_createResponse
    split
    · decide
    · exact clean_encode _

/-- The register of the thread that is announced under the packet's number is shown, or that it
cannot be read; a number that no register has is refused. -/
structure RegisterAnswered (process : LLDBProcess τ) (others : Environment Request.Answer τ)
    (after : Bytes → UInt8) (protocol : GDBServerProtocol) (debugger : τ) (thread : UInt64)
    (packet : Bytes) : Prop where
  announced : ∀ regInfo, (hexValue (bodyOf packet).tail, regInfo) ∈
      announcedRegisters (process.registers debugger) →
    observed (handled (process.environment others) (.ok debugger) protocol after packet) =
      some (match process.ReadRegister debugger thread regInfo with
        | some value => encode value.1
        | none => str "E01")
  missing : (process.registers debugger).length ≤ hexValue (bodyOf packet).tail →
    observed (handled (process.environment others) (.ok debugger) protocol after packet) =
      some (str "E01")

/-- The register of the thread cannot be read, or has contents to show. -/
def Shown (process : LLDBProcess τ) (debugger : τ) (thread : UInt64) (regInfo : RegisterInfo) : Prop :=
  process.ReadRegister debugger thread regInfo = none ∨ 0 < regInfo.byte_size

/-- A number of up to sixteen digits is not the count of the registers, and its register has contents;
the register of a longer one cannot be read. -/
structure NumberServed (process : LLDBProcess τ) (debugger : τ) (thread : UInt64) (digits : Bytes) :
    Prop where
  short : digits.length ≤ 16 → hexValue digits ≠ (process.registers debugger).length ∧
    ∀ regInfo, (process.registers debugger)[hexValue digits]? = some regInfo →
      Shown process debugger thread regInfo
  long : 16 < digits.length →
    ∀ regInfo, (process.registers debugger)[hexValue digits]? = some regInfo →
      process.ReadRegister debugger thread regInfo = none

/-- What is shown of a register: nothing is shown of one without contents. -/
def shownRegister (process : LLDBProcess τ) (debugger : τ) (thread : UInt64) (regInfo : RegisterInfo) :
    Bytes :=
  match process.ReadRegister debugger thread regInfo with
  | some value => if value.1 = [] then str "E01" else encode value.1
  | none => str "E01"

variable (others after) in
private theorem observed_number (routed : route packet = .process_p)
    (selected : process.findThread debugger protocol.mCurrentThreadIndex = some thread) :
    observed (handled (process.environment others) (.ok debugger) protocol after packet) =
      if (registerNumber packet).toNat > (process.registers debugger).length then some (str "E01")
      else (process.registers debugger)[(registerNumber packet).toNat]?.map
        (shownRegister process debugger thread) := by
  rw [observed_p routed, LLDBProcess.readRegister, selected]
  dsimp only
  by_cases beyond : (registerNumber packet).toNat > (process.registers debugger).length
  · rw [if_pos beyond, if_pos beyond]
    rfl
  · rw [if_neg beyond, if_neg beyond]
    cases (process.registers debugger)[(registerNumber packet).toNat]? with
    | none => rfl
    | some regInfo =>
      rw [Option.map_some, shownRegister]
      dsimp only
      cases process.ReadRegister debugger thread regInfo with
      | none => rfl
      | some value => rfl

/-- What is shown is right unless the register has no contents. -/
theorem shown_eq_iff (regInfo : RegisterInfo) :
    shownRegister process debugger thread regInfo =
        (match process.ReadRegister debugger thread regInfo with
          | some value => encode value.1
          | none => str "E01") ↔
      Shown process debugger thread regInfo := by
  rw [shownRegister, Shown]
  cases process.ReadRegister debugger thread regInfo with
  | none => simp
  | some value =>
    have width := value.2
    by_cases empty : value.1 = []
    · rw [empty, List.length_nil] at width
      simp only [empty, if_true]
      exact iff_of_false (by decide) (by simp [← width])
    · have positive := List.length_pos_iff.mpr empty
      rw [width] at positive
      simp [empty, positive]

/-- A number of up to sixteen digits is looked up as it is. -/
theorem registerAnswered_short (routed : route packet = .process_p)
    (selected : process.findThread debugger protocol.mCurrentThreadIndex = some thread)
    (short : (bodyOf packet).tail.length ≤ 16) :
    RegisterAnswered process others after protocol debugger thread packet ↔
      hexValue (bodyOf packet).tail ≠ (process.registers debugger).length ∧
        ∀ regInfo, (process.registers debugger)[hexValue (bodyOf packet).tail]? = some regInfo →
          Shown process debugger thread regInfo := by
  obtain ⟨hex, parsed⟩ := registerNumber_of_route routed
  have number : (registerNumber packet).toNat = hexValue (bodyOf packet).tail := by
    rw [parsed, parseUInt64_toNat hex, if_pos short]
  have seen := observed_number others after routed selected
  rw [number] at seen
  constructor
  · intro answered
    refine ⟨fun count => ?_, fun regInfo here => ?_⟩
    · have refused := answered.missing count.ge
      rw [seen, if_neg (by omega), List.getElem?_eq_none_iff.mpr count.ge] at refused
      cases refused
    · have inside := (List.getElem?_eq_some_iff.mp here).1
      have told := answered.announced regInfo (mem_announcedRegisters.mpr here)
      rw [seen, if_neg (by omega), here, Option.map_some, Option.some_inj] at told
      exact (shown_eq_iff regInfo).mp told
  · rintro ⟨other, readable⟩
    constructor
    · intro regInfo member
      have here := mem_announcedRegisters.mp member
      have inside := (List.getElem?_eq_some_iff.mp here).1
      rw [seen, if_neg (by omega), here, Option.map_some, (shown_eq_iff regInfo).mpr (readable regInfo here)]
    · intro behind
      rw [seen, if_pos (by omega)]

/-- A longer number is taken for the largest one, which no register has. -/
theorem registerAnswered_long (routed : route packet = .process_p)
    (selected : process.findThread debugger protocol.mCurrentThreadIndex = some thread)
    (long : 16 < (bodyOf packet).tail.length) :
    RegisterAnswered process others after protocol debugger thread packet ↔
      ∀ regInfo, (process.registers debugger)[hexValue (bodyOf packet).tail]? = some regInfo →
        process.ReadRegister debugger thread regInfo = none := by
  obtain ⟨hex, parsed⟩ := registerNumber_of_route routed
  have number : (registerNumber packet).toNat = 2 ^ 64 - 1 := by
    rw [parsed, parseUInt64_toNat hex, if_neg (by omega)]
  have count := count_lt process debugger
  have seen := observed_number others after routed selected
  rw [number, if_pos (by omega)] at seen
  constructor
  · intro answered regInfo here
    have told := answered.announced regInfo (mem_announcedRegisters.mpr here)
    rw [seen, Option.some_inj] at told
    cases read : process.ReadRegister debugger thread regInfo with
    | none => rfl
    | some value =>
      rw [read] at told
      change str "E01" = encode value.1 at told
      have member : (0x45 : UInt8) ∈ encode value.1 := by
        rw [← told]
        decide
      exact absurd (mem_encode member) (by decide)
  · intro unreadable
    constructor
    · intro regInfo member
      rw [seen, unreadable regInfo (mem_announcedRegisters.mp member)]
    · exact fun _ => seen

/-- A `p` packet is answered with the register announced under its number, and refused when there is
none, exactly if the number is not cut, is not the count of the registers, and its register is not
empty; or if it is cut and has no register that can be read. -/
theorem register_answered_iff (process : LLDBProcess τ) (others : Environment Request.Answer τ)
    (after : Bytes → UInt8) (protocol : GDBServerProtocol) (debugger : τ) (thread : UInt64)
    (packet : Bytes) (routed : route packet = .process_p)
    (selected : process.findThread debugger protocol.mCurrentThreadIndex = some thread) :
    RegisterAnswered process others after protocol debugger thread packet ↔
      NumberServed process debugger thread (bodyOf packet).tail := by
  rcases Nat.lt_or_ge 16 (bodyOf packet).tail.length with long | short
  · rw [registerAnswered_long routed selected long]
    exact ⟨fun unreadable => ⟨fun short => absurd short (by omega), fun _ => unreadable⟩,
      fun served => served.long long⟩
  · rw [registerAnswered_short routed selected short]
    exact ⟨fun readable => ⟨fun _ => readable, fun long => absurd long (by omega)⟩,
      fun served => served.short short⟩

/-- The register `rip`, at the start of the image. -/
def rip : RegisterInfo where
  name := str "rip"
  alt_name := some (str "pc")
  byte_size := 8
  byte_offset := 0
  encoding := .uint
  format := .hex
  value_regs := false
  fits := Nat.lt_of_le_of_lt (Nat.le_refl 8) (Nat.lt_trans (Nat.lt_succ_self 8) (by norm_num))

private theorem rip_sized : (targetXML [] [rip]).length < 2 ^ 64 := by decide +kernel

/-- One thread with one register, which is zero. -/
def oneRegister : LLDBProcess Unit :=
  listedProcess [1] (Nat.lt_trans (by decide : 1 < 2) (by norm_num)) [rip] rip_sized
    fun regInfo => some ⟨List.replicate regInfo.byte_size 0, List.length_replicate⟩

/-- Register zero is shown. -/
theorem register_answered_iff_zero :
    RegisterAnswered oneRegister (objectsDebugger default default default) (fun _ => 0) {} () 1
      (str "$p0#a0") := by
  refine (register_answered_iff oneRegister _ (fun _ => 0) {} () 1 (str "$p0#a0") (by decide) rfl).mpr
    ⟨fun _ => ⟨by decide, fun regInfo here => .inr ?_⟩, fun long => absurd long (by decide)⟩
  obtain rfl := Option.some.inj here
  decide

/-- Register one, of a process with one register, ends the debugger. -/
theorem not_register_answered :
    ¬∀ (process : LLDBProcess Unit) (packet : Bytes) (thread : UInt64), route packet = .process_p →
      process.findThread () 0 = some thread →
        RegisterAnswered process (objectsDebugger default default default) (fun _ => 0) {} () thread
          packet := by
  intro always
  have refused := (always oneRegister (str "$p1#a1") 1 (by decide) rfl).missing (by decide)
  rw [observed_p (by decide)] at refused
  exact absurd refused (by decide)

end DpcppTrace.Soundness
