import Mathlib.Data.List.TakeWhile
import DpcppTrace.Soundness.RemoteCommands

/-! # The handlers do what the client means

The dispatcher finds the handler of every command, behind an acknowledgement or not, and the handler
finds the numbers in the packet. From then on it is the same program as the meaning of the command,
question by question.
-/

namespace DpcppTrace.Soundness

open Foundation Model Pattern

/-- The reply to the packet that turns acknowledgements off still has one. -/
def Command.acked : Command → Bool → Bool
  | .stopAcknowledging, _ => true
  | _, acks => acks

/-- The handler asks what the command means and replies with the text of the result. -/
def CarriesOut (command : Command) : Prop :=
  ∀ (lead : Bool) (high low after : UInt8) (remote : Remote), anyHex high = true →
    anyHex low = true →
      processPacket (packetOf lead false command.body high low) after remote.protocol =
        command.perform remote >>= fun outcome =>
          pure (createResponse (command.render outcome.1) (command.acked remote.acks),
            outcome.2.protocol)

/-! ## Commands without numbers -/

private theorem handles_isAttached : CarriesOut .isAttached := by
  intro lead high low after remote highDigit lowDigit
  have routed : bodyRoute (str "qAttached") = .process_qAttached := by decide
  rw [processPacket, Command.body, route_packetOf highDigit lowDigit, routed]
  rfl

private theorem handles_stopAcknowledging : CarriesOut .stopAcknowledging := by
  intro lead high low after remote highDigit lowDigit
  have routed : bodyRoute (str "QStartNoAckMode") = .process_QStartNoAckMode := by decide
  rw [processPacket, Command.body, route_packetOf highDigit lowDigit, routed]
  rfl

private theorem encodeStopReason_eq (reason : StopReason) :
    encodeStopReason reason = (stopOf reason).render := by
  obtain ⟨type, code⟩ := reason
  cases type <;> rfl

/-- The reply that says why the program stopped. -/
theorem processStatus_eq (remote : Remote) :
    processStatus remote.protocol = whyStopped remote >>= fun outcome =>
      pure (createResponse outcome.1.render remote.acks, outcome.2.protocol) := by
  apply congrArg (Program.call _)
  funext reason
  exact congrArg (fun text => Program.done (createResponse text remote.acks, remote.protocol))
    (encodeStopReason_eq reason)

private theorem handles_stopReason : CarriesOut .stopReason := by
  intro lead high low after remote highDigit lowDigit
  have routed : bodyRoute (str "?") = .processStatus := by decide
  rw [processPacket, Command.body, route_packetOf highDigit lowDigit, routed]
  exact processStatus_eq remote

private theorem handles_currentThread : CarriesOut .currentThread := by
  intro lead high low after remote highDigit lowDigit
  have routed : bodyRoute (str "qC") = .process_qC := by decide
  rw [processPacket, Command.body, route_packetOf highDigit lowDigit, routed]
  rfl

/-- What is not known is replied as an error. -/
theorem respondData_known (data : Bytes) (remote : Remote) :
    respondData data encode remote.protocol =
      pure (createResponse (renderData (known data)) remote.acks, remote.protocol) := by
  rw [respondData, known]
  cases data with
  | nil => rfl
  | cons first rest => rfl

private theorem handles_readRegisters : CarriesOut .readRegisters := by
  intro lead high low after remote highDigit lowDigit
  have routed : bodyRoute (str "g") = .process_g := by decide
  rw [processPacket, Command.body, route_packetOf highDigit lowDigit, routed]
  apply congrArg (Program.call _)
  funext buf
  exact respondData_known buf.data remote

private theorem handles_nextThread (restart : Bool) : CarriesOut (.nextThread restart) := by
  intro lead high low after remote highDigit lowDigit
  have routed : bodyRoute (Command.nextThread restart).body = .process_qfThreadInfo := by
    cases restart <;> decide
  rw [processPacket, route_packetOf highDigit lowDigit, routed]
  apply congrArg (Program.call _)
  funext count
  change (if remote.listed < count then _ else _ : Handler) remote.protocol =
    (if remote.listed < count then _ else _ : Conversation (Option UInt64)) remote >>= _
  split
  · rfl
  · rfl

/-! ## Commands with numbers -/

/-- A command is routed by the first entry that its body fits. -/
theorem bodyRoute_of_entry (count : ℕ) {body : Bytes} {pattern : Pattern UInt8} {target : Route}
    {later : List (Pattern UInt8 × Route)}
    (entry : dispatchTable.drop count = (pattern, target) :: later)
    (skipped : dispatchTable.find? (fun entry => (entry.1.fullMatch body).isSome) =
      (dispatchTable.drop count).find? fun entry => (entry.1.fullMatch body).isSome)
    (fits : (pattern.fullMatch body).isSome = true) : bodyRoute body = target := by
  rw [bodyRoute, skipped, entry, List.find?_cons]
  simp only [fits]

private theorem numeral_hexNumeral (n : ℕ) : Numeral lowerHex (hexNumeral n) :=
  ⟨hexNumeral_ne_nil n, fun _ mem => mem_hexNumeral mem⟩

/-- One number behind the name of a command. -/
theorem fullMatch_number (command : String) {digits : Bytes} (numeral : Numeral lowerHex digits) :
    (text command ++ number).fullMatch (str command ++ digits) = some [digits] := by
  have described {captures : List Bytes} :
      (text command ++ number).Matches (str command ++ digits) captures ↔ captures = [digits] := by
    rw [matches_text_append]
    constructor
    · rintro ⟨rest, same, fits⟩
      rw [(matches_number.mp fits).2, List.append_cancel_left same]
    · rintro rfl
      exact ⟨digits, rfl, matches_number.mpr ⟨numeral, rfl⟩⟩
  exact fullMatch_eq_some (described.mpr rfl) fun others => described.mp

/-- Two numbers behind the name of a command. -/
theorem fullMatch_numbers (command : String) {first second : Bytes}
    (firstNumeral : Numeral lowerHex first) (secondNumeral : Numeral lowerHex second) :
    (text command ++ (number ++ (text "," ++ number))).fullMatch
      (str command ++ (first ++ (str "," ++ second))) = some [first, second] := by
  rw [fullMatch, go_append, text, go_literal_self]
  exact numbers_go firstNumeral.digits firstNumeral.nonempty secondNumeral.digits
    secondNumeral.nonempty

private theorem parseInt32_hexNumeral (n : Fin (2 ^ 31)) : parseInt32 (hexNumeral n) = .ofNat n := by
  have bound : n.1 < 2 ^ 31 := n.2
  have short : ¬(hexNumeral n).length > 4 * 2 :=
    Nat.not_lt.mpr (length_hexNumeral_le (by norm_num) (Nat.lt_trans bound (by norm_num)))
  apply Int32.toBitVec.inj
  apply BitVec.eq_of_toNat_eq
  have value : ((hexNumeral n).foldl pushNibble (0 : BitVec (8 * 4))).toNat = n.1 := by
    rw [hexNumeral]
    split
    · rename_i zero
      rw [zero]
      decide
    · rw [foldl_pushNibble_toNat _ (fun d => Nat.digits_lt_base (by norm_num)), Nat.ofDigits_digits]
      rw [Nat.ofDigits_digits]
      exact Nat.lt_trans bound (by norm_num)
  rw [Int32.toBitVec_ofNat', BitVec.toNat_ofNat, Nat.mod_eq_of_lt (Nat.lt_trans bound (by norm_num))]
  change (parseInt true 4 (hexNumeral n)).toNat = n.1
  rw [parseInt, if_neg short, value]

private theorem handles_selectThread (thread : UInt64) : CarriesOut (.selectThread thread) := by
  intro lead high low after remote highDigit lowDigit
  have captured := threadPattern_front highDigit lowDigit lead (selectBody thread)
  rw [threadBody_selectBody] at captured
  have unsigned : (hexNumeral thread.toNat).head? ≠ some 0x2d := by
    intro same
    exact absurd (mem_hexNumeral (List.mem_of_head? same)) (by decide)
  rw [processPacket, Command.body, route_packetOf highDigit lowDigit, bodyRoute_selectBody]
  change process_H _ _ = _
  rw [process_H, captured]
  change Program.done (_, GDBServerProtocol.mk _ _ (if (hexNumeral thread.toNat).head? = some 0x2d
    then 0 else parseUInt64 (hexNumeral thread.toNat)) _) = _
  rw [if_neg unsigned, parseUInt64_thread]
  rfl

private theorem handles_selectAny : CarriesOut .selectAny := by
  intro lead high low after remote highDigit lowDigit
  have routed : bodyRoute (str "Hg-1") = .process_H := by decide
  have captured := threadPattern_front highDigit lowDigit lead (str "Hg-1")
  have parsed : threadBody.fullMatch (str "Hg-1") = some [str "-1"] := by decide
  rw [parsed] at captured
  rw [processPacket, Command.body, route_packetOf highDigit lowDigit, routed]
  change process_H _ _ = _
  rw [process_H, captured]
  rfl

private theorem handles_readRegister (number : UInt64) : CarriesOut (.readRegister number) := by
  intro lead high low after remote highDigit lowDigit
  have fits : ((text "p" ++ many lowerHex).fullMatch
      (str "p" ++ hexNumeral number.toNat)).isSome = true := by
    apply isSome_fullMatch_iff.mpr
    exact ⟨[], matches_text_append.mpr ⟨_, rfl,
      ⟨hexNumeral_ne_nil _, fun c mem => mem_hexNumeral mem⟩, rfl⟩⟩
  have routed : bodyRoute (str "p" ++ hexNumeral number.toNat) = .process_p :=
    bodyRoute_of_entry 19 rfl rfl fits
  have parsed : registerNumber (packetOf lead false (str "p" ++ hexNumeral number.toNat) high low) =
      number := by
    rw [registerNumber, fullMatch_packetOf highDigit lowDigit,
      fullMatch_number "p" (numeral_hexNumeral _)]
    exact parseUInt64_thread number
  rw [processPacket, Command.body, route_packetOf highDigit lowDigit, routed]
  change process_p _ _ = _
  rw [process_p, parsed]
  apply congrArg (Program.call _)
  funext buf
  exact respondData_known buf.data remote

private theorem handles_readMemory (addr len : UInt64) : CarriesOut (.readMemory addr len) := by
  intro lead high low after remote highDigit lowDigit
  have letter : str "m" = [0x6d] := by decide
  have comma : str "," = [0x2c] := by decide
  have fits : ((text "m" ++ many fun c => anyHex c || c = 0x2c).fullMatch
      (Command.readMemory addr len).body).isSome = true := by
    apply isSome_fullMatch_iff.mpr
    refine ⟨[], matches_text_append.mpr ⟨_, rfl, ⟨?_, fun c mem => ?_⟩, rfl⟩⟩
    · simp [hexNumeral_ne_nil]
    · rw [comma] at mem
      rcases List.mem_append.mp mem with digit | rest
      · simp [anyHex_of_lowerHex (mem_hexNumeral digit)]
      · rcases List.mem_append.mp rest with mark | digit
        · simp [List.mem_singleton.mp mark]
        · simp [anyHex_of_lowerHex (mem_hexNumeral digit)]
  have routed : bodyRoute (Command.readMemory addr len).body = .process_m :=
    bodyRoute_of_entry 10 rfl rfl fits
  have parsed : memoryRange (packetOf lead false (Command.readMemory addr len).body high low) =
      (addr, len) := by
    rw [memoryRange, memoryPattern, fullMatch_packetOf highDigit lowDigit, Command.body, letter,
      fullMatch, go_append, List.singleton_append, go_one_cons]
    have numbers := numbers_go (numeral_hexNumeral addr.toNat).digits (hexNumeral_ne_nil _)
      (numeral_hexNumeral len.toNat).digits (hexNumeral_ne_nil _)
    simp only [numbers, decide_true, Bool.true_or, if_true, parseUInt64_thread]
  have form : (str "$x").isPrefixOf (packetOf lead false (Command.readMemory addr len).body high low) =
      false := by
    rw [Command.body, letter]
    cases lead <;> rfl
  rw [processPacket, route_packetOf highDigit lowDigit, routed]
  change process_m _ _ = _
  rw [process_m, parsed, form]
  change (if len = 0 then _ else _ : Handler) remote.protocol =
    (if len = 0 then _ else _ : Conversation (Option Bytes)) remote >>= _
  split
  · rfl
  · apply congrArg (Program.call _)
    funext buf
    exact respondData_known buf.data remote

private theorem handles_breakpoint (inserts : Bool) (addr kind : UInt64) :
    CarriesOut (.breakpoint inserts addr kind) := by
  intro lead high low after remote highDigit lowDigit
  have nonempty : str "0," ++ (hexNumeral addr.toNat ++ (str "," ++ hexNumeral kind.toNat)) ≠ [] :=
    List.cons_ne_nil _ _
  have captured (command : String) : (breakpointPattern command).fullMatch (packetOf lead false
      (str command ++ (hexNumeral addr.toNat ++ (str "," ++ hexNumeral kind.toNat))) high low) =
        some [hexNumeral addr.toNat, hexNumeral kind.toNat] := by
    rw [breakpointPattern, fullMatch_packetOf highDigit lowDigit]
    exact fullMatch_numbers command (numeral_hexNumeral _) (numeral_hexNumeral _)
  have handler (command : String) (action : UInt64 → Request) :
      processBreakpoint command action (packetOf lead false
        (str command ++ (hexNumeral addr.toNat ++ (str "," ++ hexNumeral kind.toNat))) high low) =
          (do let _ ← ask (action addr)
              respond (str "OK")) := by
    rw [processBreakpoint, captured]
    exact congrArg (fun place : UInt64 => (do
      let _ ← ask (action place)
      respond (str "OK") : Handler)) (parseUInt64_thread addr)
  cases inserts with
  | true =>
    have routed : bodyRoute (Command.breakpoint true addr kind).body = .process_Z :=
      bodyRoute_command "Z" 15 nonempty rfl rfl
    rw [processPacket, route_packetOf highDigit lowDigit, routed]
    change process_Z _ _ = _
    rw [process_Z, Command.body, handler]
    rfl
  | false =>
    have routed : bodyRoute (Command.breakpoint false addr kind).body = .process_z :=
      bodyRoute_command "z" 14 nonempty rfl rfl
    rw [processPacket, route_packetOf highDigit lowDigit, routed]
    change process_z _ _ = _
    rw [process_z, Command.body, handler]
    rfl

/-- A signal and a thread behind the name of a command. -/
theorem fullMatch_signal (command : String) {signal thread : Bytes}
    (signalNumeral : Numeral lowerHex signal) (threadNumeral : Numeral lowerHex thread) :
    (text command ++ (number ++ (text ":" ++ (number ++ optional (text ";c"))))).fullMatch
      (str command ++ (signal ++ (str ":" ++ thread))) = some [signal, thread] := by
  have colon : str ":" = [0x3a] := by decide
  have semicolon : str ";c" = [0x3b, 0x63] := by decide
  have plain {digits : Bytes} (numeral : Numeral lowerHex digits) (c : UInt8)
      (other : lowerHex c = false) : c ∉ digits :=
    fun mem => Bool.false_ne_true (other.symm.trans (numeral.digits _ mem))
  have described {captures : List Bytes} :
      (text command ++ (number ++ (text ":" ++ (number ++ optional (text ";c"))))).Matches
        (str command ++ (signal ++ (str ":" ++ thread))) captures ↔ captures = [signal, thread] := by
    rw [matches_text_append]
    constructor
    · rintro ⟨rest, same, fits⟩
      obtain ⟨signal', left, _, split, first, inner, rfl⟩ :=
        matches_number_append.mp (List.append_cancel_left same ▸ fits)
      obtain ⟨last, behind, numbers⟩ := matches_text_append.mp inner
      rw [behind, colon] at split
      obtain ⟨rfl, rest⟩ := eq_of_separated (plain signalNumeral 0x3a rfl) (plain first 0x3a rfl) split
      change thread = last at rest
      obtain ⟨thread', tail, later, between, second, ending, rfl⟩ := matches_number_append.mp numbers
      rcases ending with option | ⟨rfl, rfl⟩
      · -- A thread has no room for the option.
        obtain ⟨rfl, -⟩ := matches_text.mp option
        have mark : (0x3b : UInt8) ∈ thread := by
          rw [rest, between, semicolon]
          simp
        exact absurd mark (plain threadNumeral 0x3b rfl)
      · rw [List.append_nil] at between
        rw [rest, between]
        rfl
    · rintro rfl
      refine ⟨_, rfl, matches_number_append.mpr ⟨signal, _, [thread], rfl, signalNumeral, ?_, rfl⟩⟩
      refine matches_text_append.mpr ⟨thread, rfl, ?_⟩
      exact matches_number_append.mpr
        ⟨thread, [], [], (List.append_nil _).symm, threadNumeral, .inr ⟨rfl, rfl⟩, rfl⟩
  exact fullMatch_eq_some (described.mpr rfl) fun others => described.mp

/-- The reply once the program has stopped. -/
theorem respondStopped_eq (how : Resumption) (remote : Remote) :
    respondStopped how.request remote.protocol =
      (Command.resume how).perform remote >>= fun outcome =>
        pure (createResponse ((Command.resume how).render outcome.1)
          ((Command.resume how).acked remote.acks), outcome.2.protocol) := by
  apply congrArg (Program.call how.request)
  funext done
  exact processStatus_eq remote

section Resume

variable {lead : Bool} {high low : UInt8}

private theorem resumes_thread (highDigit : anyHex high = true) (lowDigit : anyHex low = true)
    (tid : UInt64) : process_vCont (packetOf lead false (Resumption.thread tid).body high low) =
      respondStopped (Resumption.thread tid).request := by
  have noQuery : (text "vCont?").fullMatch (Resumption.thread tid).body = none := rfl
  have notAll : (text "vCont;c").fullMatch (Resumption.thread tid).body = none := rfl
  have captured : (text "vCont;c:" ++ number).fullMatch (Resumption.thread tid).body =
      some [hexNumeral tid.toNat] := fullMatch_number "vCont;c:" (numeral_hexNumeral _)
  rw [process_vCont]
  simp only [fullMatch_packetOf highDigit lowDigit, noQuery, notAll, captured]
  change respondStopped (.resume 0 (parseUInt64 (hexNumeral tid.toNat))) = _
  rw [parseUInt64_thread]
  rfl

private theorem resumes_threadWithSignal (highDigit : anyHex high = true)
    (lowDigit : anyHex low = true) (signal : Fin (2 ^ 31)) (tid : UInt64) :
    process_vCont (packetOf lead false (Resumption.threadWithSignal signal tid).body high low) =
      respondStopped (Resumption.threadWithSignal signal tid).request := by
  have noQuery : (text "vCont?").fullMatch (Resumption.threadWithSignal signal tid).body = none := rfl
  have notAll : (text "vCont;c").fullMatch (Resumption.threadWithSignal signal tid).body = none := rfl
  have noThread : (text "vCont;c:" ++ number).fullMatch
      (Resumption.threadWithSignal signal tid).body = none := rfl
  have captured := fullMatch_signal "vCont;C" (numeral_hexNumeral signal.1)
    (numeral_hexNumeral tid.toNat)
  change Pattern.fullMatch _ (Resumption.threadWithSignal signal tid).body = _ at captured
  rw [process_vCont]
  simp only [signalPattern, fullMatch_packetOf highDigit lowDigit, noQuery, notAll, noThread, captured]
  change respondStopped (.resume (parseInt32 (hexNumeral signal)) (parseUInt64 (hexNumeral tid.toNat))) = _
  rw [parseUInt64_thread, parseInt32_hexNumeral]
  rfl

private theorem resumes_step (highDigit : anyHex high = true) (lowDigit : anyHex low = true)
    (tid : UInt64) : process_vCont (packetOf lead false (Resumption.step tid).body high low) =
      respondStopped (Resumption.step tid).request := by
  have noQuery : (text "vCont?").fullMatch (Resumption.step tid).body = none := rfl
  have notAll : (text "vCont;c").fullMatch (Resumption.step tid).body = none := rfl
  have noThread : (text "vCont;c:" ++ number).fullMatch (Resumption.step tid).body = none := rfl
  have noSignal : (text "vCont;C" ++ (number ++ (text ":" ++ (number ++
      optional (text ";c"))))).fullMatch (Resumption.step tid).body = none := rfl
  have captured : (text "vCont;s:" ++ number).fullMatch (Resumption.step tid).body =
      some [hexNumeral tid.toNat] := fullMatch_number "vCont;s:" (numeral_hexNumeral _)
  rw [process_vCont]
  simp only [signalPattern, fullMatch_packetOf highDigit lowDigit, noQuery, notAll, noThread,
    noSignal, captured]
  change respondStopped (.stepInstruction (parseUInt64 (hexNumeral tid.toNat)) 0) = _
  rw [parseUInt64_thread]
  rfl

private theorem resumes_stepWithSignal (highDigit : anyHex high = true)
    (lowDigit : anyHex low = true) (signal : Fin (2 ^ 31)) (tid : UInt64) :
    process_vCont (packetOf lead false (Resumption.stepWithSignal signal tid).body high low) =
      respondStopped (Resumption.stepWithSignal signal tid).request := by
  have noQuery : (text "vCont?").fullMatch (Resumption.stepWithSignal signal tid).body = none := rfl
  have notAll : (text "vCont;c").fullMatch (Resumption.stepWithSignal signal tid).body = none := rfl
  have noThread : (text "vCont;c:" ++ number).fullMatch
      (Resumption.stepWithSignal signal tid).body = none := rfl
  have noSignal : (text "vCont;C" ++ (number ++ (text ":" ++ (number ++
      optional (text ";c"))))).fullMatch (Resumption.stepWithSignal signal tid).body = none := rfl
  have noStep : (text "vCont;s:" ++ number).fullMatch
      (Resumption.stepWithSignal signal tid).body = none := rfl
  have captured := fullMatch_signal "vCont;S" (numeral_hexNumeral signal.1)
    (numeral_hexNumeral tid.toNat)
  change Pattern.fullMatch _ (Resumption.stepWithSignal signal tid).body = _ at captured
  rw [process_vCont]
  simp only [signalPattern, fullMatch_packetOf highDigit lowDigit, noQuery, notAll, noThread,
    noSignal, noStep, captured]
  change respondStopped (.stepInstruction (parseUInt64 (hexNumeral tid.toNat))
    (parseInt32 (hexNumeral signal))) = _
  rw [parseUInt64_thread, parseInt32_hexNumeral]
  rfl

/-- Only one of the packets that let the program go on is not handled here. -/
private theorem processPacket_resume (highDigit : anyHex high = true) (lowDigit : anyHex low = true)
    (how : Resumption) (other : how ≠ .all) (after : UInt8) :
    processPacket (packetOf lead false how.body high low) after =
      process_vCont (packetOf lead false how.body high low) := by
  have routed : bodyRoute how.body = .process_vCont := by
    cases how with
    | all => exact absurd rfl other
    | everyThread => decide
    | thread | threadWithSignal | step | stepWithSignal =>
      exact bodyRoute_command "vCont" 16 (List.cons_ne_nil _ _) rfl rfl
  rw [processPacket, route_packetOf highDigit lowDigit, routed]

end Resume

private theorem handles_resume (how : Resumption) : CarriesOut (.resume how) := by
  intro lead high low after remote highDigit lowDigit
  rw [← respondStopped_eq, Command.body]
  cases how with
  | all =>
    have routed : bodyRoute (str "c") = .process_c := by decide
    rw [processPacket, Resumption.body, route_packetOf highDigit lowDigit, routed]
    rfl
  | everyThread =>
    rw [processPacket_resume highDigit lowDigit .everyThread (by simp), process_vCont,
      fullMatch_packetOf highDigit lowDigit, fullMatch_packetOf highDigit lowDigit]
    rfl
  | thread tid =>
    rw [processPacket_resume highDigit lowDigit (.thread tid) (by simp), resumes_thread highDigit lowDigit]
  | threadWithSignal signal tid =>
    rw [processPacket_resume highDigit lowDigit (.threadWithSignal signal tid) (by simp),
      resumes_threadWithSignal highDigit lowDigit]
  | step tid =>
    rw [processPacket_resume highDigit lowDigit (.step tid) (by simp), resumes_step highDigit lowDigit]
  | stepWithSignal signal tid =>
    rw [processPacket_resume highDigit lowDigit (.stepWithSignal signal tid) (by simp),
      resumes_stepWithSignal highDigit lowDigit]

/-- A result is replied with its sign. -/
theorem respondResult_eq (res : Int32) (remote : Remote) :
    respondResult res remote.protocol =
      pure (createResponse (renderResult res) remote.acks, remote.protocol) := by
  rw [respondResult, renderResult]
  split
  · rfl
  · rfl

/-- The path and its two numbers; the last two commas end the path. -/
theorem fullMatch_open (path : Bytes) {flags mode : Bytes} (nonempty : path ≠ [])
    (flagsNumeral : Numeral lowerHex flags) (modeNumeral : Numeral lowerHex mode)
    (plain : 0x2c ∉ path) :
    (text "vFile:open:" ++ (group (many anyChar) ++ (text "," ++ (number ++
      (text "," ++ number))))).fullMatch
        (str "vFile:open:" ++ (path ++ 0x2c :: (flags ++ 0x2c :: mode))) =
      some [path, flags, mode] := by
  have comma : str "," = [0x2c] := by decide
  have described {captures : List Bytes} :
      (text "vFile:open:" ++ (group (many anyChar) ++ (text "," ++ (number ++
        (text "," ++ number))))).Matches
          (str "vFile:open:" ++ (path ++ 0x2c :: (flags ++ 0x2c :: mode))) captures ↔
        captures = [path, flags, mode] := by
    rw [matches_text_append]
    constructor
    · rintro ⟨rest, same, fits⟩
      rw [← List.append_cancel_left same, matches_append] at fits
      obtain ⟨path', left, _, _, split, ⟨_, ⟨-, rfl⟩, rfl⟩, inner, rfl⟩ := fits
      obtain ⟨numbers, behind, last⟩ := matches_text_append.mp inner
      obtain ⟨flags', mode', between, first, second, rfl⟩ := matches_numbers.mp last
      rw [behind, comma, between] at split
      -- There are two commas, so the front that the pattern takes has none.
      have marks := congrArg (List.count 0x2c) split
      have absent {digits : Bytes} (numeral : Numeral lowerHex digits) : List.count 0x2c digits = 0 :=
        List.count_eq_zero_of_not_mem (numeral.comma_notMem rfl)
      simp only [List.count_append, List.count_cons_self, List.singleton_append, absent flagsNumeral,
        absent modeNumeral, absent first, absent second, List.count_eq_zero_of_not_mem plain] at marks
      have plain' : 0x2c ∉ path' := List.count_eq_zero.mp (by omega)
      obtain ⟨rfl, rest⟩ := eq_of_separated plain plain' split
      obtain ⟨rfl, rfl⟩ := eq_of_separated (flagsNumeral.comma_notMem rfl) (first.comma_notMem rfl) rest
      rfl
    · rintro rfl
      refine ⟨_, rfl, matches_append.mpr ⟨path, _, [path], [flags, mode], rfl, ?_, ?_, rfl⟩⟩
      · exact ⟨[], ⟨⟨nonempty, fun _ _ => rfl⟩, rfl⟩, rfl⟩
      · exact matches_text_append.mpr ⟨_, by rw [comma]; rfl,
          matches_numbers.mpr ⟨flags, mode, rfl, flagsNumeral, modeNumeral, rfl⟩⟩
  exact fullMatch_eq_some (described.mpr rfl) fun others => described.mp

private theorem handles_openFile (name : Bytes) (flags mode : Fin (2 ^ 31))
    (valid : name ≠ [] ∧ 0 ∉ name) : CarriesOut (.openFile name flags mode valid) := by
  intro lead high low after remote highDigit lowDigit
  have routed : bodyRoute (Command.openFile name flags mode valid).body = .process_vFile :=
    bodyRoute_command "vFile" 17 (List.cons_ne_nil _ _) rfl rfl
  have noSetfs : (text "vFile:setfs:" ++ many anyChar).fullMatch
      (Command.openFile name flags mode valid).body = none := rfl
  have nonempty : encode name ≠ [] := by
    intro nothing
    have widths := encode_length name
    rw [nothing] at widths
    exact valid.1 (List.length_eq_zero_iff.mp (by simpa using widths.symm))
  have plain : 0x2c ∉ encode name := fun mem => absurd (mem_encode mem) (by decide)
  have captured := fullMatch_open (encode name) nonempty (numeral_hexNumeral flags.1)
    (numeral_hexNumeral mode.1) plain
  have paired : Even (encode name).length := by
    rw [encode_length]
    exact even_two_mul name.length
  have decoded : (decodeString (encode name)).takeWhile (· ≠ 0) = name := by
    rw [← decode_eq_decodeString 0 paired, decode_encode]
    apply List.takeWhile_eq_self_iff.mpr
    exact fun c mem => decide_eq_true fun zero => valid.2 (zero ▸ mem)
  rw [processPacket, route_packetOf highDigit lowDigit, routed]
  change process_vFile _ _ = _
  rw [process_vFile, fullMatch_packetOf highDigit lowDigit, noSetfs]
  simp only [Command.body, fullMatch_packetOf highDigit lowDigit, captured]
  change vFileOpen (encode name) (hexNumeral flags) (hexNumeral mode) _ = _
  rw [vFileOpen, decoded, parseInt32_hexNumeral, parseInt32_hexNumeral]
  apply congrArg (Program.call _)
  funext res
  exact respondResult_eq res remote

private theorem handles_closeFile (fd : Fin (2 ^ 31)) : CarriesOut (.closeFile fd) := by
  intro lead high low after remote highDigit lowDigit
  have routed : bodyRoute (Command.closeFile fd).body = .process_vFile :=
    bodyRoute_command "vFile" 17 (List.cons_ne_nil _ _) rfl rfl
  have noSetfs : ((text "vFile:setfs:" ++ many anyChar).fullMatch
      (str "vFile:close:" ++ hexNumeral fd)) = none := rfl
  have noOpen : ((text "vFile:open:" ++ (group (many anyChar) ++ (text "," ++ (number ++
      (text "," ++ number))))).fullMatch (str "vFile:close:" ++ hexNumeral fd)) = none := rfl
  have unsigned : (hexNumeral fd).head? ≠ some 0x2d := by
    intro same
    exact absurd (mem_hexNumeral (List.mem_of_head? same)) (by decide)
  rw [processPacket, route_packetOf highDigit lowDigit, routed]
  change process_vFile _ _ = _
  have captured := fullMatch_number "vFile:close:" (numeral_hexNumeral fd.1)
  rw [process_vFile, Command.body, fullMatch_packetOf highDigit lowDigit, noSetfs]
  simp only [fullMatch_packetOf highDigit lowDigit, noOpen, captured]
  change vFileClose (hexNumeral fd) _ = _
  rw [vFileClose, if_neg unsigned, List.drop_zero, parseInt32_hexNumeral]
  apply congrArg (Program.call _)
  funext res
  exact respondResult_eq res remote

/-- What is left of a buffer is as long as its length says. -/
theorem length_counted {buf : Bytes} (positive : ¬Int32.ofNat buf.length < 0) :
    Int32.ofNat (buf.take (Int32.ofNat buf.length).toNatClampNeg).length = Int32.ofNat buf.length := by
  have within : (Int32.ofNat buf.length).toNatClampNeg ≤ buf.length := by
    rw [← Int32.toNat_toBitVec_of_le (Int32.not_lt.mp positive), Int32.toBitVec_ofNat',
      BitVec.toNat_ofNat]
    exact Nat.mod_le _ _
  rw [List.length_take, Nat.min_eq_left within]
  exact Int32.ofNat_toNatClampNeg _ (Int32.not_lt.mp positive)

private theorem handles_readFile (fd : Fin (2 ^ 31)) (count offset : UInt64) :
    CarriesOut (.readFile fd count offset) := by
  intro lead high low after remote highDigit lowDigit
  rw [Command.body, processPacket_pread highDigit lowDigit lead false (numeral_hexNumeral fd)
    (numeral_hexNumeral count.toNat) (numeral_hexNumeral offset.toNat), vFilePread,
    parseUInt64_thread, parseUInt64_thread, parseInt32_hexNumeral]
  change (if 0x8000000000000000 ≤ count then _ else _ : Handler) remote.protocol =
    (if 0x8000000000000000 ≤ count then _ else _ : Conversation FileData) remote >>= _
  split
  · rfl
  · apply congrArg (Program.call _)
    funext allocated
    cases allocated with
    | false => rfl
    | true =>
      apply congrArg (Program.call _)
      funext outcome
      cases outcome with
      | none => rfl
      | some buf =>
        change (if Int32.ofNat buf.length < 0 then _ else _ : Handler) remote.protocol =
          handOver (counted buf) remote >>= _
        rw [counted]
        split
        · rfl
        · rename_i positive
          apply congrArg (fun res : Int32 => (Program.done (createResponse (str "F" ++
            encodeInt 4 res.toBitVec ++ str ";" ++
              escape (buf.take (Int32.ofNat buf.length).toNatClampNeg)) remote.acks,
                remote.protocol) : Program Request.Answer (Bytes × GDBServerProtocol)))
          exact (length_counted positive).symm

theorem Command.handles (command : Command) : CarriesOut command := by
  cases command with
  | isAttached => exact handles_isAttached
  | stopAcknowledging => exact handles_stopAcknowledging
  | stopReason => exact handles_stopReason
  | selectThread thread => exact handles_selectThread thread
  | selectAny => exact handles_selectAny
  | currentThread => exact handles_currentThread
  | nextThread restart => exact handles_nextThread restart
  | readRegisters => exact handles_readRegisters
  | readRegister number => exact handles_readRegister number
  | readMemory addr len => exact handles_readMemory addr len
  | breakpoint inserts addr kind => exact handles_breakpoint inserts addr kind
  | resume how => exact handles_resume how
  | openFile name flags mode valid => exact handles_openFile name flags mode valid
  | closeFile fd => exact handles_closeFile fd
  | readFile fd count offset => exact handles_readFile fd count offset

end DpcppTrace.Soundness
