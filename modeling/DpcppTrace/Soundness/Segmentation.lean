import DpcppTrace.Model.DebugServer
import DpcppTrace.Soundness.ReplyFrame

/-! # Packets and reads

The server treats every read as one packet. Reads that hold one packet each, up to the packet that
stops the server, are handled as the client means them; a stream that is cut elsewhere is not put
together again. Where every request is answered, counting the frames of the replies shows that no
other reads are handled alike, and no stream of requests survives being delivered byte by byte.
-/

namespace DpcppTrace.Soundness

open Foundation Model Pattern

/-- A request packet whose body has at most the advertised number of characters. -/
def IsRequest (packet : Bytes) : Prop :=
  ∃ body high low, body.length ≤ 16384 ∧ anyHex high = true ∧ anyHex low = true ∧
    packet = packetOf false false body high low

/-- The reads deliver exactly the bytes of the packets. -/
structure Cut (packets reads : List Bytes) : Prop where
  delivers : reads.flatten = packets.flatten
  sized : ∀ read ∈ reads, 1 ≤ read.length ∧ read.length ≤ readSize

/-- The same replies on the wire, the same calls and the same final protocol state. -/
structure Same {σ : Type} (first second : Session σ) : Prop where
  replies : first.replies = second.replies
  calls : first.calls = second.calls
  protocol : first.protocol = second.protocol

/-! ## Reads that hold one packet each -/

section Aligned

variable {σ : Type} {environment : Environment Request.Answer σ}

/-- Nothing is read behind a packet that stops the server. -/
theorem run_stop {last : Bytes} (stops : route last = .stop) (reads : List Bytes) (buf : Memory)
    (protocol : GDBServerProtocol) (state : σ) :
    DebugServer.run environment (last :: reads) buf protocol state =
      ⟨[], [], state, { protocol with mRunning := false }, false⟩ := by
  simp only [DebugServer.run, processPacket, stops]
  rfl

/-- Whatever follows the packet that stops the server makes no difference. -/
theorem run_append_stop {last : Bytes} (stops : route last = .stop) (front reads : List Bytes)
    (buf : Memory) (protocol : GDBServerProtocol) (state : σ) :
    DebugServer.run environment (front ++ last :: reads) buf protocol state =
      DebugServer.run environment (front ++ [last]) buf protocol state := by
  induction front generalizing buf protocol state with
  | nil => exact (run_stop stops reads buf protocol state).trans (run_stop stops [] _ _ _).symm
  | cons message front ih => simp only [List.cons_append, DebugServer.run, ih]

end Aligned

/-! ## Bytes delivered one at a time -/

/-- Nothing shorter than a packet matches a pattern of packets. -/
theorem fullMatch_short (pattern : Pattern UInt8) {message : Bytes} (short : message.length < 3) :
    (packetPattern pattern).fullMatch message = none := by
  have refuses : ∀ rest, rest <:+ message → packetTrailer.go rest atEnd = none := by
    intro rest suffix
    by_contra matched
    obtain ⟨captures, matched⟩ := Option.ne_none_iff_exists'.mp matched
    have width := suffix.length_le
    rcases (packetTrailer_some matched).2 with three | ⟨four, -⟩ <;> omega
  exact go_eq_none (packetStart ++ pattern) refuses

private theorem findRoute_short {message : Bytes} (short : message.length < 3)
    (table : List (Pattern UInt8 × Route)) : findRoute message table = none := by
  induction table with
  | nil => rfl
  | cons entry table ih =>
    rw [findRoute, fullMatch_short entry.1 short, ih]
    rfl

private theorem route_byte (c : UInt8) :
    route [c] = if c = 0x2b then .processAck else .processUnsupported := by
  have plus : str "+" = [0x2b] := by decide
  have short : ([c] : Bytes).length < 3 := by simp
  rw [route, findRoute_short short, plus, fullMatch_short _ short]
  simp

/-- What the server replies to a single byte. -/
def byteReply (ack : Bool) (c : UInt8) : Bytes :=
  if c = 0x2b then (if ack then str "+" else []) else createResponse [] ack

section Bytewise

variable {σ : Type} {environment : Environment Request.Answer σ}

private theorem run_byte (c : UInt8) (after : UInt8) (protocol : GDBServerProtocol) (state : σ) :
    (processPacket [c] after protocol).run environment state =
      ⟨[], state, some (byteReply protocol.mAck c, protocol)⟩ := by
  rw [processPacket, route_byte, byteReply]
  split <;> rfl

/-- Bytes that arrive one at a time are answered one at a time, and nothing else happens. -/
theorem run_bytes {protocol : GDBServerProtocol} (running : protocol.mRunning = true)
    (bytes : Bytes) (buf : Memory) (state : σ) :
    DebugServer.run environment (bytes.map fun c => [c]) buf protocol state =
      ⟨bytes.flatMap (byteReply protocol.mAck), [], state, protocol, false⟩ := by
  induction bytes generalizing buf with
  | nil => rfl
  | cons c bytes ih =>
    rw [List.map_cons, DebugServer.run]
    simp only [run_byte, running, if_true, ih]
    rfl

end Bytewise

/-! ## Counting frames -/

/-- The number of frames in what the server writes, as long as no payload holds a `$`. -/
def frames (replies : Bytes) : ℕ := replies.count 0x24

private theorem frames_createResponse {response : Bytes} (plain : 0x24 ∉ response) (ack : Bool) :
    frames (createResponse response ack) = 1 := by
  have payload : response.count 0x24 = 0 := List.count_eq_zero.mpr plain
  have digits : (sumDigits response).count 0x24 = 0 := List.count_eq_zero.mpr fun mem => by
    have digit : ∀ d < 16, hexCharacter d ≠ 0x24 := by decide
    simp only [sumDigits, List.mem_cons, List.not_mem_nil, or_false] at mem
    rcases mem with same | same
    · exact digit _ (by omega) same.symm
    · exact digit _ (by omega) same.symm
  rw [frames, createResponse_eq]
  cases ack <;> simp [payload, digits]

private theorem frames_bytes (ack : Bool) (bytes : Bytes) :
    frames (bytes.flatMap (byteReply ack)) = bytes.countP (· ≠ 0x2b) := by
  induction bytes with
  | nil => rfl
  | cons c bytes ih =>
    rw [frames] at ih
    rw [frames, List.flatMap_cons, List.count_append, ih, List.countP_cons, byteReply]
    split
    · rename_i plus
      cases ack <;> simp [plus, str]
    · rename_i other
      have one := frames_createResponse List.not_mem_nil ack
      rw [frames] at one
      simp [one, other, Nat.add_comm]

/-- Every request has at least four bytes that are no acknowledgements. -/
theorem four_le_countP {packets : List Bytes} (requests : ∀ packet ∈ packets, IsRequest packet) :
    4 * packets.length ≤ packets.flatten.countP (· ≠ 0x2b) := by
  induction packets with
  | nil => simp
  | cons packet packets ih =>
    obtain ⟨body, high, low, -, highDigit, lowDigit, rfl⟩ := requests packet List.mem_cons_self
    have rest := ih fun other mem => requests other (List.mem_cons_of_mem _ mem)
    have here : 4 ≤ (packetOf false false body high low).countP (· ≠ 0x2b) := by
      simp [packetOf, List.countP_append, (plain_of_anyHex highDigit).2,
        (plain_of_anyHex lowDigit).2]
    rw [List.flatten_cons, List.countP_append, List.length_cons]
    omega

section Frames

variable {σ : Type} {environment : Environment Request.Answer σ}

/-- The texts the debugger shows of the program hold no `$`. -/
structure PlainTexts (environment : Environment Request.Answer σ) : Prop where
  xml : ∀ state, 0x24 ∉ Buffer.data (environment state .getGDBTargetXML).1
  path : ∀ state, 0x24 ∉ Buffer.data (environment state .getExecutablePath).1

private theorem dollar_notMem_xferSlice {text : Bytes} (plain : 0x24 ∉ text) (size : ℕ)
    (offset length : UInt64) : 0x24 ∉ xferSlice size text offset length := by
  have slice : 0x24 ∉ substr text offset length :=
    fun mem => plain (List.mem_of_mem_drop (List.mem_of_mem_take mem))
  have more : str "m" = [0x6d] := by decide
  have last : str "l" = [0x6c] := by decide
  rw [xferSlice, more, last]
  split
  · exact List.not_mem_nil
  · split <;> simpa using slice

/-- A read that neither stops the server nor is a lone acknowledgement is answered with one frame,
and the server goes on. -/
theorem frames_of_answer {message : Bytes} {after : UInt8} {protocol next : GDBServerProtocol}
    {state : σ} {reply : Bytes} (plain : PlainTexts environment ∨
      ((processPacket message after protocol).run environment state).calls = [])
    (goesOn : route message ≠ .stop) (packetLike : message ≠ str "+")
    (ran : ((processPacket message after protocol).run environment state).value =
      some (reply, next)) :
    frames reply = 1 ∧ next.mRunning = protocol.mRunning := by
  by_cases ordinary : route message ∉ [.process_QStartNoAckMode, .process_qXfer, .processAck, .stop]
  · obtain ⟨⟨payload, clean, same⟩, running⟩ := (sends_processPacket after ordinary protocol).run ran
    obtain rfl : reply = createResponse payload protocol.mAck := same
    exact ⟨frames_createResponse clean.dollar_notMem _, running⟩
  · rw [processPacket] at ran plain
    cases routed : route message with
    | process_QStartNoAckMode =>
      rw [routed] at ran
      cases ran
      exact ⟨by decide, rfl⟩
    | process_qXfer =>
      rw [routed] at ran plain
      dsimp only at ran plain
      rw [process_qXfer] at ran plain
      rcases read : qXferRead message with _ | ⟨object, offset, length⟩
      · rw [read] at ran
        cases ran
        exact ⟨frames_createResponse List.not_mem_nil _, rfl⟩
      · rw [read] at ran plain
        have texts : PlainTexts environment := by
          rcases plain with texts | silent
          · exact texts
          · cases object <;> exact absurd silent (List.cons_ne_nil _ _)
        cases object with
        | features =>
          cases ran
          exact ⟨frames_createResponse (dollar_notMem_xferSlice (texts.xml state) _ _ _) _, rfl⟩
        | auxv =>
          cases ran
          exact ⟨frames_createResponse
            (dollar_notMem_xferSlice (clean_escape _).dollar_notMem _ _ _) _, rfl⟩
        | execFile =>
          cases ran
          exact ⟨frames_createResponse (dollar_notMem_xferSlice (texts.path state) _ _ _) _, rfl⟩
    | processAck => exact absurd (eq_plus_of_route routed) packetLike
    | stop => exact absurd routed goesOn
    | _ => simp [routed] at ordinary

/-- A packet that makes no call is answered with one frame at most. -/
theorem frames_processPacket {message : Bytes} {after : UInt8} {protocol next : GDBServerProtocol}
    {state : σ} {reply : Bytes}
    (silent : ((processPacket message after protocol).run environment state).calls = [])
    (ran : ((processPacket message after protocol).run environment state).value =
      some (reply, next)) :
    frames reply ≤ 1 := by
  by_cases stops : route message = .stop
  · rw [processPacket, stops] at ran
    cases ran
    decide
  by_cases acknowledges : message = str "+"
  · have plus : str "+" = [0x2b] := by decide
    rw [acknowledges, plus, run_byte] at ran
    cases ran
    cases protocol.mAck <;> decide
  · exact (frames_of_answer (.inr silent) stops acknowledges ran).1.le

/-- A run that makes no call writes one frame at most for each read. -/
theorem frames_run (reads : List Bytes) (buf : Memory) (protocol : GDBServerProtocol) (state : σ)
    (silent : (DebugServer.run environment reads buf protocol state).calls = []) :
    frames (DebugServer.run environment reads buf protocol state).replies ≤ reads.length := by
  induction reads generalizing buf protocol state with
  | nil => exact Nat.le_refl _
  | cons message reads ih =>
    rw [DebugServer.run] at silent ⊢
    split at silent
    · simp [frames]
    · rename_i response next ran
      split at silent
      · rename_i running
        obtain ⟨quiet, later⟩ := List.append_eq_nil_iff.mp silent
        have here := frames_processPacket quiet ran
        have rest := ih _ _ _ later
        simp only [running, if_true, Session.behind, frames, List.count_append,
          List.length_cons] at here rest ⊢
        omega
      · rename_i stopped
        have here := frames_processPacket silent ran
        rw [if_neg stopped, List.length_cons]
        exact here.trans (Nat.le_add_left 1 _)

end Frames

/-! ## Requests that are answered -/

/-- A packet whose only `#` is the one in front of its sum. -/
def Delimited (packet : Bytes) : Prop :=
  ∃ body high low, 0x23 ∉ body ∧ anyHex high = true ∧ anyHex low = true ∧
    packet = 0x24 :: (body ++ [0x23, high, low])

theorem IsRequest.delimited {packet : Bytes} (request : IsRequest packet)
    (once : packet.count 0x23 = 1) : Delimited packet := by
  obtain ⟨body, high, low, -, highDigit, lowDigit, rfl⟩ := request
  refine ⟨body, high, low, ?_, highDigit, lowDigit, by simp [packetOf]⟩
  have hash := (plain_of_anyHex highDigit).1
  have hash' := (plain_of_anyHex lowDigit).1
  exact List.count_eq_zero.mp (by simpa [packetOf, List.count_cons, hash, hash'] using once)

/-- What follows a packet in the stream is no acknowledgement. -/
theorem head?_flatten_ne {packets : List Bytes} (delimited : ∀ packet ∈ packets, Delimited packet)
    (left : Bytes) : packets.flatten ≠ 0x2b :: left := by
  cases packets with
  | nil => simp
  | cons packet packets =>
    obtain ⟨body, high, low, -, -, -, rfl⟩ := delimited packet List.mem_cons_self
    simp

/-- A piece of the stream that starts where a packet starts and ends in a trailer is made of whole
packets. -/
theorem whole_of_trailer {packets : List Bytes} (delimited : ∀ packet ∈ packets, Delimited packet)
    {front left : Bytes} {high low : UInt8} {trail : Bool}
    (same : front ++ (0x23 :: high :: low :: if trail then [0x2b] else []) ++ left =
      packets.flatten) :
    ∃ first rest, packets = first ++ rest ∧ rest.flatten = left ∧
      first.flatten = front ++ 0x23 :: high :: low :: if trail then [0x2b] else [] := by
  induction packets generalizing front with
  | nil => simp at same
  | cons packet packets ih =>
    have later := fun other mem => delimited other (List.mem_cons_of_mem packet mem)
    obtain ⟨body, sumHigh, sumLow, unmarked, highDigit, lowDigit, rfl⟩ :=
      delimited packet List.mem_cons_self
    have stream : front ++ (0x23 :: high :: low :: ((if trail then [0x2b] else []) ++ left)) =
        (0x24 :: body) ++ (0x23 :: sumHigh :: sumLow :: packets.flatten) := by
      simpa using same
    -- The trailer cannot begin inside the body.
    obtain ⟨more, long, tail⟩ : ∃ more, front = 0x24 :: body ++ more ∧
        0x23 :: sumHigh :: sumLow :: packets.flatten =
          more ++ 0x23 :: high :: low :: ((if trail then [0x2b] else []) ++ left) := by
      rcases List.append_eq_append_iff.mp stream with ⟨gap, short, tail⟩ | found
      · cases gap with
        | nil => exact ⟨[], by simpa using short.symm, by simpa using tail.symm⟩
        | cons c gap =>
          obtain ⟨rfl, -⟩ := List.cons.inj tail
          have marked : (0x23 : UInt8) ∈ 0x24 :: body := by simp [short]
          exact absurd (by simpa using marked) unmarked
      · exact found
    match more, tail with
    | [], tail =>
      obtain ⟨rfl, rfl, behind⟩ : sumHigh = high ∧ sumLow = low ∧ packets.flatten = _ := by
        simpa using tail
      cases trail with
      | true => exact absurd behind (head?_flatten_ne later left)
      | false => exact ⟨[_], packets, rfl, by simpa using behind, by simp [long]⟩
    | [_], tail =>
      obtain ⟨-, rfl, -⟩ := by simpa using tail
      exact absurd highDigit (by decide)
    | [_, _], tail =>
      obtain ⟨-, -, rfl, -⟩ : _ ∧ _ ∧ sumLow = 0x23 ∧ _ := by simpa using tail
      exact absurd lowDigit (by decide)
    | _ :: _ :: _ :: more, tail =>
      obtain ⟨rfl, rfl, rfl, tail⟩ : _ ∧ sumHigh = _ ∧ sumLow = _ ∧ packets.flatten = _ := by
        simpa using tail
      obtain ⟨first, rest, rfl, behind, whole⟩ := ih later (by simpa using tail.symm)
      refine ⟨_ :: first, rest, rfl, behind, ?_⟩
      rw [List.flatten_cons, whole, long]
      simp

/-- How many of the requests do not stop the server. -/
def live (packets : List Bytes) : ℕ := packets.countP fun packet => route packet ≠ .stop

/-- The replies to empty payloads are the only ones with these two marks next to each other. -/
def emptyMark : Bytes := [0x24, 0x23]

private theorem emptyMark_createResponse (ack : Bool) (rest : Bytes) :
    emptyMark <:+: createResponse [] ack ++ rest := by
  rw [createResponse_eq]
  exact ⟨if ack then [0x2b] else [], sumDigits [] ++ rest, by simp [emptyMark]⟩

section Answered

variable {σ : Type} {environment : Environment Request.Answer σ}

/-- When only the last packet may stop the server and all of them do, there is one. -/
theorem singleton_of_live {packets : List Bytes} (nonempty : packets ≠ [])
    (stopsLast : ∀ packet ∈ packets.dropLast, route packet ≠ .stop) (dead : live packets = 0) :
    ∃ packet, packets = [packet] := by
  match packets with
  | [packet] => exact ⟨packet, rfl⟩
  | packet :: next :: packets =>
    have goesOn := stopsLast packet (by simp)
    simp [live, goesOn] at dead

/-- A group of packets that does not stop the server as a whole has a packet that does not. -/
theorem live_group {first rest : List Bytes} (nonempty : first ≠ [])
    (stopsLast : ∀ packet ∈ (first ++ rest).dropLast, route packet ≠ .stop)
    (goesOn : route first.flatten ≠ .stop) : 1 ≤ live first := by
  match first with
  | [packet] =>
    have alive : route packet ≠ .stop := by simpa using goesOn
    simp [live, alive]
  | packet :: next :: first =>
    have alive := stopsLast packet (by simp)
    simp [live, alive]

private theorem mem_dropLast_append {packet : Bytes} (first : List Bytes) {rest : List Bytes}
    (mem : packet ∈ rest.dropLast) : packet ∈ (first ++ rest).dropLast := by
  have nonempty : rest ≠ [] := by
    rintro rfl
    cases mem
  rw [List.dropLast_append_of_ne_nil nonempty]
  exact List.mem_append_right _ mem

private theorem eq_nil_of_flatten {pieces : List Bytes} (sized : ∀ piece ∈ pieces, piece ≠ [])
    (nothing : pieces.flatten = []) : pieces = [] := by
  refine List.eq_nil_iff_forall_not_mem.mpr fun piece mem => sized piece mem ?_
  exact List.flatten_eq_nil_iff.mp nothing piece mem

/-- A read that is no supported packet is answered with an empty payload. -/
private theorem supported_of_answered {read : Bytes} {reads : List Bytes} {buf : Memory}
    {protocol : GDBServerProtocol} {state : σ} (running : protocol.mRunning = true)
    (answered : ¬emptyMark <:+:
      (DebugServer.run environment (read :: reads) buf protocol state).replies) :
    route read ≠ .processUnsupported := by
  intro routed
  have ran : (processPacket read (buf.write 0 read read.length) protocol).run environment state =
      ⟨[], state, some (createResponse [] protocol.mAck, protocol)⟩ := by
    rw [processPacket, routed]
    rfl
  apply answered
  simp only [DebugServer.run, ran, running, if_true]
  exact emptyMark_createResponse _ _

/-- If no request of a stream goes on, there is one, and it is the first read. -/
private theorem reads_of_dead {read : Bytes} {reads first rest : List Bytes}
    (stopsLast : ∀ packet ∈ (first ++ rest).dropLast, route packet ≠ .stop) (nonempty : first ≠ [])
    (whole : first.flatten = read) (behind : rest.flatten = reads.flatten)
    (sized : ∀ other ∈ reads, other ≠ []) (dead : live (first ++ rest) = 0) :
    read :: reads = first ++ rest := by
  obtain ⟨packet, only⟩ := singleton_of_live (by simp [nonempty]) stopsLast dead
  obtain ⟨absent, -⟩ | ⟨rfl, rfl⟩ := List.append_eq_singleton_iff.mp only
  · exact absurd absent nonempty
  · rw [eq_nil_of_flatten sized behind.symm, ← whole]
    simp

/-- A group that brings one frame, when each of its requests brings one, is one request. -/
private theorem singleton_of_frames {first rest : List Bytes} (one : live first ≤ 1)
    (stopsLast : ∀ packet ∈ (first ++ rest).dropLast, route packet ≠ .stop) (nonempty : first ≠ [])
    (nowhere : rest = [] → ∀ packet ∈ first, route packet ≠ .stop) : ∃ packet, first = [packet] := by
  have all : ∀ packet ∈ first, route packet ≠ .stop := by
    intro packet mem
    cases rest with
    | nil => exact nowhere rfl packet mem
    | cons other rest =>
      apply stopsLast packet
      rw [List.dropLast_append_of_ne_nil (List.cons_ne_nil _ _)]
      exact List.mem_append_left _ mem
  have count : live first = first.length := List.countP_eq_length.mpr (by simpa using all)
  have some_ : 0 < first.length := List.length_pos_of_ne_nil nonempty
  exact List.length_eq_one_iff.mp (by omega)

/-- The reads of a stream of requests bring no more frames than there are requests that do not stop
the server, as long as no reply is empty; and they bring as many only when each holds one request. -/
theorem frames_run_le (texts : PlainTexts environment) {reads packets : List Bytes}
    (delimited : ∀ packet ∈ packets, Delimited packet)
    (stopsLast : ∀ packet ∈ packets.dropLast, route packet ≠ .stop)
    (delivers : reads.flatten = packets.flatten) (sized : ∀ read ∈ reads, read ≠ [])
    {protocol : GDBServerProtocol} (running : protocol.mRunning = true) (buf : Memory) (state : σ)
    (answered : ¬emptyMark <:+: (DebugServer.run environment reads buf protocol state).replies) :
    frames (DebugServer.run environment reads buf protocol state).replies ≤ live packets ∧
      (frames (DebugServer.run environment reads buf protocol state).replies = live packets →
        ((DebugServer.run environment reads buf protocol state).protocol.mRunning = true →
          ∀ packet ∈ packets, route packet ≠ .stop) → reads = packets) := by
  induction reads generalizing packets buf protocol state with
  | nil =>
    have nothing : packets = [] := eq_nil_of_flatten (fun packet mem => by
      obtain ⟨body, high, low, -, -, -, rfl⟩ := delimited packet mem
      exact List.cons_ne_nil _ _) delivers.symm
    subst nothing
    exact ⟨Nat.zero_le _, fun _ _ => rfl⟩
  | cons read reads ih =>
    have later := fun other mem => sized other (List.mem_cons_of_mem read mem)
    have packetLike : read ≠ str "+" := by
      rintro rfl
      exact head?_flatten_ne delimited reads.flatten delivers.symm
    obtain ⟨front, high, low, trail, shape⟩ :=
      trailer_of_route (supported_of_answered running answered) packetLike
    obtain ⟨first, rest, rfl, behind, whole⟩ := whole_of_trailer delimited
      (show front ++ _ ++ reads.flatten = _ by rw [← delivers, List.flatten_cons, shape])
    rw [← shape] at whole
    have nonempty : first ≠ [] := by
      rintro rfl
      exact sized read List.mem_cons_self whole.symm
    have settled (dead : live (first ++ rest) = 0) : read :: reads = first ++ rest :=
      reads_of_dead stopsLast nonempty whole behind later dead
    by_cases stops : route read = .stop
    · rw [run_stop stops]
      exact ⟨Nat.zero_le _, fun dead _ => settled dead.symm⟩
    rcases value : ((processPacket read (buf.write 0 read read.length) protocol).run
      environment state).value with _ | ⟨reply, next⟩
    · simp only [DebugServer.run, value]
      exact ⟨Nat.zero_le _, fun dead _ => settled dead.symm⟩
    · obtain ⟨one, runs⟩ := frames_of_answer (.inl texts) stops packetLike value
      rw [running] at runs
      simp only [DebugServer.run, value, runs, if_true, Session.behind] at answered ⊢
      obtain ⟨bounded, exact_⟩ := ih (fun packet mem => delimited packet (List.mem_append_right _ mem))
        (fun packet mem => stopsLast packet (mem_dropLast_append first mem)) behind.symm later runs _ _
        (fun inside => answered (inside.trans (List.suffix_append reply _).isInfix))
      have alive := live_group nonempty stopsLast (whole ▸ stops)
      have total : live (first ++ rest) = live first + live rest := List.countP_append
      rw [frames, List.count_append, ← frames, ← frames, one, total]
      refine ⟨by omega, fun same nowhere => ?_⟩
      obtain rfl : reads = rest := exact_ (by omega) fun running packet mem =>
        nowhere running packet (List.mem_append_right _ mem)
      obtain ⟨packet, rfl⟩ := singleton_of_frames (by omega) stopsLast nonempty (by
        rintro rfl packet mem
        exact nowhere runs packet (List.mem_append_left _ mem))
      simpa using whole.symm

/-- Requests in reads of their own bring one frame each, apart from the one that stops the server. -/
theorem frames_run_packets (texts : PlainTexts environment) {packets : List Bytes}
    (delimited : ∀ packet ∈ packets, Delimited packet)
    (stopsLast : ∀ packet ∈ packets.dropLast, route packet ≠ .stop)
    {protocol : GDBServerProtocol} (running : protocol.mRunning = true) (buf : Memory) (state : σ)
    (finished : (DebugServer.run environment packets buf protocol state).crashed = false) :
    frames (DebugServer.run environment packets buf protocol state).replies = live packets ∧
      ((DebugServer.run environment packets buf protocol state).protocol.mRunning = true →
        ∀ packet ∈ packets, route packet ≠ .stop) := by
  induction packets generalizing buf protocol state with
  | nil => exact ⟨rfl, fun _ packet mem => nomatch mem⟩
  | cons packet packets ih =>
    have packetLike : packet ≠ str "+" := by
      rintro rfl
      exact head?_flatten_ne delimited packets.flatten rfl
    have later := fun other mem => delimited other (List.mem_cons_of_mem packet mem)
    by_cases stops : route packet = .stop
    · have alone : packets = [] := by
        by_contra more
        refine stopsLast packet ?_ stops
        rw [List.dropLast_cons_of_ne_nil more]
        exact List.mem_cons_self
      subst alone
      rw [run_stop stops]
      exact ⟨by simp [live, stops, frames], nofun⟩
    rcases value : ((processPacket packet (buf.write 0 packet packet.length) protocol).run
      environment state).value with _ | ⟨reply, next⟩
    · simp [DebugServer.run, value] at finished
    · obtain ⟨one, runs⟩ := frames_of_answer (.inl texts) stops packetLike value
      rw [running] at runs
      simp only [DebugServer.run, value, runs, if_true, Session.behind] at finished ⊢
      obtain ⟨count, nowhere⟩ := ih later
        (fun other mem => stopsLast other (mem_dropLast_append [packet] mem)) runs _ _
        finished
      constructor
      · rw [frames, List.count_append, ← frames, ← frames, one, count, live, live,
          List.countP_cons_of_pos (by simpa using stops), Nat.add_comm]
      · intro still
        exact List.forall_mem_cons.mpr ⟨stops, nowhere still⟩

/-- A conversation in which the server answers every request: it runs, no body holds a `#`, nothing
follows the request that stops it, the debugger's texts hold no `$`, no request throws, and no reply
is empty. -/
structure Answers (environment : Environment Request.Answer σ) (packets : List Bytes)
    (buf : Memory) (protocol : GDBServerProtocol) (state : σ) : Prop where
  running : protocol.mRunning = true
  unmarked : ∀ packet ∈ packets, packet.count 0x23 = 1
  stopsLast : ∀ packet ∈ packets.dropLast, route packet ≠ .stop
  texts : PlainTexts environment
  finished : (DebugServer.run environment packets buf protocol state).crashed = false
  answered : ¬emptyMark <:+: (DebugServer.run environment packets buf protocol state).replies

/-- When every request is answered, no other reads than the requests themselves are handled alike. -/
theorem Answers.eq_of_same {packets reads : List Bytes}
    (requests : ∀ packet ∈ packets, IsRequest packet) {buf : Memory} {protocol : GDBServerProtocol}
    {state : σ} (answers : Answers environment packets buf protocol state) (cut : Cut packets reads)
    (same : Same (DebugServer.run environment reads buf protocol state)
      (DebugServer.run environment packets buf protocol state)) : reads = packets := by
  have delimited (packet : Bytes) (mem : packet ∈ packets) : Delimited packet :=
    (requests packet mem).delimited (answers.unmarked packet mem)
  obtain ⟨count, nowhere⟩ := frames_run_packets answers.texts delimited answers.stopsLast
    answers.running buf state answers.finished
  have sized (read : Bytes) (mem : read ∈ reads) : read ≠ [] :=
    List.ne_nil_of_length_pos (cut.sized read mem).1
  refine (frames_run_le answers.texts delimited answers.stopsLast cut.delivers sized answers.running
    buf state ?_).2 ?_ ?_
  · rw [same.replies]
    exact answers.answered
  · rw [same.replies]
    exact count
  · rw [same.protocol]
    exact nowhere

end Answered

/-! ## All cuttings -/

/-- A stream of requests delivered byte by byte to a running server is not handled like the
requests: it is answered with more frames, or without what the requests would have done. -/
theorem not_same_bytes {σ : Type} {environment : Environment Request.Answer σ}
    {packets : List Bytes} (requests : ∀ packet ∈ packets, IsRequest packet) (nonempty : packets ≠ [])
    {protocol : GDBServerProtocol} (running : protocol.mRunning = true) (buf : Memory) (state : σ) :
    ¬Same (DebugServer.run environment (packets.flatten.map fun c => [c]) buf protocol state)
      (DebugServer.run environment packets buf protocol state) := by
  intro same
  have bytes : DebugServer.run environment (packets.flatten.map fun c => [c]) buf protocol state = _ :=
    run_bytes running packets.flatten buf state
  have silent : (DebugServer.run environment packets buf protocol state).calls = [] := by
    rw [← same.calls, bytes]
  have few := frames_run packets buf protocol state silent
  have many := four_le_countP requests
  have some_ := List.length_pos_iff.mpr nonempty
  rw [← same.replies, bytes, frames_bytes] at few
  omega

/-- Requests are handled alike, in replies, calls and final protocol state, whether or not their
bytes are cut behind the packet that stops the server, as long as up to it each read holds exactly
one packet. Of requests that are all answered, with nothing behind the one that stops the server, no
other reads are handled alike; and every non-empty sequence of requests can be cut so that a running
server handles it differently. -/
theorem segmentation {σ : Type} (environment : Environment Request.Answer σ)
    (packets : List Bytes) (requests : ∀ packet ∈ packets, IsRequest packet) (buf : Memory)
    (protocol : GDBServerProtocol) (state : σ) :
    (∀ reads, Cut packets reads → ∀ handled, handled <+: packets → handled <+: reads →
      (handled = packets ∨ ∃ last ∈ handled.getLast?, route last = .stop) →
        Same (DebugServer.run environment reads buf protocol state)
          (DebugServer.run environment packets buf protocol state)) ∧
    (Answers environment packets buf protocol state → ∀ reads, Cut packets reads →
      Same (DebugServer.run environment reads buf protocol state)
        (DebugServer.run environment packets buf protocol state) → reads = packets) ∧
    (protocol.mRunning = true → packets ≠ [] → ∃ reads, Cut packets reads ∧
      ¬Same (DebugServer.run environment reads buf protocol state)
        (DebugServer.run environment packets buf protocol state)) := by
  refine ⟨?_, fun answers reads cut same => answers.eq_of_same requests cut same, ?_⟩
  · rintro reads cut handled ⟨rest, rfl⟩ ⟨left, rfl⟩ (whole | ⟨last, ends, stops⟩)
    · obtain rfl : rest = [] := List.self_eq_append_right.mp whole
      obtain rfl : left = [] := eq_nil_of_flatten
        (fun read mem => List.ne_nil_of_length_pos (cut.sized read (List.mem_append_right _ mem)).1)
        (by simpa using cut.delivers)
      exact ⟨rfl, rfl, rfl⟩
    · obtain ⟨front, rfl⟩ := List.getLast?_eq_some_iff.mp ends
      simp only [List.append_assoc, List.singleton_append, run_append_stop stops]
      exact ⟨rfl, rfl, rfl⟩
  · intro running nonempty
    refine ⟨packets.flatten.map fun c => [c], ⟨?_, ?_⟩,
      not_same_bytes requests nonempty running buf state⟩
    · rw [← List.flatMap_def, List.flatMap_singleton']
    · intro read mem
      obtain ⟨c, -, rfl⟩ := List.mem_map.mp mem
      exact ⟨le_rfl, show 1 ≤ readSize by decide⟩

/-- A debugger without texts and without a program. -/
def emptyDebugger : Environment Request.Answer Unit := objectsDebugger default default default

/-- The requests `$g#67` and `$k#6b`. -/
def sampleRequests : List Bytes := [str "$g#67", str "$k#6b"]

private theorem isRequest_sample : ∀ packet ∈ sampleRequests, IsRequest packet := by
  have g : IsRequest (str "$g#67") := ⟨str "g", 0x36, 0x37, by decide, by decide, by decide, by decide⟩
  have k : IsRequest (str "$k#6b") := ⟨str "k", 0x36, 0x62, by decide, by decide, by decide, by decide⟩
  simp [sampleRequests, g, k]

private theorem answers_sample : Answers emptyDebugger sampleRequests (fun _ => 0) {} () where
  running := rfl
  unmarked := by decide
  stopsLast := by decide
  texts := ⟨fun _ => List.not_mem_nil, fun _ => List.not_mem_nil⟩
  finished := by decide
  answered := by decide

/-- The request behind the one that stops the server may arrive in two parts, the first request may
not. -/
theorem segmentation_stop :
    Same (DebugServer.run emptyDebugger (sampleRequests ++ [str "$g", str "#67"]) (fun _ => 0) {} ())
      (DebugServer.run emptyDebugger (sampleRequests ++ [str "$g#67"]) (fun _ => 0) {} ()) ∧
    ¬Same (DebugServer.run emptyDebugger [str "$g", str "#67", str "$k#6b"] (fun _ => 0) {} ())
      (DebugServer.run emptyDebugger sampleRequests (fun _ => 0) {} ()) := by
  constructor
  · have requests : ∀ packet ∈ sampleRequests ++ [str "$g#67"], IsRequest packet := by
      have g := isRequest_sample (str "$g#67") List.mem_cons_self
      simpa [or_imp, forall_and, g] using isRequest_sample
    refine (segmentation emptyDebugger _ requests (fun _ => 0) {} ()).1 _ ⟨by decide, by decide⟩
      sampleRequests (List.prefix_append _ _) (List.prefix_append _ _)
      (.inr ⟨str "$k#6b", by decide, by decide⟩)
  · intro same
    have equal := (segmentation emptyDebugger _ isRequest_sample (fun _ => 0) {} ()).2.1
      answers_sample _ ⟨by decide, by decide⟩ same
    exact absurd equal (by decide)

/-- A request that arrives in two parts is not handled. -/
theorem not_segmentation :
    ¬∀ (environment : Environment Request.Answer Unit) (packets reads : List Bytes) (buf : Memory),
      (∀ packet ∈ packets, IsRequest packet) → Cut packets reads →
        Same (DebugServer.run environment reads buf {} ())
          (DebugServer.run environment packets buf {} ()) := by
  intro always
  have request : ∀ packet ∈ [str "$g#67"], IsRequest packet := fun packet mem =>
    isRequest_sample packet (by simp_all [sampleRequests])
  have same := always emptyDebugger [str "$g#67"]
    [str "$g", str "#67"] (fun _ => 0) request ⟨by decide, by decide⟩
  exact absurd same.calls (by decide)

end DpcppTrace.Soundness
