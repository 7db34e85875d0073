import DpcppTrace.Soundness.ReplyFrame
import Mathlib.Algebra.BigOperators.Group.Finset.Basic

/-! # Reading an object in parts

A client reads the XML description of the target, or the path of the executable, from its start:
it asks for a part at the offset it has reached, until a reply says that it was the last. The
server marks a part that ends exactly where the object ends as not the last one, and has no mark for
a read behind the end, so such a client goes on asking.
-/

namespace DpcppTrace.Soundness

open Foundation Model Pattern

/-! ## The packets of the client -/

/-- An object the client reads as it is: the XML text, or the path of a process given by its
number in hexadecimal digits, possibly none. -/
inductive PlainObject where
  | targetXML
  | executablePath (pid : Bytes)

/-- The digits of the process are digits. -/
def PlainObject.Named : PlainObject → Prop
  | targetXML => True
  | executablePath pid => ∀ c ∈ pid, lowerHex c = true

/-- The object as `process_qXfer` knows it. -/
def PlainObject.xfer : PlainObject → XferObject
  | targetXML => .features
  | executablePath _ => .execFile

/-- The body of the packet that reads `length` bytes at an offset. -/
def readBody (object : PlainObject) (offset length : ℕ) : Bytes :=
  (match object with
    | .targetXML => str "qXfer:features:read:target.xml:"
    | .executablePath pid => str "qXfer:exec-file:read:" ++ (pid ++ str ":")) ++
    (hexNumeral offset ++ (str "," ++ hexNumeral length))

/-- The packet with this body and its sum. -/
def clientPacket (body : Bytes) : Bytes := 0x24 :: (body ++ 0x23 :: sumDigits body)

private theorem clientPacket_eq (body : Bytes) : ∃ high low, anyHex high = true ∧ anyHex low = true ∧
    clientPacket body = packetOf false false body high low := by
  have digit {d : ℕ} (small : d < 16) : anyHex (hexCharacter d) = true := by
    simp [anyHex, lowerHex_hexCharacter small]
  refine ⟨_, _, digit ?_, digit ?_, rfl⟩ <;> omega

/-- An offset and a length at the end of a body are captured. -/
theorem range_go (offset length : ℕ) :
    (number ++ (text "," ++ number)).go (hexNumeral offset ++ (str "," ++ hexNumeral length)) atEnd =
      some [hexNumeral offset, hexNumeral length] :=
  numbers_go (fun _ => mem_hexNumeral) (hexNumeral_ne_nil offset) (fun _ => mem_hexNumeral)
    (hexNumeral_ne_nil length)

private theorem features_fullMatch (offset length : ℕ) :
    (text "qXfer:features:read:target.xml:" ++ (number ++ (text "," ++ number))).fullMatch
        (readBody .targetXML offset length) = some [hexNumeral offset, hexNumeral length] := by
  rw [fullMatch, readBody, go_append, text, go_literal_self, range_go]

/-- The digits of the process are captured, also when there are none. -/
theorem execFile_fullMatch {pid : Bytes} (named : ∀ c ∈ pid, lowerHex c = true)
    (offset length : ℕ) :
    (text "qXfer:exec-file:read:" ++
      (optional number ++ (text ":" ++ (number ++ (text "," ++ number))))).fullMatch
        (readBody (.executablePath pid) offset length) =
      some [pid, hexNumeral offset, hexNumeral length] := by
  have colon : str ":" = [0x3a] := by decide
  have separator : text ":" = one (· == 0x3a) ++ nothing := rfl
  have refuses (c : UInt8) (left : Bytes) (hex : lowerHex c = true) :
      (text ":" ++ (number ++ (text "," ++ number))).go (c :: left) atEnd = none := by
    have differs : c ≠ 0x3a := by
      rintro rfl
      exact absurd hex (by decide)
    simp [separator, go, differs]
  have behind : (text ":" ++ (number ++ (text "," ++ number))).go
      (str ":" ++ (hexNumeral offset ++ (str "," ++ hexNumeral length))) atEnd =
        some [hexNumeral offset, hexNumeral length] := by
    rw [go_append, text, go_literal_self, range_go]
  rw [fullMatch, readBody, go_append, text, List.append_assoc, go_literal_self, List.append_assoc,
    go_append, go]
  cases pid with
  | nil =>
    rw [List.nil_append, behind]
    rfl
  | cons c rest =>
    rw [number_go named (List.cons_ne_nil _ _) (by simp [colon, lowerHex, digit]) refuses, behind]
    rfl

/-- The server reads the object, the offset and the length that the client sends. -/
theorem qXferRead_clientPacket {object : PlainObject} (named : object.Named) {offset length : ℕ}
    (offsetFits : offset < 2 ^ 64) (lengthFits : length < 2 ^ 64) :
    qXferRead (clientPacket (readBody object offset length)) =
      some (object.xfer, UInt64.ofNat offset, UInt64.ofNat length) := by
  obtain ⟨high, low, highDigit, lowDigit, framed⟩ := clientPacket_eq (readBody object offset length)
  rw [framed, qXferRead]
  simp only [XferObject.pattern, fullMatch_packetOf highDigit lowDigit]
  cases object with
  | targetXML =>
    simp only [features_fullMatch, parseUInt64_ofNat offsetFits,
      parseUInt64_ofNat lengthFits]
    rfl
  | executablePath pid =>
    have noFeatures : (text "qXfer:features:read:target.xml:" ++
        (number ++ (text "," ++ number))).fullMatch
          (readBody (.executablePath pid) offset length) = none := rfl
    have noAuxv : (text "qXfer:auxv:read::" ++ (number ++ (text "," ++ number))).fullMatch
        (readBody (.executablePath pid) offset length) = none := rfl
    simp only [noFeatures, noAuxv, execFile_fullMatch named, parseUInt64_ofNat offsetFits,
      parseUInt64_ofNat lengthFits]
    rfl

private theorem route_clientPacket (object : PlainObject) (offset length : ℕ) :
    route (clientPacket (readBody object offset length)) = .process_qXfer := by
  obtain ⟨high, low, highDigit, lowDigit, framed⟩ := clientPacket_eq (readBody object offset length)
  have split : readBody object offset length =
      str "qXfer" ++ (readBody object offset length).drop 5 := by
    cases object <;> rfl
  have nonempty : (readBody object offset length).drop 5 ≠ [] := by
    cases object <;> exact List.cons_ne_nil _ _
  rw [framed, route_packetOf highDigit lowDigit, split]
  exact bodyRoute_command "qXfer" 13 nonempty rfl rfl

/-! ## The reply to a read -/

section Replies

variable {σ : Type} {environment : Environment Request.Answer σ} {object : PlainObject}
  {data : Buffer}

/-- The debugger shows this object in every state. -/
def Serves (environment : Environment Request.Answer σ) (data : Buffer) : PlainObject → Prop
  | .targetXML => ∀ state, (environment state .getGDBTargetXML).1 = data
  | .executablePath _ => ∀ state, (environment state .getExecutablePath).1 = data

/-- A read is answered with the slice of the object, in one response that leaves the protocol as
it was. -/
theorem processPacket_clientPacket (serves : Serves environment data object)
    (named : object.Named) {offset length : ℕ} (offsetFits : offset < 2 ^ 64)
    (lengthFits : length < 2 ^ 64) (after : UInt8) (protocol : GDBServerProtocol) (state : σ) :
    ((processPacket (clientPacket (readBody object offset length)) after protocol).run environment
      state).value =
        some (createResponse (xferSlice data.data.length data.data (UInt64.ofNat offset)
          (UInt64.ofNat length)) protocol.mAck, protocol) := by
  rw [processPacket, route_clientPacket]
  change ((process_qXfer _ protocol).run environment state).value = _
  rw [process_qXfer, qXferRead_clientPacket named offsetFits lengthFits]
  cases object with
  | targetXML =>
    rw [← serves state]
    rfl
  | executablePath pid =>
    rw [← serves state]
    rfl

/-- The slice of an object without reserved bytes is received as it is. -/
theorem receive_xferSlice (plain : ∀ c ∈ data.data, reserved c = false) (offset length : UInt64)
    (ack : Bool) :
    receive (createResponse (xferSlice data.data.length data.data offset length) ack) =
      some (xferSlice data.data.length data.data offset length) := by
  have clean : Clean (xferSlice data.data.length data.data offset length) := by
    rw [clean_xferSlice]
    refine fun _ => .of_plain fun c mem => plain_of_not_reserved (plain c ?_)
    exact List.mem_of_mem_drop (List.mem_of_mem_take mem)
  exact receive_createResponse clean ack

end Replies

/-! ## The client -/

/-- The client between two reads: what it has received, whether a reply was marked as the last, and
the states it left the server in. -/
structure Transfer (σ : Type) where
  received : Bytes
  finished : Bool
  protocol : GDBServerProtocol
  state : σ

/-- The payload of the reply to a read at the offset the client has reached; none when there was no
reply or no frame. -/
def Transfer.payload {σ : Type} (environment : Environment Request.Answer σ) (object : PlainObject)
    (after : UInt8) (length : ℕ) (transfer : Transfer σ) : Option Bytes :=
  ((processPacket (clientPacket (readBody object transfer.received.length length)) after
    transfer.protocol).run environment transfer.state).value.bind fun result => receive result.1

/-- One read: data is appended, a part marked `l` ends the transfer, and anything else brings no
data. -/
def Transfer.read {σ : Type} (environment : Environment Request.Answer σ) (object : PlainObject)
    (after : UInt8) (length : ℕ) (transfer : Transfer σ) : Transfer σ :=
  let packet := (processPacket (clientPacket (readBody object transfer.received.length length)) after
    transfer.protocol).run environment transfer.state
  let next := { transfer with
    protocol := match packet.value with
      | some (_, protocol) => protocol
      | none => transfer.protocol
    state := packet.final }
  if transfer.finished then transfer
  else
    match transfer.payload environment object after length with
    | some (0x6d :: part) => { next with received := transfer.received ++ part }
    | some (0x6c :: part) =>
      { next with received := transfer.received ++ part, finished := true }
    | _ => next

/-- The client after a number of reads, the read with each index asking for its own length. -/
def Transfer.reads {σ : Type} (environment : Environment Request.Answer σ) (object : PlainObject)
    (after : UInt8) (lengths : ℕ → ℕ) (start : Transfer σ) : ℕ → Transfer σ
  | 0 => start
  | count + 1 =>
    (Transfer.reads environment object after lengths start count).read environment object after
      (lengths count)

section Runs

variable {σ : Type} {environment : Environment Request.Answer σ} {object : PlainObject}
  {data : Buffer}

/-- The client has received the first `size` bytes of the object and goes on. -/
structure Reached (data : Buffer) (size : ℕ) (transfer : Transfer σ) : Prop where
  received : transfer.received = data.data.take size
  inside : size ≤ data.data.length
  unfinished : transfer.finished = false

theorem Reached.length {size : ℕ} {transfer : Transfer σ} (reached : Reached data size transfer) :
    transfer.received.length = size := by
  rw [reached.received, List.length_take, Nat.min_eq_left reached.inside]

variable (after : UInt8) (serves : Serves environment data object) (named : object.Named)
  (plain : ∀ c ∈ data.data, reserved c = false)
include serves named plain

theorem payload_eq {size length : ℕ} {transfer : Transfer σ}
    (reached : Reached data size transfer) (fits : length < 2 ^ 64) :
    transfer.payload environment object after length =
      some (xferSlice data.data.length data.data (UInt64.ofNat size) (UInt64.ofNat length)) := by
  have offsetFits : size < 2 ^ 64 := reached.inside.trans_lt data.sized
  rw [Transfer.payload, reached.length, processPacket_clientPacket serves named offsetFits fits,
    Option.bind_some, receive_xferSlice plain]

omit serves named plain in
/-- The slice at an offset up to the end of the object, by the three cases of its mark. -/
theorem xferSlice_eq (data : Buffer) {size length : ℕ} (inside : size ≤ data.data.length)
    (fits : length < 2 ^ 64) :
    xferSlice data.data.length data.data (UInt64.ofNat size) (UInt64.ofNat length) =
      if size = data.data.length then []
      else if (size + length) % 2 ^ 64 ≤ data.data.length then
        0x6d :: (data.data.drop size).take length
      else 0x6c :: (data.data.drop size).take length := by
  have offsetFits : size < 2 ^ 64 := inside.trans_lt data.sized
  have offset : (UInt64.ofNat size).toNat = size := by
    rw [UInt64.toNat_ofNat', Nat.mod_eq_of_lt offsetFits]
  have count : (UInt64.ofNat length).toNat = length := by
    rw [UInt64.toNat_ofNat', Nat.mod_eq_of_lt fits]
  have more : str "m" = [0x6d] := by decide
  have last : str "l" = [0x6c] := by decide
  rw [xferSlice, substr, UInt64.toNat_add, offset, count, more, last]
  by_cases past : size = data.data.length
  · rw [if_pos past, if_pos past.ge]
  · rw [if_neg past, if_neg (by omega)]
    rfl

/-- A read that the server does not mark as the last one brings what there is of the part. -/
theorem reached_read {size length : ℕ} {transfer : Transfer σ}
    (reached : Reached data size transfer) (fits : length < 2 ^ 64)
    (goesOn : ¬(size < data.data.length ∧ data.data.length < (size + length) % 2 ^ 64)) :
    Reached data (min (size + length) data.data.length)
      (transfer.read environment object after length) := by
  have payload := payload_eq after serves named plain reached fits
  have inside := reached.inside
  rw [xferSlice_eq data inside fits] at payload
  rw [Transfer.read, reached.unfinished, payload]
  by_cases past : size = data.data.length
  · rw [if_pos past]
    refine ⟨?_, Nat.min_le_right _ _, rfl⟩
    rw [reached.received, Nat.min_eq_right (by omega), past]
    rfl
  · have marked : (size + length) % 2 ^ 64 ≤ data.data.length :=
      by
      by_contra beyond
      exact goesOn ⟨by omega, by omega⟩
    rw [if_neg past, if_pos marked]
    refine ⟨?_, Nat.min_le_right _ _, rfl⟩
    change transfer.received ++ _ = _
    rw [reached.received, ← List.take_add]
    rcases Nat.le_total (size + length) data.data.length with whole | cut
    · rw [Nat.min_eq_left whole]
    · rw [Nat.min_eq_right cut, List.take_of_length_le cut, List.take_length]

/-- A read that the server marks as the last one brings all the rest. -/
theorem finished_read {size length : ℕ} {transfer : Transfer σ}
    (reached : Reached data size transfer) (fits : length < 2 ^ 64) (before : size < data.data.length)
    (beyond : data.data.length < (size + length) % 2 ^ 64) :
    (transfer.read environment object after length).finished = true ∧
      (transfer.read environment object after length).received = data.data ∧
      transfer.payload environment object after length =
        some (0x6c :: (data.data.drop size).take length) := by
  have payload := payload_eq after serves named plain reached fits
  rw [xferSlice_eq data reached.inside fits, if_neg before.ne, if_neg (by omega)] at payload
  have all : data.data.length ≤ size + length := by omega
  refine ⟨?_, ?_, payload⟩
  · rw [Transfer.read, reached.unfinished, payload]
    rfl
  · rw [Transfer.read, reached.unfinished, payload]
    change transfer.received ++ _ = _
    rw [reached.received, ← List.take_add, List.take_of_length_le all]

end Runs

section Complete

variable {σ : Type} (environment : Environment Request.Answer σ) (object : PlainObject)
  (data : Buffer) (after : UInt8) (lengths : ℕ → ℕ) (start : Transfer σ)

/-- The number of bytes asked for by the first reads. -/
def asked (count : ℕ) : ℕ := ∑ index ∈ Finset.range count, lengths index

/-- The client stops with exactly the object. Until it does, every read is answered; a part is
marked `m` only if bytes follow it, and a read behind the end gets an empty part marked `l`. -/
structure Complete : Prop where
  stops : ∃ count, (Transfer.reads environment object after lengths start count).finished = true ∧
    (Transfer.reads environment object after lengths start count).received = data.data
  answers : ∀ count, (Transfer.reads environment object after lengths start count).finished = false →
    ∃ payload, (Transfer.reads environment object after lengths start count).payload environment
        object after (lengths count) = some payload ∧
      (payload.head? = some 0x6d →
        (Transfer.reads environment object after lengths start (count + 1)).received.length <
          data.data.length) ∧
      (data.data.length ≤
          (Transfer.reads environment object after lengths start count).received.length →
        payload = [0x6c])

/-- The read with this index starts inside the object and asks for more than is left, but for no
end beyond what a `size_t` holds. -/
def Overruns (count : ℕ) : Prop :=
  asked lengths count < data.data.length ∧ data.data.length < asked lengths (count + 1) ∧
    asked lengths (count + 1) < 2 ^ 64

variable {environment object data lengths start}

private theorem asked_succ (count : ℕ) : asked lengths (count + 1) = asked lengths count + lengths count :=
  Finset.sum_range_succ _ _

private theorem asked_mono {count later : ℕ} (order : count ≤ later) :
    asked lengths count ≤ asked lengths later := by
  induction later, order using Nat.le_induction with
  | base => exact le_rfl
  | succ later _ ih =>
    rw [asked_succ]
    omega

/-- Where the client stands, a read ends the transfer exactly when it overruns. -/
theorem overruns_iff (bounded : ∀ index, lengths index < 2 ^ 64) (count : ℕ) :
    (min (asked lengths count) data.data.length < data.data.length ∧
      data.data.length < (min (asked lengths count) data.data.length + lengths count) % 2 ^ 64) ↔
    Overruns data lengths count := by
  have next : asked lengths (count + 1) = asked lengths count + lengths count := asked_succ count
  have fits := bounded count
  have sized := data.sized
  rw [Overruns]
  constructor
  · rintro ⟨before, beyond⟩
    rw [Nat.min_eq_left (by omega)] at before beyond
    omega
  · rintro ⟨before, beyond, small⟩
    rw [Nat.min_eq_left before.le, ← next, Nat.mod_eq_of_lt small]
    exact ⟨before, beyond⟩

variable (serves : Serves environment data object) (named : object.Named)
  (plain : ∀ c ∈ data.data, reserved c = false) (bounded : ∀ index, lengths index < 2 ^ 64)
  (fresh : Reached data 0 start)
include serves named plain bounded fresh

/-- As long as no read overruns, the client has received what it asked for and goes on. -/
theorem reached_after {count : ℕ} (goesOn : ∀ earlier < count, ¬Overruns data lengths earlier) :
    Reached data (min (asked lengths count) data.data.length)
      (Transfer.reads environment object after lengths start count) := by
  induction count with
  | zero => simpa [asked, Transfer.reads] using fresh
  | succ count ih =>
    have reached := ih fun earlier before => goesOn earlier (by omega)
    have step := reached_read after serves named plain reached (bounded count)
      (mt (overruns_iff bounded count).mp (goesOn count (by omega)))
    have size : min (min (asked lengths count) data.data.length + lengths count) data.data.length =
        min (asked lengths (count + 1)) data.data.length := by
      rw [asked_succ]
      omega
    rw [size] at step
    exact step

omit serves named plain bounded fresh in
/-- A transfer that has stopped stays as it is. -/
theorem finished_after {count later : ℕ} (order : count ≤ later)
    (finished : (Transfer.reads environment object after lengths start count).finished = true) :
    (Transfer.reads environment object after lengths start later).finished = true := by
  induction later, order using Nat.le_induction with
  | base => exact finished
  | succ later _ ih => rw [Transfer.reads, Transfer.read, if_pos ih, ih]

/-- A client that reads an object without reserved bytes in parts of any lengths stops with exactly
the object, every reply on the way marked as it should be, exactly when one of its reads starts
inside the object and asks for more than is left, but for no end beyond what a `size_t` holds. -/
theorem transfer_complete_iff :
    Complete environment object data after lengths start ↔ ∃ count, Overruns data lengths count := by
  constructor
  · intro complete
    by_contra never
    obtain ⟨count, finished, -⟩ := complete.stops
    have reached := reached_after after serves named plain bounded fresh
      fun earlier (_ : earlier < count) overruns => never ⟨earlier, overruns⟩
    exact absurd finished (by simp [reached.unfinished])
  · rintro ⟨last, overruns⟩
    obtain ⟨before, beyond, small⟩ := overruns
    have first (earlier : ℕ) (order : earlier < last) : ¬Overruns data lengths earlier := fun other => by
      have order' : asked lengths (earlier + 1) ≤ asked lengths last := asked_mono order
      have ends := other.2.1
      omega
    have reached (count : ℕ) (order : count ≤ last) : Reached data (asked lengths count)
        (Transfer.reads environment object after lengths start count) := by
      have here := reached_after after serves named plain bounded fresh
        fun earlier (inside : earlier < count) => first earlier (inside.trans_le order)
      have order' : asked lengths count ≤ asked lengths last := asked_mono order
      rwa [Nat.min_eq_left (by omega)] at here
    have ends := (overruns_iff bounded last).mpr ⟨before, beyond, small⟩
    rw [Nat.min_eq_left before.le] at ends
    obtain ⟨finished, received, payload⟩ := finished_read after serves named plain
      (reached last le_rfl) (bounded last) ends.1 ends.2
    refine ⟨⟨last + 1, finished, received⟩, fun count unfinished => ?_⟩
    have order : count ≤ last := by
      by_contra later
      have done := finished_after after (by omega : last + 1 ≤ count) finished
      rw [done] at unfinished
      cases unfinished
    rcases order.lt_or_eq with inside | rfl
    · have here := reached count order
      have next := reached (count + 1) inside
      have short : asked lengths (count + 1) ≤ asked lengths last := asked_mono inside
      have grows : asked lengths count ≤ asked lengths (count + 1) := asked_mono (by omega)
      refine ⟨_, payload_eq after serves named plain here (bounded count), fun _ => ?_, fun past => ?_⟩
      · rw [next.length]
        omega
      · rw [here.length] at past
        omega
    · refine ⟨_, payload, by simp, fun past => ?_⟩
      rw [(reached count le_rfl).length] at past
      omega

end Complete

def shortText : Buffer := .short (str "<t/>") (by decide)

def shortDebugger : Environment Request.Answer Unit := objectsDebugger shortText default default

/-- A transfer about to begin. -/
def freshTransfer : Transfer Unit := ⟨[], false, {}, ()⟩

private theorem serves_short : Serves shortDebugger shortText .targetXML := fun _ => rfl

private theorem plain_short : ∀ c ∈ shortText.data, reserved c = false := by
  have text : shortText.data = [0x3c, 0x74, 0x2f, 0x3e] := by decide
  simp [text, reserved]

private theorem fresh_short : Reached shortText 0 freshTransfer := ⟨rfl, Nat.zero_le _, rfl⟩

/-- Four bytes in parts of three. -/
theorem transfer_complete_iff_thirds :
    Complete shortDebugger .targetXML shortText 0 (fun _ => 3) freshTransfer := by
  refine (transfer_complete_iff 0 serves_short trivial plain_short (fun _ => by norm_num)
    fresh_short).mpr ⟨1, ?_⟩
  have size : shortText.data.length = 4 := by decide
  simp [Overruns, asked, size]

/-- Four bytes in parts of four: the only part is not marked as the last one. -/
theorem not_transfer_complete :
    ¬∀ (environment : Environment Request.Answer Unit) (object : PlainObject) (data : Buffer)
      (after : UInt8) (lengths : ℕ → ℕ) (start : Transfer Unit), Serves environment data object →
        object.Named → (∀ c ∈ data.data, reserved c = false) →
        (∀ index, 1 ≤ lengths index ∧ lengths index < 2 ^ 64) → Reached data 0 start →
        Complete environment object data after lengths start := by
  intro always
  have complete := always shortDebugger .targetXML shortText 0 (fun _ => 4) freshTransfer
    serves_short trivial plain_short (fun _ => by norm_num) fresh_short
  obtain ⟨count, finished, -⟩ := complete.stops
  have never (earlier : ℕ) : ¬Overruns shortText (fun _ => 4) earlier := by
    have size : shortText.data.length = 4 := by decide
    have total (count : ℕ) : asked (fun _ => 4) count = count * 4 := by simp [asked]
    rw [Overruns, total, total, size]
    omega
  have reached := reached_after 0 serves_short trivial plain_short (fun _ => by norm_num) fresh_short
    fun earlier (_ : earlier < count) => never earlier
  exact absurd (finished.symm.trans reached.unfinished) (by decide)

end DpcppTrace.Soundness
