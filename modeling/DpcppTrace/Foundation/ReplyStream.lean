import DpcppTrace.Foundation.PacketFrame

/-! # Reading a stream of frames

A client reads the replies as one stream. Outside of a frame it passes over acknowledgements; inside it
collects the payload up to `#`, and the frame ends with the two digits of its sum. Payloads without `#`
come back one by one, whatever they are and however the stream goes on.
-/

namespace DpcppTrace.Foundation

/-- Where the reader stands: between two frames, in a payload, or in front of a digit of the sum. -/
inductive ReplyReader where
  | between
  | inside (sofar : Bytes)
  | sum (text : Bytes)
  | digit (text : Bytes) (first : UInt8)
deriving DecidableEq

/-- What one byte does, and the payload that it completes. -/
def ReplyReader.next : ReplyReader → UInt8 → Option (ReplyReader × Option Bytes)
  | .between, c =>
    if c = 0x2b then some (.between, none)
    else if c = 0x24 then some (.inside [], none)
    else none
  | .inside sofar, c =>
    if c = 0x23 then some (.sum sofar, none) else some (.inside (sofar ++ [c]), none)
  | .sum text, c => some (.digit text c, none)
  | .digit text first, c =>
    if [first, c] = sumDigits text then some (.between, some text) else none

/-- The payloads of the rest of a stream; none if it ends inside a frame or is no stream of frames. -/
def ReplyReader.read : ReplyReader → Bytes → Option (List Bytes)
  | .between, [] => some []
  | _, [] => none
  | reader, c :: rest =>
    match reader.next c with
    | none => none
    | some (reader, finished) => (reader.read rest).map (finished.toList ++ ·)

/-- The payloads of a stream of replies. -/
def payloads (stream : Bytes) : Option (List Bytes) := ReplyReader.between.read stream

namespace ReplyReader

/-- The reader collects what is no mark. -/
theorem read_inside (sofar : Bytes) {text : Bytes} (unhashed : 0x23 ∉ text) (rest : Bytes) :
    (ReplyReader.inside sofar).read (text ++ rest) =
      (ReplyReader.inside (sofar ++ text)).read rest := by
  induction text generalizing sofar with
  | nil => rw [List.nil_append, List.append_nil]
  | cons c text ih =>
    obtain ⟨here, behind⟩ := not_or.mp fun mem => unhashed (List.mem_cons.mpr mem)
    rw [List.cons_append, read, next, if_neg (Ne.symm here)]
    simp only [Option.toList_none, List.nil_append, Option.map_id']
    rw [ih _ behind, List.append_assoc, List.singleton_append]

theorem read_mark (sofar rest : Bytes) :
    (ReplyReader.inside sofar).read (0x23 :: (sumDigits sofar ++ rest)) =
      (ReplyReader.between.read rest).map (sofar :: ·) := by
  simp only [sumDigits, List.cons_append, List.nil_append, read, next, if_true, Option.toList_none,
    Option.toList_some, Option.map_id']

/-- A frame gives its payload. -/
theorem read_frame (ack : Bool) {payload : Bytes} (unhashed : 0x23 ∉ payload) (rest : Bytes) :
    ReplyReader.between.read (((if ack then [0x2b] else []) ++
        0x24 :: (payload ++ 0x23 :: sumDigits payload)) ++ rest) =
      (ReplyReader.between.read rest).map (payload :: ·) := by
  have framed : ReplyReader.between.read (0x24 :: (payload ++ 0x23 :: (sumDigits payload ++ rest))) =
      (ReplyReader.between.read rest).map (payload :: ·) := by
    have start : ReplyReader.between.next 0x24 = some (.inside [], none) := rfl
    rw [read, start]
    simp only [Option.toList_none, List.nil_append, Option.map_id']
    rw [read_inside [] unhashed, List.nil_append, read_mark]
  cases ack with
  | false => simpa using framed
  | true =>
    have pass : ReplyReader.between.next 0x2b = some (.between, none) := rfl
    simp only [if_true, List.cons_append, List.nil_append, List.append_assoc, read, pass,
      Option.toList_none, Option.map_id']
    exact framed

end ReplyReader

/-- A stream that starts with a frame gives its payload first. -/
theorem payloads_frame (ack : Bool) {payload : Bytes} (unhashed : 0x23 ∉ payload) (rest : Bytes) :
    payloads (((if ack then [0x2b] else []) ++ 0x24 :: (payload ++ 0x23 :: sumDigits payload)) ++
        rest) = (payloads rest).map (payload :: ·) :=
  ReplyReader.read_frame ack unhashed rest

/-- Acknowledgements between frames are passed over. -/
theorem payloads_acknowledgement (ack : Bool) (rest : Bytes) :
    payloads ((if ack then [0x2b] else []) ++ rest) = payloads rest := by
  have pass : ReplyReader.between.next 0x2b = some (.between, none) := rfl
  cases ack with
  | false => rfl
  | true =>
    simp only [payloads, if_true, List.singleton_append, ReplyReader.read, pass, Option.toList_none,
      List.nil_append, Option.map_id']

end DpcppTrace.Foundation
