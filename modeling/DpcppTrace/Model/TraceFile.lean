import DpcppTrace.Foundation.Stream
import DpcppTrace.Model.ApiCall

/-! # Writing and reading trace files

The recorder appends frames to a thread's file: a 32-bit size and the serialised message. The
printer reads frames until end of file, the replay plugin one for each call. Both read the size
into an uninitialised variable, grow a buffer to one byte more than that size (in 32-bit
arithmetic) and ignore the parser's verdict; they differ in how they treat the end of the file.
What the stack holds, as the value of an uninitialised variable, is an input of the model.
-/

namespace DpcppTrace.Model

open Foundation

/-- `serialize`: the bytes one record appends to the stream. -/
def serialize (pb : Protobuf) (call : APICall) : Bytes :=
  let out := pb.SerializeToString call
  let size := out.length % 2 ^ 32
  leBytes 4 size ++ out.take size

/-- A buffer of `recordSize + 1` characters wrapped to zero, and the data went beyond what an empty
string has room for. -/
inductive ReadFault where
  | bufferOverrun
deriving DecidableEq, Repr

/-- What the stack of a reader holds: a value for the uninitialised size, and how many bytes can be
written from the storage of an empty string on without harm. The string itself has 16 of them; whether
there are more is up to the compiler. -/
structure StackFrame where
  recordSize : ℕ := 0
  room : ℕ := 16
  own : 16 ≤ room := by decide
  bounded : room < 2 ^ 32 - 1 := by decide

/-- The common body of both readers: the size, the data and the parse. -/
def readRecord (pb : Protobuf) (junk : StackFrame) (is : IStream) :
    Except ReadFault (APICall × IStream) :=
  let (sizeBytes, is) := is.read 4
  let recordSize := ofLe (IStream.overlay (leBytes 4 junk.recordSize) sizeBytes)
  let bufferSize := (recordSize + 1) % 2 ^ 32
  let (data, is) := is.read recordSize
  if max bufferSize junk.room < data.length then .error .bufferOverrun
  else
    let rawData := IStream.overlay (List.replicate bufferSize 0) (data.take bufferSize)
    .ok (pb.ParseFromString rawData, is)

/-- `getNextRecord` of the replay plugin. -/
def getNextRecord (pb : Protobuf) (junk : StackFrame) (is : IStream) :
    Except ReadFault (APICall × IStream) :=
  readRecord pb junk is

/-- `RecordT`: the thread a record belongs to, and the record. -/
abbrev RecordT := Bytes × APICall

/-- The loop of `parseTraceFile`; `junk pass` is what the stack holds before pass `pass`. -/
def parseLoop (pb : Protobuf) (junk : ℕ → StackFrame) (threadId : Bytes) :
    ℕ → ℕ → IStream → List RecordT → Option (Except ReadFault (List RecordT))
  | 0, _, _, _ => none
  | fuel + 1, pass, trace, records =>
    if trace.eof then some (.ok records)
    else
      match readRecord pb (junk pass) trace with
      | .error fault => some (.error fault)
      | .ok (record, trace) =>
        if trace.eof then some (.ok records)
        else parseLoop pb junk threadId fuel (pass + 1) trace (records ++ [(threadId, record)])

/-- `parseTraceFile`: the records appended for the file with stem `threadId`. -/
def parseTraceFile (pb : Protobuf) (junk : ℕ → StackFrame) (fuel : ℕ) (records : List RecordT)
    (threadId : Bytes) (file : IStream) : Option (Except ReadFault (List RecordT)) :=
  parseLoop pb junk threadId fuel 0 file records

/-- Successive calls of `getNextRecord` on one stream. -/
def nextRecords (pb : Protobuf) (junk : ℕ → StackFrame) :
    ℕ → IStream → Except ReadFault (List APICall × IStream)
  | 0, is => .ok ([], is)
  | count + 1, is => do
    let (call, is) ← getNextRecord pb (junk count) is
    let (calls, is) ← nextRecords pb junk count is
    pure (call :: calls, is)

/-- A message whose size survives the 32-bit length field and the buffer's extra byte. -/
def Framable (pb : Protobuf) (call : APICall) : Prop :=
  (pb.SerializeToString call).length < 2 ^ 32 - 1

theorem serialize_of_framable {pb : Protobuf} {call : APICall} (framable : Framable pb call) :
    serialize pb call =
      leBytes 4 (pb.SerializeToString call).length ++ pb.SerializeToString call := by
  unfold Framable at framable
  have small : (pb.SerializeToString call).length % 2 ^ 32 = (pb.SerializeToString call).length :=
    Nat.mod_eq_of_lt (by omega)
  simp only [serialize, small, List.take_length]

/-- A whole frame at the front of the file is read back and consumed exactly. -/
theorem readRecord_frame {pb : Protobuf} {call : APICall} (framable : Framable pb call)
    (junk : StackFrame) (tail : Bytes) (broken : Bool) :
    readRecord pb junk { rest := serialize pb call ++ tail, broken } =
      .ok (call, { rest := tail, broken }) := by
  have bound : (pb.SerializeToString call).length < 2 ^ 32 - 1 := framable
  rw [serialize_of_framable framable]
  generalize data : pb.SerializeToString call = out at bound
  have header : IStream.read { rest := leBytes 4 out.length ++ (out ++ tail), broken } 4 =
      (leBytes 4 out.length, { rest := out ++ tail, broken }) := by
    simpa using IStream.read_enough (leBytes 4 out.length) (out ++ tail) broken
  have size : ofLe (IStream.overlay (leBytes 4 junk.recordSize) (leBytes 4 out.length)) = out.length :=
    IStream.ofLe_overlay 4 junk.recordSize (by norm_num; omega)
  have room : (out.length + 1) % 2 ^ 32 = out.length + 1 := Nat.mod_eq_of_lt (by omega)
  have parsed := pb.parse_zero call
  rw [data] at parsed
  have all : out.take (out.length + 1) = out := List.take_of_length_le (Nat.le_succ _)
  simp only [readRecord, List.append_assoc, header, size, IStream.read_enough, room, all,
    IStream.overlay_replicate, List.replicate_one, parsed]
  rw [if_neg (by omega)]

/-- A file that ends inside a frame raises `eofbit` while that frame is read. -/
theorem readRecord_cut {pb : Protobuf} {call : APICall} (framable : Framable pb call)
    (junk : StackFrame) (n : ℕ) (inside : n < (serialize pb call).length) :
    ∃ record is, readRecord pb junk { rest := (serialize pb call).take n } = .ok (record, is) ∧
      is.eof = true := by
  have bound : (pb.SerializeToString call).length < 2 ^ 32 - 1 := framable
  rw [serialize_of_framable framable] at inside ⊢
  generalize pb.SerializeToString call = out at bound inside
  rw [List.length_append, leBytes_length] at inside
  by_cases header : n < 4
  · have short : ((leBytes 4 out.length ++ out).take n).length < 4 := by
      rw [List.length_take]; omega
    have failed : IStream.good { rest := [], eofbit := true, failbit := true } = false := rfl
    simp only [readRecord, IStream.read_short short, IStream.read_failed failed]
    rw [if_neg (by simp)]
    exact ⟨_, _, rfl, rfl⟩
  · obtain ⟨kept, rfl⟩ := Nat.exists_eq_add_of_le (by omega : 4 ≤ n)
    have front : (leBytes 4 out.length ++ out).take (4 + kept) =
        leBytes 4 out.length ++ out.take kept := by
      rw [List.take_append, List.take_of_length_le (by simp), leBytes_length, Nat.add_sub_cancel_left]
    have size : ofLe (IStream.overlay (leBytes 4 junk.recordSize) (leBytes 4 out.length)) = out.length :=
      IStream.ofLe_overlay 4 junk.recordSize (by norm_num; omega)
    have read : IStream.read { rest := leBytes 4 out.length ++ out.take kept } 4 =
        (leBytes 4 out.length, { rest := out.take kept }) := by
      simpa using IStream.read_enough (leBytes 4 out.length) (out.take kept) false
    have short : (out.take kept).length < out.length := by rw [List.length_take]; omega
    have room : (out.length + 1) % 2 ^ 32 = out.length + 1 := Nat.mod_eq_of_lt (by omega)
    rw [front]
    simp only [readRecord, read, size, IStream.read_short short, room]
    rw [if_neg (by omega)]
    exact ⟨_, _, rfl, rfl⟩

/-- At the end of the file a reader sees `eofbit` as soon as it asks for a size. -/
theorem readRecord_end (pb : Protobuf) (junk : StackFrame) :
    ∃ record is, readRecord pb junk { rest := [] } = .ok (record, is) ∧ is.eof = true := by
  have short : ([] : Bytes).length < 4 := by decide
  have failed : IStream.good { rest := [], eofbit := true, failbit := true } = false := rfl
  simp only [readRecord, IStream.read_short short, IStream.read_failed failed]
  rw [if_neg (by simp)]
  exact ⟨_, _, rfl, rfl⟩

end DpcppTrace.Model
