import DpcppTrace.Model.TraceFile
import DpcppTrace.Model.ApiCallWire

/-! # Reading trace files in any state

The loop of the printer looks at `eofbit` alone. A file that cannot be opened, a directory and a read
error never raise it, so the loop goes on and adds a record in each pass. On a regular file each pass
consumes the four bytes of a length at least. A length that makes the buffer wrap to nothing sends the
rest of the file to the few bytes that an empty string has.
-/

namespace DpcppTrace.Soundness

open Foundation Model

/-- What a directory entry can be; a read error strikes behind the first `count` bytes. -/
inductive TraceEntry where
  | file (content : Bytes)
  | unopenable (content : Bytes)
  | directory
  | readError (content : Bytes) (count : ℕ)

namespace TraceEntry

def content : TraceEntry → Bytes
  | .file content => content
  | .unopenable content => content
  | .directory => []
  | .readError content _ => content

/-- `std::ifstream{path}`: a directory can be opened, and the first read from it is an error. -/
def stream : TraceEntry → IStream
  | .file content => IStream.opened (some content)
  | .unopenable _ => IStream.opened none
  | .directory => { rest := [], broken := true }
  | .readError content count => { rest := content.take count, broken := true }

end TraceEntry

variable {pb : Protobuf} {threadId : Bytes}

/-! ## Streams without an end of file -/

/-- No read raises `eofbit`: the stream has failed already, or its source ends in an error. -/
def NeverEof (is : IStream) : Prop :=
  is.eofbit = false ∧ (is.broken = true ∨ is.good = false)

theorem NeverEof.read {is : IStream} (never : NeverEof is) (count : ℕ) :
    NeverEof (is.read count).2 := by
  obtain ⟨quiet, cause⟩ := never
  rw [IStream.read]
  split
  · rename_i good
    have broken : is.broken = true := cause.resolve_right (by simp [good])
    exact ⟨by simp [broken], .inl broken⟩
  · exact ⟨quiet, .inr (by simp [IStream.good])⟩

theorem NeverEof.readRecord {is next : IStream} {junk : StackFrame} {record : APICall}
    (never : NeverEof is) (ran : readRecord pb junk is = .ok (record, next)) : NeverEof next := by
  simp only [Model.readRecord] at ran
  split at ran
  · cases ran
  · obtain rfl := (Prod.mk.inj (Except.ok.inj ran)).2
    exact (never.read 4).read _

/-- On such a stream the loop does not return. -/
theorem NeverEof.parseLoop {is : IStream} (never : NeverEof is) (junk : ℕ → StackFrame) (fuel pass : ℕ)
    (records final : List RecordT) :
    parseLoop pb junk threadId fuel pass is records ≠ some (.ok final) := by
  induction fuel generalizing is pass records with
  | zero => simp [Model.parseLoop]
  | succ fuel ih =>
    have going {is : IStream} (never : NeverEof is) : ¬is.eof = true := by simp [IStream.eof, never.1]
    rw [Model.parseLoop, if_neg (going never)]
    cases ran : Model.readRecord pb (junk pass) is with
    | error fault => simp
    | ok next =>
      have later : NeverEof next.2 := never.readRecord ran
      simp only [if_neg (going later)]
      exact ih later _ _

/-! ## Regular files -/

/-- The length at the front of the data. -/
def frameSize (data : Bytes) : ℕ := ofLe (data.take 4)

/-- From this pass on, a length whose buffer wraps to nothing is reached, and more bytes stand behind it
than an empty string has room for. -/
inductive LengthOverruns (junk : ℕ → StackFrame) : ℕ → Bytes → Prop
  | here {pass : ℕ} {data : Bytes} (wraps : frameSize data + 1 = 2 ^ 32)
      (behind : 4 + (junk pass).room < data.length) : LengthOverruns junk pass data
  | later {pass : ℕ} {data : Bytes} (whole : 4 + frameSize data ≤ data.length)
      (rest : LengthOverruns junk (pass + 1) (data.drop (4 + frameSize data))) : LengthOverruns junk pass data

theorem frameSize_lt (data : Bytes) : frameSize data < 2 ^ 32 := by
  calc frameSize data < 256 ^ (data.take 4).length := ofLe_lt _
    _ ≤ 256 ^ 4 := Nat.pow_le_pow_right (by norm_num) (List.length_take_le 4 data)
    _ = 2 ^ 32 := by norm_num

/-- Data without a whole length ends the loop. -/
theorem readRecord_short (junk : StackFrame) {data : Bytes} (short : data.length < 4) :
    ∃ record is, readRecord pb junk { rest := data } = .ok (record, is) ∧ is.eof = true := by
  have failed : IStream.good { rest := [], eofbit := true, failbit := true } = false := rfl
  simp only [readRecord, IStream.read_short short, IStream.read_failed failed]
  rw [if_neg (by simp)]
  exact ⟨_, _, rfl, rfl⟩

theorem read_size {data : Bytes} (size : 4 ≤ data.length) :
    IStream.read { rest := data } 4 = (data.take 4, { rest := data.drop 4 }) := by
  have whole := IStream.read_enough (data.take 4) (data.drop 4) false
  rwa [List.take_append_drop, List.length_take, Nat.min_eq_left size] at whole

theorem overlay_size (junk : StackFrame) {data : Bytes} (size : 4 ≤ data.length) :
    ofLe (IStream.overlay (leBytes 4 junk.recordSize) (data.take 4)) = frameSize data := by
  rw [IStream.overlay_full, frameSize]
  rw [leBytes_length, List.length_take]
  omega

/-- A whole frame is consumed. -/
theorem readRecord_whole (junk : StackFrame) {data : Bytes} (whole : 4 + frameSize data ≤ data.length)
    (room : frameSize data + 1 ≠ 2 ^ 32) :
    ∃ record, readRecord pb junk { rest := data } =
      .ok (record, { rest := data.drop (4 + frameSize data) }) := by
  have bound := frameSize_lt data
  have read : IStream.read { rest := data.drop 4 } (frameSize data) =
      ((data.drop 4).take (frameSize data), { rest := data.drop (4 + frameSize data) }) := by
    have enough := IStream.read_enough ((data.drop 4).take (frameSize data))
      ((data.drop 4).drop (frameSize data)) false
    rwa [List.take_append_drop, List.length_take, List.length_drop, Nat.min_eq_left (by omega),
      List.drop_drop] at enough
  have fits : (frameSize data + 1) % 2 ^ 32 = frameSize data + 1 := Nat.mod_eq_of_lt (by omega)
  simp only [readRecord, read_size (by omega : 4 ≤ data.length),
    overlay_size junk (by omega : 4 ≤ data.length), read, fits]
  rw [if_neg (by simp only [List.length_take]; omega)]
  exact ⟨_, rfl⟩

/-- A frame that is cut ends the loop. -/
theorem readRecord_rest (junk : StackFrame) {data : Bytes} (size : 4 ≤ data.length)
    (cut : data.length < 4 + frameSize data)
    (fits : frameSize data + 1 ≠ 2 ^ 32 ∨ data.length ≤ 4 + junk.room) :
    ∃ record is, readRecord pb junk { rest := data } = .ok (record, is) ∧ is.eof = true := by
  have bound := frameSize_lt data
  have short : (data.drop 4).length < frameSize data := by
    rw [List.length_drop]
    omega
  simp only [readRecord, read_size size, overlay_size junk size, IStream.read_short short]
  have inside : ¬max ((frameSize data + 1) % 2 ^ 32) junk.room < (data.drop 4).length := by
    rcases fits with fits | few
    · rw [Nat.mod_eq_of_lt (by omega)]
      omega
    · rw [List.length_drop]
      omega
  rw [if_neg inside]
  exact ⟨_, _, rfl, rfl⟩

/-- More bytes than an empty string has room for overrun the wrapped buffer. -/
theorem readRecord_overrun (junk : StackFrame) {data : Bytes} (wraps : frameSize data + 1 = 2 ^ 32)
    (behind : 4 + junk.room < data.length) :
    readRecord pb junk { rest := data } = .error .bufferOverrun := by
  have bounded := junk.bounded
  have size : 4 ≤ data.length := by omega
  have delivered : (IStream.read { rest := data.drop 4 } (frameSize data)).1 =
      (data.drop 4).take (frameSize data) := rfl
  have overrun : max 0 junk.room < ((data.drop 4).take (frameSize data)).length := by
    simp only [List.length_take, List.length_drop]
    omega
  simp only [readRecord, read_size size, overlay_size junk size, delivered, wraps, Nat.mod_self,
    if_pos overrun]

/-- A pass over a regular file consumes a frame, or ends the loop, or overruns the buffer. -/
theorem readRecord_file (pb : Protobuf) (junk : ℕ → StackFrame) (pass : ℕ) (data : Bytes) :
    (4 + frameSize data ≤ data.length ∧
        (LengthOverruns junk pass data ↔ LengthOverruns junk (pass + 1) (data.drop (4 + frameSize data))) ∧
        ∃ record, readRecord pb (junk pass) { rest := data } =
          .ok (record, { rest := data.drop (4 + frameSize data) })) ∨
      (¬LengthOverruns junk pass data ∧
        ∃ record is, readRecord pb (junk pass) { rest := data } = .ok (record, is) ∧ is.eof = true) ∨
      LengthOverruns junk pass data ∧ readRecord pb (junk pass) { rest := data } = .error .bufferOverrun := by
  have bounded := (junk pass).bounded
  by_cases short : data.length < 4
  · refine .inr (.inl ⟨fun overruns => ?_, readRecord_short (junk pass) short⟩)
    cases overruns <;> omega
  have size : 4 ≤ data.length := by omega
  by_cases wraps : frameSize data + 1 = 2 ^ 32
  · by_cases behind : 4 + (junk pass).room < data.length
    · exact .inr (.inr ⟨.here wraps behind, readRecord_overrun (junk pass) wraps behind⟩)
    · have cut : data.length < 4 + frameSize data := by omega
      refine .inr (.inl ⟨fun overruns => ?_,
        readRecord_rest (junk pass) size cut (.inr (by omega))⟩)
      cases overruns <;> omega
  · by_cases whole : 4 + frameSize data ≤ data.length
    · refine .inl ⟨whole, ⟨fun overruns => ?_, .later whole⟩,
        readRecord_whole (junk pass) whole wraps⟩
      cases overruns with
      | here bad => exact absurd bad wraps
      | later _ rest => exact rest
    · have cut : data.length < 4 + frameSize data := by omega
      refine .inr (.inl ⟨fun overruns => ?_, readRecord_rest (junk pass) size cut (.inl wraps)⟩)
      cases overruns <;> omega

/-! ## The loop -/

/-- The loop does not return from a file in which it overruns its buffer. -/
theorem parseLoop_ne_ok (junk : ℕ → StackFrame) (fuel pass : ℕ) {data : Bytes}
    (overruns : LengthOverruns junk pass data) (records final : List RecordT) :
    parseLoop pb junk threadId fuel pass { rest := data } records ≠ some (.ok final) := by
  induction fuel generalizing pass data records with
  | zero => simp [parseLoop]
  | succ fuel ih =>
    have fresh (data : Bytes) : IStream.eof { rest := data } = false := rfl
    rw [parseLoop, if_neg (by simp [fresh])]
    rcases readRecord_file pb junk pass data with
      ⟨-, same, record, ran⟩ | ⟨fits, -⟩ | ⟨-, ran⟩
    · simp only [ran, fresh, Bool.false_eq_true, if_false]
      exact ih _ (same.mp overruns) _
    · exact absurd overruns fits
    · simp [ran]

/-- From any other file the loop returns, with one record for each four bytes at most. -/
theorem parseLoop_ends (junk : ℕ → StackFrame) {fuel : ℕ} (pass : ℕ) {data : Bytes}
    (fits : ¬LengthOverruns junk pass data) (records : List RecordT) (enough : data.length < fuel) :
    ∃ added, parseLoop pb junk threadId fuel pass { rest := data } records =
      some (.ok (records ++ added)) ∧ 4 * added.length ≤ data.length := by
  induction fuel generalizing pass data records with
  | zero => omega
  | succ fuel ih =>
    have fresh (data : Bytes) : IStream.eof { rest := data } = false := rfl
    rw [parseLoop, if_neg (by simp [fresh])]
    rcases readRecord_file pb junk pass data with
      ⟨whole, same, record, ran⟩ | ⟨-, record, is, ran, ended⟩ | ⟨overruns, -⟩
    · have left : (data.drop (4 + frameSize data)).length + (4 + frameSize data) = data.length := by
        rw [List.length_drop]
        omega
      obtain ⟨added, later, bound⟩ := ih (pass + 1) (mt same.mpr fits)
        (records ++ [(threadId, record)]) (by omega)
      refine ⟨(threadId, record) :: added, ?_, ?_⟩
      · simp only [ran, fresh, Bool.false_eq_true, if_false, later]
        simp
      · rw [List.length_cons]
        omega
    · exact ⟨[], by simp [ran, ended], by simp⟩
    · exact absurd overruns fits

/-! ## Every state of an entry -/

/-- Reading the entry ends and adds one record for each four bytes at most. -/
def ReadsBounded (pb : Protobuf) (junk : ℕ → StackFrame) (records : List RecordT) (threadId : Bytes)
    (entry : TraceEntry) : Prop :=
  ∃ fuel added, parseTraceFile pb junk fuel records threadId entry.stream =
    some (.ok (records ++ added)) ∧ 4 * added.length ≤ entry.content.length

/-- The entry is a regular file that can be opened and read, and no length in it sends more bytes to an
empty string than this has room for. -/
inductive ReadableEntry (junk : ℕ → StackFrame) : TraceEntry → Prop
  | file {content : Bytes} (fits : ¬LengthOverruns junk 0 content) : ReadableEntry junk (.file content)

/-- Reading an entry ends, within the bound, exactly if it is a readable regular file in which no
length that is reached overruns a wrapped buffer. -/
theorem reads_bounded_iff (pb : Protobuf) (junk : ℕ → StackFrame) (records : List RecordT)
    (threadId : Bytes) (entry : TraceEntry) :
    ReadsBounded pb junk records threadId entry ↔ ReadableEntry junk entry := by
  constructor
  · rintro ⟨fuel, added, ended, -⟩
    have returns (never : NeverEof entry.stream) : ReadableEntry junk entry :=
      absurd ended (never.parseLoop junk fuel 0 records _)
    cases entry with
    | file content =>
      exact .file fun overruns => parseLoop_ne_ok junk fuel 0 overruns records _ ended
    | unopenable content => exact returns ⟨rfl, .inr rfl⟩
    | directory => exact returns ⟨rfl, .inl rfl⟩
    | readError content count => exact returns ⟨rfl, .inl rfl⟩
  · rintro ⟨fits⟩
    exact ⟨_, parseLoop_ends junk 0 fits records (Nat.lt_succ_self _)⟩

/-- A file that cannot be opened, and a directory. -/
theorem not_reads_bounded :
    ¬ReadsBounded wire (fun _ => {}) [] (str "main") (.unopenable [1, 0, 0, 0, 0]) ∧
      ¬ReadsBounded wire (fun _ => {}) [] (str "main") .directory := by
  constructor
  · rintro ⟨fuel, added, ended, -⟩
    have never : NeverEof (TraceEntry.unopenable [1, 0, 0, 0, 0]).stream := ⟨rfl, .inr rfl⟩
    exact never.parseLoop _ fuel 0 [] _ ended
  · rintro ⟨fuel, added, ended, -⟩
    have never : NeverEof TraceEntry.directory.stream := ⟨rfl, .inl rfl⟩
    exact never.parseLoop _ fuel 0 [] _ ended

end DpcppTrace.Soundness
