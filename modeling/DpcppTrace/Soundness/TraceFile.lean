import DpcppTrace.Foundation.Framing
import DpcppTrace.Model.TraceFile
import DpcppTrace.Model.ApiCallWire

/-! # Both readers of a trace recover exactly what was written

A cut trace file holds a prefix of the written frames and a proper part of the next one. The
printer's loop appends one record for each whole frame and stops at the first pass that runs into
the end of the file, wherever the cut falls; the replay plugin's reader, called once for each
call, walks the same frames.
-/

namespace DpcppTrace.Soundness

open Foundation Framing Model

/-- The bytes of a trace file after the given records were written one after another. -/
def written (pb : Protobuf) (calls : List APICall) : Bytes := calls.flatMap (serialize pb)

theorem written_cons (pb : Protobuf) (call : APICall) (rest : List APICall) :
    written pb (call :: rest) = serialize pb call ++ written pb rest :=
  List.flatMap_cons

theorem written_eq_flatten (pb : Protobuf) (calls : List APICall) :
    written pb calls = (calls.map (serialize pb)).flatten := by
  rw [written, List.flatMap_def]

private theorem frameEnd_serialize (pb : Protobuf) (calls : List APICall) (index : ℕ) :
    frameEnd (calls.map (serialize pb)) index = (written pb (calls.take (index + 1))).length := by
  rw [frameEnd, written_eq_flatten, List.map_take]

/-- The printer's loop on a cut file: one record for each whole frame, then the end of the file. -/
theorem parseLoop_cut (pb : Protobuf) (junk : ℕ → StackFrame) (threadId : Bytes) (calls : List APICall)
    (framable : ∀ call ∈ calls, Framable pb call) (n fuel pass : ℕ) (records : List RecordT)
    (enough : calls.length < fuel) :
    parseLoop pb junk threadId fuel pass { rest := (written pb calls).take n } records =
      some (.ok (records ++
        (calls.take (wholeCount n (calls.map (serialize pb)))).map (threadId, ·))) := by
  obtain ⟨fuel, rfl⟩ := Nat.exists_eq_succ_of_ne_zero (Nat.ne_zero_of_lt enough)
  induction calls generalizing n fuel pass records with
  | nil =>
    obtain ⟨record, is, read, eof⟩ := readRecord_end pb (junk pass)
    have fresh : IStream.eof { rest := [] } = false := rfl
    simp [written, parseLoop, read, eof, fresh]
  | cons call rest ih =>
    have here := framable call (List.mem_cons_self ..)
    have later := fun other member => framable other (List.mem_cons_of_mem call member)
    have fresh (data : Bytes) : IStream.eof { rest := data } = false := rfl
    rw [written_eq_flatten, List.map_cons]
    by_cases whole : (serialize pb call).length ≤ n
    · obtain ⟨fuel, rfl⟩ : ∃ previous, fuel = previous + 1 :=
        Nat.exists_eq_succ_of_ne_zero (by simp only [List.length_cons] at enough; omega)
      rw [take_cons_of_whole _ _ whole, wholeCount, if_pos whole, List.take_succ_cons,
        List.map_cons, parseLoop, if_neg (by simp [fresh]), readRecord_frame here]
      simp only [fresh, Bool.false_eq_true, if_false]
      rw [← written_eq_flatten, ih later _ _ _ fuel (by simpa using enough), List.append_assoc,
        List.singleton_append]
    · obtain ⟨record, is, read, eof⟩ := readRecord_cut here (junk pass) n (by omega)
      rw [take_cons_of_inside _ _ (by omega), wholeCount, if_neg whole, parseLoop,
        if_neg (by simp [fresh]), read]
      simp [eof]

/-- The replay reader consumes one frame for each call. -/
theorem nextRecords_written (pb : Protobuf) (junk : ℕ → StackFrame) (calls : List APICall)
    (framable : ∀ call ∈ calls, Framable pb call) (count : ℕ) (present : count ≤ calls.length)
    (tail : Bytes) :
    nextRecords pb junk count { rest := written pb calls ++ tail } =
      .ok (calls.take count, { rest := written pb (calls.drop count) ++ tail }) := by
  induction count generalizing calls with
  | zero => rfl
  | succ count ih =>
    cases calls with
    | nil => simp at present
    | cons call rest =>
      have here := framable call (List.mem_cons_self ..)
      have later := fun other member => framable other (List.mem_cons_of_mem call member)
      rw [nextRecords, written_cons, List.append_assoc, getNextRecord, readRecord_frame here]
      simp only [bind, Except.bind]
      rw [ih rest later (by simpa using present)]
      rfl

/-- Cutting a trace file at any byte leaves the printer exactly the records whose frames lie
within the cut, and the replay reader returns the records of the whole file one by one. -/
theorem readers_recover_written (pb : Protobuf) (calls : List APICall)
    (framable : ∀ call ∈ calls, Framable pb call) (threadId : Bytes) (junk : ℕ → StackFrame) (n : ℕ) :
    (∃ whole ≤ calls.length,
      (∀ index < calls.length,
        index < whole ↔ (written pb (calls.take (index + 1))).length ≤ n) ∧
      ∀ fuel, calls.length < fuel → ∀ records,
        parseTraceFile pb junk fuel records threadId (.opened (some ((written pb calls).take n))) =
          some (.ok (records ++ (calls.take whole).map (threadId, ·)))) ∧
    ∀ count ≤ calls.length, ∃ is,
      nextRecords pb junk count (.opened (some (written pb calls))) = .ok (calls.take count, is) := by
  constructor
  · refine ⟨wholeCount n (calls.map (serialize pb)), ?_, ?_, ?_⟩
    · simpa using wholeCount_le n (calls.map (serialize pb))
    · intro index present
      rw [lt_wholeCount_iff _ _ _ (by simpa using present), frameEnd_serialize]
    · intro fuel enough records
      exact parseLoop_cut pb junk threadId calls framable n fuel 0 records enough
  · intro count present
    have read := nextRecords_written pb junk calls framable count present []
    rw [List.append_nil] at read
    exact ⟨_, read⟩

/-- Two records, of four and of no bytes, cut inside the second length field. -/
theorem readers_recover_written_two :
    (∀ call ∈ [({ function_id := 1, return_value := 7 } : APICall), {}], Framable wire call) ∧
    parseTraceFile wire (fun _ => {}) 3 [] (str "main")
        (.opened (some ((written wire [{ function_id := 1, return_value := 7 }, {}]).take 10))) =
      some (.ok [(str "main", { function_id := 1, return_value := 7 })]) := by
  have framable : ∀ call ∈ [({ function_id := 1, return_value := 7 } : APICall), {}],
      Framable wire call := by
    intro call member
    simp only [List.mem_cons, List.not_mem_nil, or_false] at member
    rcases member with rfl | rfl <;> unfold Framable <;> decide
  obtain ⟨whole, _, counted, parsed⟩ :=
    (readers_recover_written wire _ framable (str "main") (fun _ => {}) 10).1
  have first := (counted 0 (by decide)).mpr (by decide)
  have second := mt (counted 1 (by decide)).mp (by decide)
  obtain rfl : whole = 1 := by omega
  exact ⟨framable, parsed 3 (by decide) []⟩

end DpcppTrace.Soundness
