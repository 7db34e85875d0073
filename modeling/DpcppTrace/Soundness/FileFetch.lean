import DpcppTrace.Soundness.RemoteSession

/-! # Fetching a file

A client gets a file by reading it piece by piece through an open descriptor. The reads may stand among
any other commands, as long as the descriptor is not closed: together their results are the bytes of the
file.
-/

namespace DpcppTrace.Soundness

open Foundation Model

/-! ## The descriptor -/

/-- While `holds`, a read through the descriptor gives the bytes of the file at its offset, as many as are
wanted and there; only closing it may end that. -/
structure FileOpen {σ : Type} (environment : Environment Request.Answer σ) (holds : σ → Prop)
    (fd : Fin (2 ^ 31)) (content : Bytes) : Prop where
  read : ∀ state offset count, holds state → (environment state (.llread (.ofNat fd) offset count)).1 =
    some ((content.drop offset.toNat).take count.toNat)
  kept : ∀ state request, request ≠ .llclose (.ofNat fd) → holds state →
    holds (environment state request).2

private theorem ofNat_injective {first second : Fin (2 ^ 31)}
    (same : Int32.ofNat first = Int32.ofNat second) : first = second := by
  apply Fin.ext
  rw [← Int32.toNatClampNeg_ofNat_of_lt first.2, same, Int32.toNatClampNeg_ofNat_of_lt second.2]

/-- Only the command for it closes a descriptor. -/
theorem asks_close {command : Command} {fd : Fin (2 ^ 31)} (other : command ≠ .closeFile fd)
    (remote : Remote) : (command.perform remote).Asks (· ≠ .llclose (.ofNat fd)) True := by
  cases command with
  | isAttached | stopReason | currentThread | readRegisters | readRegister | openFile =>
    exact ⟨by simp, fun _ => trivial⟩
  | stopAcknowledging | selectThread | selectAny => trivial
  | nextThread restart =>
    refine ⟨by simp, fun count => ?_⟩
    change Program.Asks _ _ ((if remote.listed < count then _ else _ : Conversation (Option UInt64))
      remote)
    split
    · exact ⟨by simp, fun _ => trivial⟩
    · trivial
  | readMemory addr len =>
    change Program.Asks _ _ ((if len = 0 then _ else _ : Conversation (Option Bytes)) remote)
    split
    · trivial
    · exact ⟨by simp, fun _ => trivial⟩
  | breakpoint inserts => cases inserts <;> exact ⟨by simp, fun _ => trivial⟩
  | resume how => exact ⟨by cases how <;> simp [Resumption.request], fun _ => ⟨by simp, fun _ => trivial⟩⟩
  | closeFile closed =>
    refine ⟨fun same => other ?_, fun _ => trivial⟩
    rw [ofNat_injective (Request.llclose.inj same)]
  | readFile from_ count offset =>
    change Program.Asks _ _ ((if 0x8000000000000000 ≤ count then _ else _ : Conversation FileData) remote)
    split
    · trivial
    · refine ⟨by simp, fun allocated => ?_⟩
      cases allocated with
      | false => trivial
      | true =>
        refine ⟨by simp, fun outcome => ?_⟩
        change Program.Asks _ _ (handOver (outcome.bind counted) remote)
        cases outcome.bind counted with
        | none => trivial
        | some data => trivial

/-! ## The pieces -/

/-- Each read starts where the one before it was to end, and the last ends behind the file. -/
inductive Tiles (size : ℕ) : ℕ → List (UInt64 × UInt64) → Prop where
  | done {start : ℕ} (behind : size ≤ start) : Tiles size start []
  | piece {start : ℕ} {count offset : UInt64} {reads : List (UInt64 × UInt64)}
    (here : offset.toNat = start) (counted : count.toNat < 2 ^ 31)
    (rest : Tiles size (start + count.toNat) reads) : Tiles size start ((count, offset) :: reads)

/-- The size and the offset of a read through the descriptor. -/
def Command.readOf (fd : Fin (2 ^ 31)) : Command → Option (UInt64 × UInt64)
  | .readFile other count offset => if other = fd then some (count, offset) else none
  | _ => none

/-- The bytes that a read through the descriptor has given. -/
def Performed.bytesOf (fd : Fin (2 ^ 31)) : Performed → Bytes
  | ⟨.readFile other _ _, data⟩ => if other = fd then data.1 else []
  | _ => []

/-- The sizes and the offsets of the reads through the descriptor. -/
def readsOf (fd : Fin (2 ^ 31)) (commands : List Command) : List (UInt64 × UInt64) :=
  commands.filterMap (Command.readOf fd)

/-- What the reads through the descriptor have given, put together. -/
def bytesOf (fd : Fin (2 ^ 31)) (outcomes : List Performed) : Bytes :=
  outcomes.flatMap (Performed.bytesOf fd)

/-- A command is a read through the descriptor or gives nothing of it. -/
theorem readOf_cases (fd : Fin (2 ^ 31)) (command : Command) :
    (command.readOf fd = none ∧ ∀ result, Performed.bytesOf fd ⟨command, result⟩ = []) ∨
      ∃ count offset, command = .readFile fd count offset := by
  cases command with
  | readFile other count offset =>
    by_cases same : other = fd
    · exact .inr ⟨count, offset, by rw [same]⟩
    · exact .inl ⟨if_neg same, fun _ => if_neg same⟩
  | _ => exact .inl ⟨rfl, fun _ => rfl⟩

section Runs

variable {σ : Type} {environment : Environment Request.Answer σ} {holds : σ → Prop}
  {fd : Fin (2 ^ 31)} {content : Bytes}

/-- Nothing is cut from a buffer that an `int` can count. -/
theorem counted_eq {buf : Bytes} (few : buf.length < 2 ^ 31) : counted buf = some ⟨buf, few⟩ := by
  have positive : ¬Int32.ofNat buf.length < 0 := by
    rw [Int32.lt_iff_toInt_lt, Int32.toInt_ofNat_of_lt few]
    exact not_lt.mpr (Int.natCast_nonneg buf.length)
  rw [counted, dif_neg positive]
  apply congrArg some
  apply Subtype.ext
  change buf.take (Int32.ofNat buf.length).toNatClampNeg = buf
  rw [Int32.toNatClampNeg_ofNat_of_lt few, List.take_length]

/-- A read that does not break off gives the bytes at its offset. -/
theorem readFile_value (served : FileOpen environment holds fd content) {count offset : UInt64}
    (few : count.toNat < 2 ^ 31) {remote next : Remote} {state : σ} (start : holds state)
    {data : FileData}
    (ended : (((Command.readFile fd count offset).perform remote).run environment state).value =
      some (data, next)) : data.1 = (content.drop offset.toNat).take count.toNat := by
  have small : ¬0x8000000000000000 ≤ count := by
    rw [UInt64.le_iff_toNat_le]
    exact Nat.not_le.mpr (Nat.lt_trans few (by decide))
  change (((if 0x8000000000000000 ≤ count then _ else _ : Conversation FileData) remote).run
    environment state).value = _ at ended
  rw [if_neg small] at ended
  have open_ := served.kept state (.allocate count) (by simp) start
  change (((if (environment state (.allocate count)).1 = true then _ else _ :
    Conversation FileData) remote).run environment (environment state (.allocate count)).2).value =
      _ at ended
  split at ended
  · change ((handOver (Option.bind (environment (environment state (.allocate count)).2
      (.llread (.ofNat fd) offset count)).1 counted) remote).run environment _).value = _ at ended
    have within : ((content.drop offset.toNat).take count.toNat).length < 2 ^ 31 :=
      Nat.lt_of_le_of_lt (List.length_take_le _ _) few
    rw [served.read _ offset count open_, Option.bind_some, counted_eq within] at ended
    exact congrArg Subtype.val (congrArg Prod.fst (Option.some.inj ended)).symm
  · cases ended

/-- From the state on, the reads give what is left of the file from their offset on. -/
theorem bytesOf_converse (served : FileOpen environment holds fd content) {commands : List Command}
    (open_ : ∀ command ∈ commands, command ≠ .closeFile fd) {position : ℕ}
    (tiles : Tiles content.length position (readsOf fd commands)) {remote : Remote} {state : σ}
    (start : holds state) (whole : (converse environment commands remote state).brokenOff = false) :
    bytesOf fd (converse environment commands remote state).outcomes = content.drop position := by
  induction commands generalizing position remote state with
  | nil =>
    cases tiles with
    | done behind => exact (List.drop_eq_nil_of_le behind).symm
  | cons command commands ih =>
    have notClosed := asks_close (open_ command List.mem_cons_self) remote
    have kept := notClosed.final (fun here request other => served.kept here request other) start
    rw [converse] at whole ⊢
    cases ended : ((command.perform remote).run environment state).value with
    | none =>
      rw [ended] at whole
      cases whole
    | some outcome =>
      obtain ⟨result, next⟩ := outcome
      rw [ended] at whole
      change Performed.bytesOf fd ⟨command, result⟩ ++ bytesOf fd (converse environment commands next
        ((command.perform remote).run environment state).final).outcomes = _
      have others (position : ℕ) (tiles : Tiles content.length position (readsOf fd commands)) :=
        ih (fun other mem => open_ other (List.mem_cons_of_mem _ mem)) tiles kept whole
      rcases readOf_cases fd command with ⟨nothing, silent⟩ | ⟨count, offset, rfl⟩
      · rw [readsOf, List.filterMap_cons_none nothing] at tiles
        rw [silent result, others position tiles, List.nil_append]
      · have read : (Command.readFile fd count offset).readOf fd = some (count, offset) := if_pos rfl
        rw [readsOf, List.filterMap_cons_some read] at tiles
        cases tiles with
        | piece here few rest =>
          have piece := readFile_value served few start ended
          change (if fd = fd then result.1 else []) ++ _ = _
          rw [if_pos rfl, piece, here, others _ rest, ← List.drop_drop, List.take_append_drop]

/-- A client that reads a file piece by piece through the server, among any other packets that leave it
open, has the file in the end. -/
theorem file_fetched (served : FileOpen environment holds fd content) (reads : List ClientRead)
    (open_ : ∀ command ∈ commandsOf reads, command ≠ .closeFile fd)
    (tiles : Tiles content.length 0 (readsOf fd (commandsOf reads))) (buf : Memory) (remote : Remote)
    (state : σ) (start : holds state)
    (whole : (DebugServer.run environment (reads.map ClientRead.bytes) buf remote.protocol
      state).crashed = false) :
    (readReplies reads (DebugServer.run environment (reads.map ClientRead.bytes) buf remote.protocol
      state).replies).map (bytesOf fd) = some content := by
  have mirrors := mirrors_run environment reads buf remote state
  rw [mirrors.crashed] at whole
  have bytes := bytesOf_converse served open_ tiles start whole
  rw [mirrors.outcomes, Option.map_some, bytes, List.drop_zero]

end Runs

/-- A debugger under which every descriptor stands for this file. -/
def fileServer (content : Bytes) : Environment Request.Answer Unit :=
  fun state request => match request with
    | .llread _ offset count => (some ((content.drop offset.toNat).take count.toNat), ())
    | other => objectsDebugger default default default state other

private theorem fileOpen_fileServer (fd : Fin (2 ^ 31)) (content : Bytes) :
    FileOpen (fileServer content) (fun _ => True) fd content :=
  ⟨fun _ _ _ _ => rfl, fun _ _ _ _ => trivial⟩

/-- Two reads of two bytes, with another command and an acknowledgement between them. -/
def twoPieces : List ClientRead :=
  [.sends ⟨.readFile 3 2 0, false, 0x30, 0x30, rfl, rfl⟩,
    .sends ⟨.currentThread, true, 0x30, 0x30, rfl, rfl⟩, .acknowledgement,
    .sends ⟨.readFile 3 2 2, false, 0x30, 0x30, rfl, rfl⟩]

/-- Three bytes, two of them marks of a frame. -/
theorem file_fetched_marks :
    (readReplies twoPieces (DebugServer.run (fileServer [0x61, 0x23, 0x2a])
      (twoPieces.map ClientRead.bytes) (fun _ => 0) (Remote.protocol {}) ()).replies).map
        (bytesOf 3) = some [0x61, 0x23, 0x2a] := by
  have tiles : Tiles 3 0 (readsOf 3 (commandsOf twoPieces)) :=
    .piece rfl (by decide) (.piece rfl (by decide) (.done (by decide)))
  have whole := (mirrors_run (fileServer [0x61, 0x23, 0x2a]) twoPieces (fun _ => 0) {} ()).crashed
  have served := fileOpen_fileServer 3 [0x61, 0x23, 0x2a]
  apply file_fetched served twoPieces _ tiles (fun _ => 0) {} () trivial
  · exact whole.trans (by decide)
  · simp [twoPieces, commandsOf, ClientRead.command]

end DpcppTrace.Soundness
