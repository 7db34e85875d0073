import DpcppTrace.Soundness.FileNames

/-! # Replacing a file name

The name goes into the space that is reserved below the red zone, a word at a time: a name shorter
than `PATH_MAX` and its terminator take at most all of that space. What is stored is the name, its
terminator and what fills the last word; the register is pointed at it, and the reader gets the name
back.
-/

namespace DpcppTrace.Soundness

open Foundation Model Model.NativeTracer MappedMemory

section Writing

variable {memory : MappedMemory} {base : UInt64} {text : Bytes} (stale : ℕ → UInt8)

/-- A buffer that the text fills. -/
theorem fillBuffer_whole {offset i left : ℕ} (inside : offset + i + left ≤ text.length) :
    fillBuffer text offset stale i left = ((text.drop (offset + i)).take left, false) := by
  induction left generalizing i with
  | zero => rw [fillBuffer, List.take_zero]
  | succ left ih =>
    have byte : text[offset + i]? = some text[offset + i] := List.getElem?_eq_getElem (by omega)
    rw [fillBuffer, if_neg (by omega), ih (by omega),
      List.drop_eq_getElem_cons (by omega : offset + i < text.length), List.take_succ_cons,
      List.getD_eq_getElem?_getD, byte]
    rfl

/-- The buffer of the end of the text: what is left of it, the terminator, and what was there. -/
theorem fillBuffer_last {offset i left : ℕ} (inside : offset + i ≤ text.length)
    (ends : text.length < offset + i + left) :
    ∃ padding, fillBuffer text offset stale i left =
        (text.drop (offset + i) ++ 0 :: padding, true) ∧
      (text.drop (offset + i) ++ 0 :: padding).length = left := by
  induction left generalizing i with
  | zero => omega
  | succ left ih =>
    rw [fillBuffer]
    split
    · rename_i atEnd
      refine ⟨(List.range' (i + 1) left).map stale, ?_, ?_⟩
      · rw [List.drop_eq_nil_of_le (by omega)]
        rfl
      · simp
        omega
    · have further : offset + (i + 1) ≤ text.length := by omega
      obtain ⟨padding, filled, length⟩ := ih further (by omega)
      have byte : text[offset + i]? = some text[offset + i] := List.getElem?_eq_getElem (by omega)
      refine ⟨padding, ?_, ?_⟩
      · rw [filled, List.drop_eq_getElem_cons (by omega : offset + i < text.length),
          List.getD_eq_getElem?_getD, byte]
        rfl
      · rw [List.drop_eq_getElem_cons (by omega : offset + i < text.length), List.cons_append,
          List.length_cons]
        exact congrArg (· + 1) length

/-- The writer after so many whole words of the text. -/
def writtenWords (memory : MappedMemory) (base : UInt64) (text : Bytes) (words : ℕ) :
    WriteString where
  stackAddr := base + UInt64.ofNat (8 * words)
  offset := 8 * words
  memory := memory.store base (text.take (8 * words))

/-- In reserved space every word can be stored, whatever was stored before. -/
theorem pokeText_reserved {words : ℕ} (reserved : Mapped memory base 4096)
    (inside : 8 * words + 8 ≤ 4096) (stored word : Bytes) :
    pokeText (memory.store base stored) (base + UInt64.ofNat (8 * words)) word =
      some ((memory.store base stored).store (base + UInt64.ofNat (8 * words)) word) := by
  have mapped : Mapped (memory.store base stored) (base + UInt64.ofNat (8 * words)) 8 := by
    intro i small
    rw [UInt64.add_assoc, ← UInt64.ofNat_add]
    exact store_isSome (reserved _ (by omega))
  exact if_pos (load_isSome_iff.mpr mapped)

private theorem writeNext_whole {words : ℕ} (reserved : Mapped memory base 4096)
    (short : text.length < 4096) (inside : 8 * (words + 1) ≤ text.length) :
    (writtenWords memory base text words).next text stale =
      .ok (writtenWords memory base text (words + 1)) := by
  have front : (text.take (8 * words)).length = 8 * words := by
    rw [List.length_take]
    omega
  have sized : (text.take (8 * words)).length + ((text.drop (8 * words)).take 8).length < 2 ^ 64 := by
    rw [front, List.length_take]
    omega
  have joined := store_store memory base sized
  rw [front, ← List.take_add] at joined
  have room : 8 * words + 0 + 8 ≤ text.length := by omega
  have filled := fillBuffer_whole stale room
  rw [Nat.add_zero] at filled
  simp only [WriteString.next, writtenWords, longSize, filled,
    pokeText_reserved reserved (by omega : 8 * words + 8 ≤ 4096), joined]
  rw [UInt64.add_assoc, ← UInt64.ofNat_add]
  rfl

/-- The last word is stored with the terminator. -/
theorem writeNext_last (reserved : Mapped memory base 4096) (short : text.length < 4096) :
    ∃ padding, (text ++ 0 :: padding).length = 8 * (text.length / 8 + 1) ∧
      ∃ stackAddr offset, (writtenWords memory base text (text.length / 8)).next text stale =
        .ok ⟨stackAddr, offset, true, memory.store base (text ++ 0 :: padding)⟩ := by
  have inside : 8 * (text.length / 8) + 0 ≤ text.length := by omega
  have ends : text.length < 8 * (text.length / 8) + 0 + 8 := by omega
  obtain ⟨padding, filled, length⟩ := fillBuffer_last stale inside ends
  rw [Nat.add_zero] at filled length
  have front : (text.take (8 * (text.length / 8))).length = 8 * (text.length / 8) := by
    rw [List.length_take]
    omega
  have sized : (text.take (8 * (text.length / 8))).length +
      (text.drop (8 * (text.length / 8)) ++ 0 :: padding).length < 2 ^ 64 := by
    rw [front, length]
    omega
  have joined := store_store memory base sized
  rw [front, ← List.append_assoc, List.take_append_drop] at joined
  refine ⟨padding, ?_, base + UInt64.ofNat (8 * (text.length / 8)) + UInt64.ofNat 8,
    8 * (text.length / 8) + 8, ?_⟩
  · rw [List.length_append, List.length_drop] at length
    rw [List.length_append]
    omega
  · simp only [WriteString.next, writtenWords, longSize, filled,
      pokeText_reserved reserved (by omega : 8 * (text.length / 8) + 8 ≤ 4096), joined]

private theorem writeRun_whole (reserved : Mapped memory base 4096) (short : text.length < 4096)
    (start words more : ℕ) (inside : 8 * (start + words) ≤ text.length) :
    (writtenWords memory base text start).run text stale (words + more) =
      (writtenWords memory base text (start + words)).run text stale more := by
  induction words generalizing start with
  | zero => rw [Nat.zero_add, Nat.add_zero]
  | succ words ih =>
    have following := ih (start + 1) (by omega)
    rw [Nat.add_right_comm start 1 words] at following
    have going : ¬(writtenWords memory base text start).atEnd = true := by simp [writtenWords]
    rw [Nat.add_right_comm words 1 more, WriteString.run, if_neg going,
      writeNext_whole stale reserved short (by omega)]
    exact following

/-- The loop of the writer ends, with the text, a terminator and less than a word behind it stored
at the start of the reserved space. -/
theorem writeRun_ends (reserved : Mapped memory base 4096) (short : text.length < 4096) :
    ∃ padding, (text ++ 0 :: padding).length = 8 * (text.length / 8 + 1) ∧
      ∀ more, WriteString.run text stale (text.length / 8 + (more + 1)) ⟨base, 0, false, memory⟩ =
        some (.ok (memory.store base (text ++ 0 :: padding))) := by
  obtain ⟨padding, length, stackAddr, offset, last⟩ :=
    writeNext_last stale reserved short
  refine ⟨padding, length, fun more => ?_⟩
  have start : (⟨base, 0, false, memory⟩ : WriteString) = writtenWords memory base text 0 := by
    rw [writtenWords, Nat.mul_zero, List.take_zero, store_nil]
    congr
    exact (UInt64.add_zero base).symm
  have passed := writeRun_whole stale reserved short 0 (text.length / 8) (more + 1) (by omega)
  rw [Nat.zero_add] at passed
  have going : ¬(writtenWords memory base text (text.length / 8)).atEnd = true := by
    simp [writtenWords]
  rw [start, passed, WriteString.run, if_neg going, last]
  cases more <;> simp [WriteString.run]

end Writing

/-- What a replaced file name leaves behind: the register points to the new name, the memory from the
red zone on and the other registers are as they were. -/
structure Redirected (before after : Tracee) (reg : ℕ) (text : Bytes) : Prop where
  reads : ∃ words, readString after.memory (after.user reg) words = some text
  memory : ∀ address : UInt64,
    (before.user (longSize * RSP)).toNat ≤ address.toNat + 128 →
      after.memory address = before.memory address
  registers : ∀ other, other ≠ reg → after.user other = before.user other

/-- Replacing a file name ends and redirects the register to the new name, where there is room for the
longest name below the stack pointer and its red zone. -/
theorem writeString_redirects (tracee : Tracee) (reg : ℕ) (text : Bytes) (stale : ℕ → UInt8)
    (noNul : 0 ∉ text) (short : text.length < PATH_MAX.toNat)
    (below : MappedBelow tracee.memory (tracee.user (longSize * RSP)) (128 + PATH_MAX.toNat)) :
    ∃ after, Redirected tracee after reg text ∧
      ∃ enough, ∀ words, enough ≤ words →
        writeString tracee reg text stale words = some (.ok after) := by
  change text.length < 4096 at short
  change MappedBelow _ _ 4224 at below
  obtain ⟨room, mapped⟩ := below.mapped
  obtain ⟨base, same⟩ : ∃ base, base = tracee.user (longSize * RSP) - UInt64.ofNat 4224 := ⟨_, rfl⟩
  have bound := (tracee.user (longSize * RSP)).toNat_lt
  have position : base.toNat = (tracee.user (longSize * RSP)).toNat - 4224 := by
    rw [same, UInt64.toNat_sub, UInt64.toNat_ofNat']
    omega
  have reserved : Mapped tracee.memory base 4096 := by
    rw [same]
    exact fun i inside => mapped i (by omega)
  obtain ⟨padding, length, ends⟩ := writeRun_ends stale reserved short
  have stored : HoldsBytes (tracee.memory.store base (text ++ 0 :: padding)) base
      (text ++ 0 :: padding) := holdsBytes_store (by omega)
  have pointed : pokeUser tracee.user reg base reg = base := if_pos rfl
  refine ⟨⟨tracee.memory.store base (text ++ 0 :: padding), pokeUser tracee.user reg base⟩,
    ⟨?_, ?_, ?_⟩, text.length / 8 + 1, fun words enough => ?_⟩
  · have holds : HoldsString (tracee.memory.store base (text ++ 0 :: padding)) base text := by
      refine ⟨noNul, ?_⟩
      rw [← List.singleton_append, ← List.append_assoc] at stored ⊢
      exact stored.append_left
    change ∃ words, readString _ (pokeUser tracee.user reg base reg) words = _
    rw [pointed, readString_iff holds]
    intro i inside
    rw [UInt64.add_assoc, ← UInt64.ofNat_add]
    exact stored.mapped _ (by omega)
  · intro address above
    apply store_outside
    rw [UInt64.toNat_sub]
    have high := address.toNat_lt
    omega
  · intro other differs
    exact if_neg differs
  · obtain ⟨more, rfl⟩ := Nat.exists_eq_add_of_le enough
    have start : tracee.user (longSize * RSP) - (128 + PATH_MAX) = base := same.symm
    rw [writeString, start, Nat.add_assoc, Nat.add_comm 1 more, ends]
    rfl

/-- A tracee whose memory is all mapped and zero, with its stack pointer at `0x8000`. -/
def blankTracee : Tracee := ⟨fun _ => some 0, fun _ => 0x8000⟩

theorem writeString_redirects_blank :
    ∃ after, Redirected blankTracee after (longSize * RSI) (str "/tmp/f") ∧
      ∃ enough, ∀ words, enough ≤ words →
        writeString blankTracee (longSize * RSI) (str "/tmp/f") (fun _ => 0xaa) words =
          some (.ok after) := by
  apply writeString_redirects blankTracee _ _ _ (by decide) (by decide)
  intro distance positive inside
  change distance ≤ 4224 at inside
  have position : (blankTracee.user (longSize * RSP)).toNat = 0x8000 := rfl
  refine ⟨UInt64.ofNat (0x8000 - distance), ?_, rfl⟩
  rw [position, UInt64.toNat_ofNat']
  omega

end DpcppTrace.Soundness
