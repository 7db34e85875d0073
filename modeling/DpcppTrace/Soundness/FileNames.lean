import DpcppTrace.Model.TraceeMemory

/-! # Reading and replacing file names

After `k` words the reader has the first `8 * k` bytes of the string. The word that holds the
terminator may reach over the end of the mapping, and then it reads as a word without a terminator.
The writer keeps the invariant of the reader the other way round: after `k` words the first `8 * k`
bytes of the name lie at the start of the reserved space, and nothing else has changed.
-/

namespace DpcppTrace.Soundness

open Foundation Model Model.NativeTracer MappedMemory

/-! ## Reading -/

section Reading

variable {memory : MappedMemory} {addr : UInt64} {text : Bytes}

private theorem copyWord_plain {word : Bytes} (noNul : 0 ∉ word) : copyWord word = (word, false) := by
  induction word with
  | nil => rfl
  | cons byte rest ih =>
    obtain ⟨here, behind⟩ := not_or.mp (fun mem => noNul (List.mem_cons.mpr mem))
    rw [copyWord, if_neg (Ne.symm here), ih behind]

private theorem copyWord_terminated {front : Bytes} (rest : Bytes) (noNul : 0 ∉ front) :
    copyWord (front ++ 0 :: rest) = (front, true) := by
  induction front with
  | nil => rfl
  | cons byte front ih =>
    obtain ⟨here, behind⟩ := not_or.mp (fun mem => noNul (List.mem_cons.mpr mem))
    rw [List.cons_append, copyWord, if_neg (Ne.symm here), ih behind]

/-- The reader after so many whole words of a string. -/
def readWords (text : Bytes) (words : ℕ) : ReadString where
  readBytes := UInt64.ofNat (8 * words)
  result := text.take (8 * words)

private theorem readBytes_succ (words : ℕ) :
    UInt64.ofNat (8 * words) + UInt64.ofNat 8 = UInt64.ofNat (8 * (words + 1)) := by
  rw [← UInt64.ofNat_add]
  rfl

/-- The bytes of a string that lie at a word of it. -/
theorem holdsBytes_behind (holds : HoldsString memory addr text) (words : ℕ)
    (inside : 8 * words ≤ text.length) :
    HoldsBytes memory (addr + UInt64.ofNat (8 * words))
      (text.drop (8 * words) ++ [0]) := by
  have whole := holds.bytes
  rw [← List.take_append_drop (8 * words) text, List.append_assoc] at whole
  have behind := whole.append_right
  rwa [List.length_take, Nat.min_eq_left inside] at behind

/-- A word inside the string is copied as a whole. -/
theorem next_whole (holds : HoldsString memory addr text) {words : ℕ}
    (inside : 8 * (words + 1) ≤ text.length) :
    (readWords text words).next memory addr = readWords text (words + 1) := by
  have loaded : memory.load (addr + UInt64.ofNat (8 * words)) 8 =
      some ((text.drop (8 * words)).take 8) := by
    rw [load_eq_some_iff]
    refine ⟨by simp; omega, ?_⟩
    have behind := holdsBytes_behind holds words (by omega)
    rw [← List.take_append_drop 8 (text.drop (8 * words)),
      List.append_assoc] at behind
    exact behind.append_left
  have noNul : 0 ∉ (text.drop (8 * words)).take 8 := fun mem =>
    holds.noNul (List.mem_of_mem_drop (List.mem_of_mem_take mem))
  have grown : text.take (8 * words) ++ (text.drop (8 * words)).take 8 =
      text.take (8 * (words + 1)) := by
    rw [← List.take_add]
    rfl
  simp only [ReadString.next, readWords, peekData, longSize, loaded, Option.getD_some, copyWord_plain noNul,
    grown, readBytes_succ]

/-- The word of the terminator ends the string, if it is mapped. -/
theorem next_last (holds : HoldsString memory addr text)
    (mapped : Mapped memory (addr + UInt64.ofNat (8 * (text.length / 8))) 8) :
    (readWords text (text.length / 8)).next memory addr =
      ⟨true, UInt64.ofNat (8 * (text.length / 8 + 1)), text⟩ := by
  obtain ⟨word, loaded⟩ := Option.isSome_iff_exists.mp (load_isSome_iff.mpr mapped)
  obtain ⟨length, bytes⟩ := load_eq_some_iff.mp loaded
  have behind := holdsBytes_behind holds (text.length / 8) (by omega)
  obtain ⟨rest, rfl⟩ := behind.isPrefix bytes (by
    rw [length, List.length_append, List.length_drop, List.length_singleton]
    omega)
  have noNul : 0 ∉ text.drop (8 * (text.length / 8)) := fun mem =>
    holds.noNul (List.mem_of_mem_drop mem)
  rw [List.append_assoc, List.singleton_append] at loaded
  simp only [ReadString.next, readWords, peekData, longSize, loaded, Option.getD_some,
    copyWord_terminated rest noNul, List.take_append_drop, readBytes_succ]

/-- Otherwise it is read as a word of the string, and what was read is longer than the string. -/
theorem next_unmapped
    (unmapped :
      ¬Mapped memory (addr + UInt64.ofNat (8 * (text.length / 8))) 8) :
    text.length < ((readWords text (text.length / 8)).next memory addr).result.length := by
  have missing : memory.load (addr + UInt64.ofNat (8 * (text.length / 8))) 8 =
      none := by
    rw [← load_isSome_iff, Bool.not_eq_true, Option.isSome_eq_false_iff,
      Option.isNone_iff_eq_none] at unmapped
    exact unmapped
  have noNul : (0 : UInt8) ∉ List.replicate 8 (0xff : UInt8) := by decide
  simp only [ReadString.next, readWords, peekData, longSize, missing, Option.getD_none, copyWord_plain noNul,
    List.length_append, List.length_take, List.length_replicate]
  omega

/-- What the reader has is never taken back. -/
theorem result_isPrefix {words : ℕ} {s : ReadString} {result : Bytes}
    (ended : s.run memory addr words = some result) : s.result <+: result := by
  induction words generalizing s with
  | zero =>
    rw [ReadString.run] at ended
    split at ended
    · obtain rfl := Option.some.inj ended
      exact List.prefix_rfl
    · cases ended
  | succ words ih =>
    rw [ReadString.run] at ended
    split at ended
    · obtain rfl := Option.some.inj ended
      exact List.prefix_rfl
    · exact (List.prefix_append _ _).trans (ih ended)

/-- A reader that has ended has ended for good. -/
theorem run_more {words : ℕ} {s : ReadString} {result : Bytes}
    (ended : s.run memory addr words = some result) (more : ℕ) :
    s.run memory addr (words + more) = some result := by
  induction words generalizing s with
  | zero =>
    rw [ReadString.run] at ended
    split at ended
    · rename_i complete
      cases more <;> simp [ReadString.run, complete, ended]
    · cases ended
  | succ words ih =>
    rw [ReadString.run] at ended
    rw [Nat.add_right_comm, ReadString.run]
    split at ended
    · rename_i complete
      rw [if_pos complete, ended]
    · rename_i going
      rw [if_neg going, ih ended]

theorem readString_mono {words more : ℕ} {result : Bytes}
    (ended : readString memory addr words = some result) (later : words ≤ more) :
    readString memory addr more = some result := by
  obtain ⟨rest, rfl⟩ := Nat.exists_eq_add_of_le later
  exact run_more ended rest

/-- The reader passes the whole words of a string one by one. -/
theorem run_whole (holds : HoldsString memory addr text) (start words more : ℕ)
    (inside : 8 * (start + words) ≤ text.length) :
    (readWords text start).run memory addr (words + more) =
      (readWords text (start + words)).run memory addr more := by
  induction words generalizing start with
  | zero => rw [Nat.zero_add, Nat.add_zero]
  | succ words ih =>
    have following := ih (start + 1) (by omega)
    rw [Nat.add_right_comm start 1 words] at following
    rw [Nat.add_right_comm words 1 more, ReadString.run, if_neg (by simp [readWords]),
      next_whole holds (by omega), following]
    rfl

/-- The reader returns the string that lies at the address exactly when the word of its terminator
is mapped as a whole. -/
theorem readString_iff (holds : HoldsString memory addr text) :
    (∃ words, readString memory addr words = some text) ↔
      Mapped memory (addr + UInt64.ofNat (8 * (text.length / 8))) 8 := by
  have reach (words more : ℕ) (inside : words ≤ text.length / 8) :
      readString memory addr (words + more) =
        (readWords text words).run memory addr more := by
    have passed := run_whole holds 0 words more (by omega)
    rwa [Nat.zero_add] at passed
  have going : ∀ words, ¬(readWords text words).isComplete = true := fun words => by simp [readWords]
  constructor
  · rintro ⟨words, ended⟩
    by_contra unmapped
    rcases Nat.lt_or_ge (text.length / 8) words with beyond | within
    · obtain ⟨more, rfl⟩ := Nat.exists_eq_add_of_lt beyond
      rw [Nat.add_assoc, reach _ _ le_rfl, ReadString.run, if_neg (going _)] at ended
      have longer := next_unmapped unmapped
      have length := (result_isPrefix ended).length_le
      omega
    · have none := reach words 0 within
      rw [Nat.add_zero, ended, ReadString.run, if_neg (going _)] at none
      cases none
  · intro mapped
    refine ⟨text.length / 8 + 1, ?_⟩
    rw [reach _ _ le_rfl, ReadString.run, if_neg (going _), next_last holds mapped]
    rfl

/-- In memory of whole pages that words divide, the last word of a string at an aligned address is
mapped as a whole. -/
theorem mapped_lastWord {page : ℕ} (divides : 8 ∣ page) (paged : Paged page memory)
    (holds : HoldsString memory addr text) (aligned : 8 ∣ addr.toNat) :
    Mapped memory (addr + UInt64.ofNat (8 * (text.length / 8))) 8 := by
  have behind := holdsBytes_behind holds (text.length / 8) (by omega)
  have first := behind.mapped 0 (by simp)
  have word : 8 ∣ (addr + UInt64.ofNat (8 * (text.length / 8))).toNat := by
    rw [UInt64.toNat_add, UInt64.toNat_ofNat']
    omega
  have bound := (addr + UInt64.ofNat (8 * (text.length / 8))).toNat_lt
  apply paged.mapped_block divides word (by omega)
  simpa using first

/-- From memory of whole pages the reader returns the string at an address exactly when the word of
its terminator is mapped as a whole, as it is at every aligned address. -/
theorem readString_paged {page : ℕ} (divides : 8 ∣ page) (paged : Paged page memory)
    (holds : HoldsString memory addr text) :
    ((∃ words, readString memory addr words = some text) ↔
      Mapped memory (addr + UInt64.ofNat (8 * (text.length / 8))) 8) ∧
    (8 ∣ addr.toNat → ∃ words, readString memory addr words = some text) := by
  refine ⟨readString_iff holds, fun aligned => ?_⟩
  rw [readString_iff holds]
  exact mapped_lastWord divides paged holds aligned

end Reading

/-- One page is mapped, and a string ends close to its end; another one stands in front, at an odd
address too. -/
def edgeMemory : MappedMemory := fun address =>
  if address.toNat / 4096 = 1 then
    some (if address = 0x1ffc then 0x61 else if address = 0x1ffd then 0x62
      else if address = 0x1ff3 then 0x63 else if address = 0x1ff4 then 0x64 else 0)
  else none

private theorem paged_edgeMemory : Paged 4096 edgeMemory := by
  intro first second same
  rw [edgeMemory, edgeMemory, same]
  split <;> rfl

private theorem holdsString_edgeMemory : HoldsString edgeMemory 0x1ffc (str "ab") := by
  refine ⟨by decide, ?_⟩
  apply holdsBytes_cons.mpr ⟨rfl, holdsBytes_cons.mpr ⟨rfl, holdsBytes_cons.mpr ⟨rfl, ?_⟩⟩⟩
  exact holdsBytes_nil

private theorem holdsString_before : HoldsString edgeMemory 0x1ff3 (str "cd") := by
  refine ⟨by decide, ?_⟩
  apply holdsBytes_cons.mpr ⟨rfl, holdsBytes_cons.mpr ⟨rfl, holdsBytes_cons.mpr ⟨rfl, ?_⟩⟩⟩
  exact holdsBytes_nil

/-- The word of the first string is mapped, that of the second is not. -/
theorem readString_paged_edge :
    (∃ words, readString edgeMemory 0x1ff3 words = some (str "cd")) ∧
      ¬∃ words, readString edgeMemory 0x1ffc words = some (str "ab") := by
  constructor
  · apply (readString_paged (by decide) paged_edgeMemory holdsString_before).1.mpr
    rw [Mapped]
    decide
  · intro reads
    have mapped := (readString_paged (by decide) paged_edgeMemory holdsString_edgeMemory).1.mp reads
    exact absurd (mapped 4 (by omega)) (by decide)

/-- A string that ends close to the end of the mapping is not read, though it is mapped. -/
theorem readString_overruns :
    8 ∣ 4096 ∧ Paged 4096 edgeMemory ∧ HoldsString edgeMemory 0x1ffc (str "ab") ∧
      ¬∃ words, readString edgeMemory 0x1ffc words = some (str "ab") := by
  refine ⟨by decide, paged_edgeMemory, holdsString_edgeMemory, ?_⟩
  rw [readString_iff holdsString_edgeMemory]
  intro mapped
  exact absurd (mapped 4 (by omega)) (by decide)

end DpcppTrace.Soundness
