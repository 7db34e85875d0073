import DpcppTrace.Model.PackCopies
import DpcppTrace.Soundness.FileRedirect

/-! # What the copies of `pack` hold

The entries of the pack directory only grow, and each copy goes to one that did not exist: its name
starts with a number that no earlier one has. So a path that has named a file once names the same
bytes from then on, and every key of the map has a copy of its own that holds them.
-/

namespace DpcppTrace.Soundness

open Foundation Model

/-- The path is recorded at a place where the loop, when it comes there, finds that it names a
regular file and does not skip it. -/
def Picked (system : CopySystem) (executable : Bytes) (recordFiles : List Bytes) (key : Bytes) :
    Prop :=
  ∃ front rest before, recordFiles = front ++ key :: rest ∧
    packCopies system executable front = .ok before ∧ skipped key = false ∧
      system.content before.entries key ≠ none

/-- The file map and the copies are right: the keys are the executable and the recorded files; the
copy of a key holds the bytes that the path has, and had whenever it named a regular file; different
keys have different copies; and no entry was copied to twice. -/
structure PackedRight (system : CopySystem) (executable : Bytes) (recordFiles : List Bytes)
    (final : CopyLoop) : Prop where
  keys : ∀ key, final.replayMap.find key ≠ none ↔
    key = executable ∨ Picked system executable recordFiles key
  keysElsewhere : ∀ key, system.inPack key = none → (final.replayMap.find key ≠ none ↔
    key = executable ∨ key ∈ recordFiles ∧ skipped key = false ∧ system.elsewhere key ≠ none)
  bytes : ∀ key name, final.replayMap.find key = some name →
    ∃ bytes, final.entries (cString name) = some bytes ∧
      system.content final.entries key = some bytes ∧
      ∀ front rest before, recordFiles = front ++ rest →
        packCopies system executable front = .ok before →
          system.content before.entries key = none ∨
            system.content before.entries key = some bytes
  distinct : ∀ key other name copy, final.replayMap.find key = some name →
    final.replayMap.find other = some copy → cString name = cString copy → key = other
  fresh : final.targets.Nodup

section Copies

variable {system : CopySystem} {executable : Bytes} {recordFiles : List Bytes} {s next : CopyLoop}

/-! ## One copy -/

/-- A copy adds the bytes of its source as a new entry. -/
theorem copyInto_ok {number : ℕ} {source name : Bytes}
    (copied : copyInto system number source name s = .ok next) :
    s.entries (cString name) = none ∧ system.copies number = true ∧
      ∃ bytes, system.content s.entries source = some bytes ∧ next = { s with
        entries := Function.update s.entries (cString name) (some bytes)
        targets := s.targets ++ [cString name] } := by
  rw [copyInto] at copied
  split at copied
  · cases copied
  · rename_i absent
    split at copied
    · cases copied
    · rename_i bytes found
      split at copied
      · exact ⟨by simpa using absent, ‹_›, bytes, found, (Except.ok.inj copied).symm⟩
      · cases copied

/-- A recorded path is passed over, or copied under a new name. -/
theorem copyElement_ok {cand : Bytes} (ran : copyElement system s cand = .ok next) :
    (next = s ∧ ¬(skipped cand = false ∧ system.content s.entries cand ≠ none)) ∨
      (skipped cand = false ∧ s.entries (cString (copyName s.counter cand)) = none ∧
        system.copies s.counter = true ∧ ∃ bytes, system.content s.entries cand = some bytes ∧
          next = ⟨⟨s.counter + 1, s.replayMap.set cand (copyName s.counter cand)⟩,
            Function.update s.entries (cString (copyName s.counter cand)) (some bytes),
            s.targets ++ [cString (copyName s.counter cand)]⟩) := by
  rw [copyElement] at ran
  split at ran
  · rename_i skips
    exact .inl ⟨(Except.ok.inj ran).symm, fun taken => by simp [skips] at taken⟩
  · rename_i unskipped
    split at ran
    · rename_i absent
      exact .inl ⟨(Except.ok.inj ran).symm, fun taken => by simp [taken.2] at absent⟩
    · dsimp only at ran
      cases copied : copyInto system s.counter cand (copyName s.counter cand) s with
      | error fault => rw [copied] at ran; cases ran
      | ok after =>
        rw [copied] at ran
        obtain ⟨absent, allowed, bytes, found, rfl⟩ := copyInto_ok copied
        exact .inr ⟨by simpa using unskipped, absent, allowed, bytes, found,
          (Except.ok.inj ran).symm⟩

/-! ## Entries grow -/

/-- Entries stay as they are. -/
def Grows (s next : CopyLoop) : Prop :=
  ∀ entry bytes, s.entries entry = some bytes → next.entries entry = some bytes

private theorem grows_update {target : Bytes} (absent : s.entries target = none) (bytes : Bytes)
    (loop : PackLoop) (targets : List Bytes) :
    Grows s ⟨loop, Function.update s.entries target (some bytes), targets⟩ := by
  intro entry held found
  have other : entry ≠ target := by
    rintro rfl
    rw [absent] at found
    cases found
  exact (Function.update_of_ne other _ _).trans found

theorem Grows.content (grows : Grows s next) {path bytes : Bytes}
    (found : system.content s.entries path = some bytes) :
    system.content next.entries path = some bytes := by
  rw [CopySystem.content] at found ⊢
  split at found
  · exact grows _ _ found
  · exact found

private theorem grows_copyElement {cand : Bytes} (ran : copyElement system s cand = .ok next) :
    Grows s next := by
  rcases copyElement_ok ran with ⟨rfl, -⟩ | ⟨-, absent, -, bytes, -, rfl⟩
  · exact fun _ _ found => found
  · exact grows_update absent _ _ _

/-! ## What every state of the loop keeps -/

/-- Each key has a copy of its own with the bytes of its path; entries are numbered below the
counter, and those copied to are different. -/
structure Kept (system : CopySystem) (s : CopyLoop) : Prop where
  held : ∀ item ∈ s.replayMap.items, ∃ bytes, s.entries (cString item.2) = some bytes ∧
    system.content s.entries item.1 = some bytes
  distinct : ∀ first ∈ s.replayMap.items, ∀ second ∈ s.replayMap.items,
    cString first.2 = cString second.2 → first = second
  numbered : ∀ entry, s.entries entry ≠ none →
    entry = str "0" ∨ ∃ n < s.counter, ∃ file, entry = cString (copyName n file)
  targets : s.targets.Nodup ∧ ∀ target ∈ s.targets, s.entries target ≠ none

private theorem cString_copyName (n : ℕ) (file : Bytes) :
    cString (copyName n file) = decimal n ++ str "_" ++ cString (stem file) := by
  have underscore : str "_" = [0x5f] := by decide
  rw [copyName, cString, List.takeWhile_append_of_pos, cString]
  intro c member
  rw [bne_iff_ne]
  rintro rfl
  rcases List.mem_append.mp member with number | mark
  · have digit := digit_of_mem_decimal number
    exact absurd digit.1 (by decide)
  · rw [underscore, List.mem_singleton] at mark
    cases mark

/-- The entry of the next copy does not exist. -/
theorem Kept.next_absent (kept : Kept system s) (cand : Bytes) :
    s.entries (cString (copyName s.counter cand)) = none := by
  by_contra present
  rcases kept.numbered _ present with zero | ⟨n, below, file, same⟩
  · have underscore : (0x5f : UInt8) ∈ cString (copyName s.counter cand) := by
      have text : str "_" = [0x5f] := by decide
      simp [cString_copyName, text]
    rw [zero] at underscore
    exact absurd underscore (by decide)
  · rw [cString_copyName, cString_copyName] at same
    have equal := number_unique same
    omega

/-- A new entry with the bytes of its key keeps all of it. -/
theorem Kept.copied (kept : Kept system s) {cand name bytes : Bytes} {counter : ℕ}
    (absent : s.entries (cString name) = none)
    (found : system.content s.entries cand = some bytes) (further : s.counter ≤ counter)
    (named : cString name = str "0" ∨ ∃ n < counter, ∃ file, cString name = cString (copyName n file)) :
    Kept system ⟨⟨counter, s.replayMap.set cand name⟩,
      Function.update s.entries (cString name) (some bytes), s.targets ++ [cString name]⟩ where
  held item member := by
    have grows := grows_update absent bytes ⟨counter, s.replayMap.set cand name⟩
      (s.targets ++ [cString name])
    rcases Dictionary.mem_set.mp member with rfl | ⟨-, earlier⟩
    · exact ⟨bytes, Function.update_self _ _ _, grows.content found⟩
    · obtain ⟨held, entry, content⟩ := kept.held item earlier
      exact ⟨held, grows _ _ entry, grows.content content⟩
  distinct first firstIn second secondIn same := by
    have fresh : ∀ item ∈ s.replayMap.items, cString item.2 ≠ cString name := by
      intro item member equal
      obtain ⟨held, entry, -⟩ := kept.held item member
      rw [equal, absent] at entry
      cases entry
    rcases Dictionary.mem_set.mp firstIn with rfl | ⟨-, firstIn⟩ <;>
      rcases Dictionary.mem_set.mp secondIn with rfl | ⟨-, secondIn⟩
    · rfl
    · exact absurd same.symm (fresh second secondIn)
    · exact absurd same (fresh first firstIn)
    · exact kept.distinct first firstIn second secondIn same
  numbered entry present := by
    rcases eq_or_ne entry (cString name) with rfl | other
    · exact named
    · change Function.update s.entries (cString name) (some bytes) entry ≠ none at present
      rw [Function.update_of_ne other] at present
      rcases kept.numbered entry present with zero | ⟨n, below, file, same⟩
      · exact .inl zero
      · exact .inr ⟨n, Nat.lt_of_lt_of_le below further, file, same⟩
  targets := by
    obtain ⟨nodup, present⟩ := kept.targets
    refine ⟨List.nodup_append.mpr ⟨nodup, List.nodup_singleton _, ?_⟩, fun target member => ?_⟩
    · intro first firstIn second secondIn same
      rw [List.mem_singleton.mp secondIn] at same
      exact present first firstIn (same ▸ absent)
    · change Function.update s.entries (cString name) (some bytes) target ≠ none
      rcases eq_or_ne target (cString name) with rfl | other
      · rw [Function.update_self]
        exact Option.some_ne_none bytes
      · rw [Function.update_of_ne other]
        rcases List.mem_append.mp member with earlier | last
        · exact present target earlier
        · exact absurd (List.mem_singleton.mp last) other

theorem Kept.element (kept : Kept system s) {cand : Bytes}
    (ran : copyElement system s cand = .ok next) : Kept system next := by
  rcases copyElement_ok ran with ⟨rfl, -⟩ | ⟨-, absent, -, bytes, found, rfl⟩
  · exact kept
  · exact kept.copied absent found (Nat.le_succ _) (.inr ⟨s.counter, Nat.lt_succ_self _, cand, rfl⟩)

/-! ## Runs -/

private theorem packCopies_concat (front : List Bytes) (cand : Bytes) :
    packCopies system executable (front ++ [cand]) =
      packCopies system executable front >>= fun s => copyElement system s cand := by
  simp only [packCopies, List.foldlM_append, List.foldlM_cons, List.foldlM_nil, bind_pure,
    bind_assoc]

private theorem packCopies_concat_ok {front : List Bytes} {cand : Bytes}
    (ran : packCopies system executable (front ++ [cand]) = .ok next) :
    ∃ before, packCopies system executable front = .ok before ∧
      copyElement system before cand = .ok next := by
  rw [packCopies_concat] at ran
  cases before : packCopies system executable front with
  | error fault => rw [before] at ran; cases ran
  | ok s =>
    rw [before] at ran
    exact ⟨s, rfl, ran⟩

/-- A run of a front comes before the whole run, and its entries stay. -/
theorem packCopies_front {front : List Bytes} (rest : List Bytes)
    (ran : packCopies system executable (front ++ rest) = .ok next) :
    ∃ before, packCopies system executable front = .ok before ∧ Grows before next := by
  induction rest using List.reverseRecOn generalizing next with
  | nil =>
    rw [List.append_nil] at ran
    exact ⟨next, ran, fun _ _ found => found⟩
  | append_singleton rest cand ih =>
    rw [← List.append_assoc] at ran
    obtain ⟨middle, earlier, last⟩ := packCopies_concat_ok ran
    obtain ⟨before, first, grows⟩ := ih earlier
    exact ⟨before, first, fun entry bytes found =>
      grows_copyElement last _ _ (grows entry bytes found)⟩

private theorem kept_emptyLoop : Kept system emptyLoop where
  held item member := by cases member
  distinct first firstIn := by cases firstIn
  numbered entry present := absurd rfl present
  targets := ⟨List.nodup_nil, fun target member => by cases member⟩

/-- The copy of the executable. -/
theorem packCopies_nil (ran : packCopies system executable [] = .ok next) :
    Kept system next ∧ ∀ item, item ∈ next.replayMap.items ↔ item = (executable, str "0") := by
  rw [packCopies] at ran
  cases copied : copyInto system 0 executable (str "0") emptyLoop with
  | error fault => rw [copied] at ran; cases ran
  | ok after =>
    rw [copied] at ran
    obtain ⟨absent, -, bytes, found, rfl⟩ := copyInto_ok copied
    rw [← Except.ok.inj ran]
    refine ⟨kept_emptyLoop.copied absent found le_rfl (.inl (by decide)), fun item => ?_⟩
    change item ∈ (Dictionary.empty.set executable (str "0") : FileMap).items ↔ _
    rw [Dictionary.mem_set]
    constructor
    · rintro (same | ⟨-, nowhere⟩)
      · exact same
      · cases nowhere
    · exact .inl

theorem kept_of_run (ran : packCopies system executable recordFiles = .ok next) :
    Kept system next := by
  induction recordFiles using List.reverseRecOn generalizing next with
  | nil => exact (packCopies_nil ran).1
  | append_singleton front cand ih =>
    obtain ⟨before, earlier, last⟩ := packCopies_concat_ok ran
    exact (ih earlier).element last

/-! ## Keys -/

private theorem picked_concat {front : List Bytes} {cand : Bytes} {before : CopyLoop}
    (ran : packCopies system executable front = .ok before) (key : Bytes) :
    Picked system executable (front ++ [cand]) key ↔ Picked system executable front key ∨
      key = cand ∧ skipped key = false ∧ system.content before.entries key ≠ none := by
  constructor
  · rintro ⟨first, rest, earlier, split, reached, taken⟩
    rcases List.eq_nil_or_concat rest with rfl | ⟨inside, last, rfl⟩
    · obtain ⟨rfl, same⟩ := List.append_inj' split rfl
      obtain rfl := Except.ok.inj (ran.symm.trans reached)
      exact .inr ⟨(List.singleton_inj.mp same).symm, taken⟩
    · rw [List.concat_eq_append, ← List.cons_append, ← List.append_assoc] at split
      obtain ⟨rfl, -⟩ := List.append_inj' split rfl
      exact .inl ⟨first, inside, earlier, rfl, reached, taken⟩
  · rintro (⟨first, rest, earlier, rfl, reached, taken⟩ | ⟨rfl, taken⟩)
    · exact ⟨first, rest ++ [cand], earlier, by simp, reached, taken⟩
    · exact ⟨front, [], before, rfl, ran, taken⟩

theorem keys_of_run (ran : packCopies system executable recordFiles = .ok next) (key : Bytes) :
    (∃ name, (key, name) ∈ next.replayMap.items) ↔
      key = executable ∨ Picked system executable recordFiles key := by
  induction recordFiles using List.reverseRecOn generalizing next with
  | nil =>
    have none : ¬Picked system executable [] key := by
      rintro ⟨front, rest, before, split, -⟩
      simp at split
    simp [(packCopies_nil ran).2, none]
  | append_singleton front cand ih =>
    obtain ⟨before, earlier, last⟩ := packCopies_concat_ok ran
    rw [picked_concat earlier, ← or_assoc, ← ih earlier]
    rcases copyElement_ok last with ⟨rfl, untaken⟩ | ⟨unskipped, -, -, bytes, found, rfl⟩
    · constructor
      · exact .inl
      · rintro (present | ⟨rfl, taken⟩)
        · exact present
        · exact absurd taken untaken
    · constructor
      · rintro ⟨name, member⟩
        rcases Dictionary.mem_set.mp member with same | ⟨-, present⟩
        · obtain ⟨rfl, -⟩ := Prod.mk.inj same
          refine .inr ⟨rfl, unskipped, ?_⟩
          rw [found]
          exact Option.some_ne_none bytes
        · exact .inl ⟨name, present⟩
      · intro either
        rcases eq_or_ne key cand with rfl | other
        · exact ⟨_, Dictionary.mem_set.mpr (.inl rfl)⟩
        · rcases either with ⟨name, present⟩ | ⟨same, -⟩
          · exact ⟨name, Dictionary.mem_set.mpr (.inr ⟨other, present⟩)⟩
          · exact absurd same other

/-- What a path outside of the pack directory names does not depend on the copies. -/
theorem picked_elsewhere (ran : packCopies system executable recordFiles = .ok next) {key : Bytes}
    (outside : system.inPack key = none) :
    Picked system executable recordFiles key ↔
      key ∈ recordFiles ∧ skipped key = false ∧ system.elsewhere key ≠ none := by
  have same (entries : Bytes → Option Bytes) :
      system.content entries key = system.elsewhere key := by
    rw [CopySystem.content, outside]
  constructor
  · rintro ⟨front, rest, before, rfl, -, unskipped, regular⟩
    rw [same] at regular
    exact ⟨by simp, unskipped, regular⟩
  · rintro ⟨member, unskipped, regular⟩
    obtain ⟨front, rest, rfl⟩ := List.append_of_mem member
    obtain ⟨before, earlier, -⟩ := packCopies_front (key :: rest) ran
    exact ⟨front, rest, before, rfl, earlier, unskipped, by rwa [same]⟩

theorem find_ne_none (map : FileMap) (key : Bytes) :
    map.find key ≠ none ↔ ∃ name, (key, name) ∈ map.items := by
  rw [Option.ne_none_iff_exists']
  exact exists_congr fun name => Dictionary.find_eq_some

/-- A copy to an entry that does not exist does not fail for the entry. -/
theorem copyInto_fresh (number : ℕ) (source : Bytes) {name : Bytes}
    (absent : s.entries (cString name) = none) :
    copyInto system number source name s ≠ .error .targetExists := by
  rw [copyInto, absent, if_neg (by decide)]
  split
  · simp
  · split <;> simp

/-- No copy finds its entry in place. -/
theorem packCopies_fresh (system : CopySystem) (executable : Bytes) (recordFiles : List Bytes) :
    packCopies system executable recordFiles ≠ .error .targetExists := by
  induction recordFiles using List.reverseRecOn with
  | nil =>
    have copied : copyInto system 0 executable (str "0") emptyLoop ≠ .error .targetExists :=
      copyInto_fresh 0 executable rfl
    rw [packCopies]
    cases outcome : copyInto system 0 executable (str "0") emptyLoop with
    | error fault =>
      rw [outcome] at copied
      exact copied
    | ok after => simp [pure, Except.pure, bind, Except.bind]
  | append_singleton front cand ih =>
    rw [packCopies_concat]
    cases ran : packCopies system executable front with
    | error fault =>
      rw [ran] at ih
      exact ih
    | ok before =>
      have copied : copyInto system before.counter cand (copyName before.counter cand) before ≠
          .error .targetExists :=
        copyInto_fresh before.counter cand ((kept_of_run ran).next_absent cand)
      change copyElement system before cand ≠ _
      rw [copyElement]
      split
      · simp
      · split
        · simp
        · cases outcome : copyInto system before.counter cand (copyName before.counter cand) before with
          | error fault =>
            rw [outcome] at copied
            simpa [Except.map, outcome] using copied
          | ok after => simp [Except.map, outcome]

/-! ## The file map of the command -/

section Command

variable {packSystem : PackSystem}

/-- Outside of the pack directory the loop does what the loop over JSON elements does. -/
theorem packElement_of_copyElement {cand : Bytes} (outside : system.inPack cand = none)
    (regular : packSystem.isRegular cand = some (system.elsewhere cand).isSome)
    (copies : packSystem.copies = system.copies) (ran : copyElement system s cand = .ok next)
    (dir : TraceDirectory) :
    ∃ after, (packElement packSystem s.toPackLoop (some cand)).run dir =
      .ok next.toPackLoop after := by
  have content (entries : Bytes → Option Bytes) :
      system.content entries cand = system.elsewhere cand := by
    rw [CopySystem.content, outside]
  have read : (getString (some cand)).run dir = .ok cand dir := rfl
  rw [packElement, run_bind_ok read]
  rcases copyElement_ok ran with ⟨rfl, untaken⟩ | ⟨unskipped, -, allowed, bytes, found, rfl⟩
  · split
    · exact ⟨dir, rfl⟩
    · rename_i unskipped
      rw [content] at untaken
      have absent : system.elsewhere cand = none := by
        by_contra present
        exact untaken ⟨by simpa using unskipped, present⟩
      rw [regular, absent]
      exact ⟨dir, rfl⟩
  · rw [content] at found
    rw [unskipped, if_neg Bool.false_ne_true, regular, found, copyFile, copies, allowed]
    exact ⟨_, rfl⟩

/-- When no path leads into the pack directory, the command comes to the same file map. -/
theorem packFiles_of_packCopies (outside : ∀ path, system.inPack path = none)
    (regular : ∀ path, packSystem.isRegular path = some (system.elsewhere path).isSome)
    (copies : packSystem.copies = system.copies)
    (ran : packCopies system executable recordFiles = .ok next) {config : ReplayConfig}
    (named : config.executable = some executable) (dir : TraceDirectory) :
    ∃ after, (packFiles packSystem (recordFiles.map some) config).run dir =
      .ok next.replayMap after := by
  have loop : ∃ first, (copyFile packSystem 0 executable (str "0")).run dir = .ok () first ∧
      ∃ after, ((recordFiles.map some).foldlM (packElement packSystem)
        ⟨1, Dictionary.empty.set executable (str "0")⟩).run first = .ok next.toPackLoop after := by
    induction recordFiles using List.reverseRecOn generalizing next with
    | nil =>
      rw [packCopies] at ran
      cases copied : copyInto system 0 executable (str "0") emptyLoop with
      | error fault => rw [copied] at ran; cases ran
      | ok after =>
        rw [copied] at ran
        obtain ⟨-, allowed, bytes, -, rfl⟩ := copyInto_ok copied
        rw [← Except.ok.inj ran, copyFile, copies, allowed]
        exact ⟨_, rfl, _, rfl⟩
    | append_singleton front cand ih =>
      obtain ⟨before, earlier, last⟩ := packCopies_concat_ok ran
      obtain ⟨first, copied, middle, front_ran⟩ := ih earlier
      obtain ⟨after, element⟩ :=
        packElement_of_copyElement (outside cand) (regular cand) copies last middle
      refine ⟨first, copied, after, ?_⟩
      rw [List.map_append, List.foldlM_append, run_bind_ok front_ran, List.map_singleton,
        List.foldlM_cons, run_bind_ok element]
      rfl
  obtain ⟨first, copied, after, ended⟩ := loop
  have read : (getString (some executable)).run dir = .ok executable dir := rfl
  refine ⟨after, ?_⟩
  rw [packFiles, named, run_bind_ok read, run_bind_ok copied, run_bind_ok ended]
  rfl

end Command

end Copies

/-- Copying never finds an entry in place, and when all copies succeed the file map and the copies
are right. -/
theorem packCopies_right (system : CopySystem) (executable : Bytes) (recordFiles : List Bytes) :
    packCopies system executable recordFiles ≠ .error .targetExists ∧
      ∀ final, packCopies system executable recordFiles = .ok final →
        PackedRight system executable recordFiles final := by
  refine ⟨packCopies_fresh system executable recordFiles, fun final ran => ?_⟩
  have kept := kept_of_run ran
  refine ⟨fun key => ?_, fun key outside => ?_, fun key name found => ?_, ?_, kept.targets.1⟩
  · rw [find_ne_none, keys_of_run ran]
  · rw [find_ne_none, keys_of_run ran, picked_elsewhere ran outside]
  · obtain ⟨bytes, entry, content⟩ := kept.held _ (Dictionary.find_eq_some.mp found)
    refine ⟨bytes, entry, content, fun front rest before split reached => ?_⟩
    subst split
    obtain ⟨earlier, first, grows⟩ := packCopies_front rest ran
    obtain rfl := Except.ok.inj (reached.symm.trans first)
    cases had : system.content before.entries key with
    | none => exact .inl rfl
    | some old =>
      have still := grows.content had
      rw [content] at still
      exact .inr still.symm
  · intro key other name copy found same equal
    have items := kept.distinct _ (Dictionary.find_eq_some.mp found) _
      (Dictionary.find_eq_some.mp same) equal
    exact (Prod.mk.inj items).1

/-- A system with one file. -/
def smallSystem : CopySystem where
  inPack _ := none
  elsewhere path := if path = str "/bin/a" then some [1] else none
  copies _ := true

theorem packCopies_right_small :
    ∃ final, packCopies smallSystem (str "/bin/a") [str "/dev/tty", str "/bin/a"] = .ok final ∧
      PackedRight smallSystem (str "/bin/a") [str "/dev/tty", str "/bin/a"] final :=
  ⟨_, rfl, (packCopies_right smallSystem (str "/bin/a") [str "/dev/tty", str "/bin/a"]).2 _ rfl⟩

end DpcppTrace.Soundness
