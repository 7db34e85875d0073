import DpcppTrace.Foundation.Machine
import DpcppTrace.Soundness.FileRedirect

/-! # Runs of `pack` on a recorded directory

Three marks tell a packed directory: the pack directory, the file map and the record mode. A run of
`pack` sets the first before anything that can fail and the other two after everything else, so they
agree as long as no run that creates the directory is stopped or loses a write.
-/

namespace DpcppTrace.Soundness

open Foundation Model

/-! ## The marks of a packed directory -/

/-- `replay_file_map.json` is there and was written to its end. -/
def MapComplete (dir : TraceDirectory) : Prop :=
  ∃ map, dir.replayFileMap = some (some map)

/-- `replay` takes the directory for a packed one. -/
def ModeFull (dir : TraceDirectory) : Prop :=
  ∃ config, dir.replayConfig = some (some config) ∧ config.recordMode = some kRecordModeFull

structure MarksAgree (dir : TraceDirectory) : Prop where
  map : dir.packed.isSome ↔ MapComplete dir
  mode : dir.packed.isSome ↔ ModeFull dir

/-- A directory that `pack` has not touched. -/
structure Recorded (dir : TraceDirectory) : Prop where
  unpacked : dir.packed = none
  unmapped : dir.replayFileMap = none
  mode : ¬ModeFull dir

theorem Recorded.marksAgree {dir : TraceDirectory} (recorded : Recorded dir) : MarksAgree dir where
  map := by simp [recorded.unpacked, recorded.unmapped, MapComplete]
  mode := by simp [recorded.unpacked, recorded.mode]

/-- Runs of `pack` one after another, each under what the system lets it do. -/
def packMachine : Machine TraceDirectory PackSystem where
  step dir system := some (leftBehind (packDirectory system) dir)

/-- A run that stops at some step is not refused when it is run again. -/
def Retriable (dir : TraceDirectory) (system : PackSystem) : Prop :=
  ∀ fault next, (packDirectory system).run dir = .error fault next → fault ≠ .alreadyPacked →
    next.packed = none

/-! ## What a run needs in order not to stop -/

/-- The file is copied. -/
def wanted (system : PackSystem) (element : Option Bytes) : Bool :=
  element.any fun candString => !skipped candString && system.isRegular candString == some true

/-- The element is a text, and the status of the file it names can be found out if it is asked
for. -/
def Known (system : PackSystem) (element : Option Bytes) : Prop :=
  ∃ candString, element = some candString ∧
    (skipped candString = false → system.isRegular candString ≠ none)

structure Copyable (system : PackSystem) (counter : ℕ) (elements : List (Option Bytes)) : Prop where
  known : ∀ element ∈ elements, Known system element
  copies : ∀ n < elements.countP (wanted system), system.copies (counter + n) = true

/-- Both configurations can be read and everything they name can be copied. -/
structure Prepared (dir : TraceDirectory) (system : PackSystem) : Prop where
  opensFilesConfig : system.opensFilesConfig = true
  opensReplayConfig : system.opensReplayConfig = true
  files : ∃ recordFiles, dir.filesConfig = some (some recordFiles) ∧ Copyable system 1 recordFiles
  config : ∃ config, dir.replayConfig = some (some config) ∧ config.executable ≠ none
  copiesExecutable : system.copies 0 = true

/-- A run that creates the pack directory neither stops nor loses a write. -/
def Smooth (dir : TraceDirectory) (system : PackSystem) : Prop :=
  dir.packed = none → system.createsDirectory = true →
    Prepared dir system ∧ system.writesFileMap = .complete ∧ system.writesReplayConfig = .complete

section Copies

variable {system : PackSystem}

private theorem copyable_cons {counter : ℕ} {element : Option Bytes} {elements : List (Option Bytes)} :
    Copyable system counter (element :: elements) ↔
      (Known system element ∧ (wanted system element = true → system.copies counter = true)) ∧
        Copyable system (counter + if wanted system element then 1 else 0) elements := by
  rcases isWanted : wanted system element with _ | _
  · constructor
    · rintro ⟨known, copies⟩
      obtain ⟨here, later⟩ := List.forall_mem_cons.mp known
      refine ⟨⟨here, nofun⟩, later, fun n below => copies n ?_⟩
      rwa [List.countP_cons_of_neg (by simp [isWanted])]
    · rintro ⟨⟨here, -⟩, known, copies⟩
      refine ⟨List.forall_mem_cons.mpr ⟨here, known⟩, fun n below => copies n ?_⟩
      rwa [List.countP_cons_of_neg (by simp [isWanted])] at below
  · constructor
    · rintro ⟨known, copies⟩
      obtain ⟨here, later⟩ := List.forall_mem_cons.mp known
      rw [List.countP_cons_of_pos isWanted] at copies
      refine ⟨⟨here, fun _ => copies 0 (Nat.succ_pos _)⟩, later, fun n below => ?_⟩
      have next := copies (n + 1) (Nat.succ_lt_succ below)
      rwa [if_pos rfl, Nat.add_assoc, Nat.add_comm 1 n]
    · rintro ⟨⟨here, first⟩, known, copies⟩
      refine ⟨List.forall_mem_cons.mpr ⟨here, known⟩, fun n below => ?_⟩
      rw [List.countP_cons_of_pos isWanted] at below
      rcases n with _ | n
      · exact first rfl
      · have next := copies n (Nat.lt_of_succ_lt_succ below)
        rwa [if_pos rfl, Nat.add_assoc, Nat.add_comm 1 n] at next

private theorem reaches_copyFile {number : ℕ} (copies : system.copies number = true) (source name : Bytes) :
    Reaches (fun _ => True) (copyFile system number source name) := by
  rw [copyFile, if_pos copies]
  exact reaches_modify _

private theorem throws_copyFile {number : ℕ} (fails : ¬system.copies number = true) (source name : Bytes) :
    Throws (copyFile system number source name) := by
  rw [copyFile, if_neg fails]
  exact throws_throw _

private theorem reaches_packElement {element : Option Bytes} (known : Known system element) (loop : PackLoop)
    (copies : wanted system element = true → system.copies loop.counter = true) :
    Reaches (fun next => next.counter = loop.counter + if wanted system element then 1 else 0)
      (packElement system loop element) := by
  obtain ⟨cand, rfl, status⟩ := known
  rw [packElement, getString, pure_bind]
  rcases skips : skipped cand with _ | _
  · rcases regular : system.isRegular cand with _ | _ | _
    · exact absurd regular (status skips)
    · have unwanted : wanted system (some cand) = false := by simp [wanted, regular]
      simp only [Bool.false_eq_true, if_false, unwanted]
      exact reaches_pure rfl
    · have isWanted : wanted system (some cand) = true := by simp [wanted, skips, regular]
      simp only [Bool.false_eq_true, if_false, isWanted, if_true]
      exact (reaches_copyFile (copies isWanted) _ _).bind fun _ _ => reaches_pure rfl
  · have unwanted : wanted system (some cand) = false := by simp [wanted, skips]
    simp only [if_true, unwanted, Bool.false_eq_true, if_false]
    exact reaches_pure rfl

private theorem throws_packElement {element : Option Bytes} {loop : PackLoop}
    (fails : ¬(Known system element ∧
      (wanted system element = true → system.copies loop.counter = true))) :
    Throws (packElement system loop element) := by
  rcases element with _ | cand
  · exact (throws_throw _).bind _
  rw [packElement, getString, pure_bind]
  rcases skips : skipped cand with _ | _
  · rcases regular : system.isRegular cand with _ | _ | _
    · exact throws_throw _
    · refine absurd ⟨⟨cand, rfl, fun _ => ?_⟩, ?_⟩ fails
      · simp [regular]
      · simp [wanted, regular]
    · simp only [Bool.false_eq_true, if_false]
      have known : Known system (some cand) := ⟨cand, rfl, fun _ => by simp [regular]⟩
      exact (throws_copyFile (fun copies => fails ⟨known, fun _ => copies⟩) _ _).bind _
  · refine absurd ⟨⟨cand, rfl, fun kept => ?_⟩, ?_⟩ fails
    · simp [skips] at kept
    · simp [wanted, skips]

private theorem reaches_elements {elements : List (Option Bytes)} {loop : PackLoop}
    (copyable : Copyable system loop.counter elements) :
    Reaches (fun _ => True) (elements.foldlM (packElement system) loop) := by
  induction elements generalizing loop with
  | nil => exact reaches_pure trivial
  | cons element elements ih =>
    obtain ⟨⟨known, copies⟩, later⟩ := copyable_cons.mp copyable
    rw [List.foldlM_cons]
    exact (reaches_packElement known loop copies).bind fun next counted => ih (counted ▸ later)

private theorem throws_elements {elements : List (Option Bytes)} {loop : PackLoop}
    (fails : ¬Copyable system loop.counter elements) :
    Throws (elements.foldlM (packElement system) loop) := by
  induction elements generalizing loop with
  | nil => exact absurd ⟨nofun, nofun⟩ fails
  | cons element elements ih =>
    rw [copyable_cons, not_and_or] at fails
    rw [List.foldlM_cons]
    rcases Classical.em (Known system element ∧
      (wanted system element = true → system.copies loop.counter = true)) with here | stops
    · have later := fails.resolve_left (not_not_intro here)
      exact Throws.after (reaches_packElement here.1 loop here.2) fun next counted =>
        ih (counted ▸ later)
    · exact (throws_packElement stops).bind _

private theorem reaches_packFiles {recordFiles : List (Option Bytes)} {config : ReplayConfig}
    (named : config.executable ≠ none) (copies : system.copies 0 = true)
    (copyable : Copyable system 1 recordFiles) :
    Reaches (fun _ => True) (packFiles system recordFiles config) := by
  obtain ⟨executable, named⟩ := Option.ne_none_iff_exists'.mp named
  rw [packFiles, named, getString, pure_bind]
  refine (reaches_copyFile copies _ _).bind fun _ _ => ?_
  exact (reaches_elements copyable).bind fun _ _ => reaches_pure trivial

private theorem throws_packFiles {recordFiles : List (Option Bytes)} {config : ReplayConfig}
    (fails : ¬(config.executable ≠ none ∧ system.copies 0 = true ∧ Copyable system 1 recordFiles)) :
    Throws (packFiles system recordFiles config) := by
  rw [packFiles]
  rcases named : config.executable with _ | executable
  · exact (throws_throw _).bind _
  rw [getString, pure_bind]
  rcases copies : system.copies 0 with _ | _
  · exact (throws_copyFile (by simp [copies]) _ _).bind _
  apply Throws.after (reaches_copyFile copies _ _)
  intro _ _
  exact (throws_elements fun copyable => fails ⟨by simp [named], copies, copyable⟩).bind _

end Copies

/-! ## One run -/

/-- What `pack` reads and copies before it writes. -/
def gathered (system : PackSystem) (dir : TraceDirectory) : PackM (FileMap × ReplayConfig) := do
  let recordFiles ← readJson system.opensFilesConfig dir.filesConfig
  let replayConfig ← readJson system.opensReplayConfig dir.replayConfig
  let replayMap ← packFiles system recordFiles replayConfig
  pure (replayMap, replayConfig)

/-- The two writes at the end. -/
def writtenMarks (system : PackSystem) (results : FileMap × ReplayConfig) : PackM PUnit :=
  modify fun dir => { dir with
    replayFileMap := writeJson system.writesFileMap results.1 dir.replayFileMap
    replayConfig := writeJson system.writesReplayConfig
      { results.2 with recordMode := some kRecordModeFull } dir.replayConfig }

/-- What the marks are read from. -/
def marks (dir : TraceDirectory) : Bool × JsonFile FileMap × JsonFile ReplayConfig :=
  (dir.packed.isSome, dir.replayFileMap, dir.replayConfig)

section OneRun

variable {dir : TraceDirectory} {system : PackSystem}

private theorem packDirectory_run :
    (packDirectory system).run dir =
      if dir.packed.isSome then .error .alreadyPacked dir
      else if system.createsDirectory then
        (gathered system dir >>= writtenMarks system).run { dir with packed := some [] }
      else .error .filesystemError dir := by
  have whole : (packDirectory system).run dir =
      (if dir.packed.isSome then throw .alreadyPacked
      else if system.createsDirectory then do
        set { dir with packed := some [] }
        gathered system dir >>= writtenMarks system
      else throw .filesystemError : PackM PUnit).run dir := by
    simp only [gathered, bind_assoc, pure_bind]
    rfl
  rw [whole]
  split
  · rfl
  · split <;> rfl

private theorem packDirectory_packed (packed : dir.packed ≠ none) :
    (packDirectory system).run dir = .error .alreadyPacked dir := by
  rw [packDirectory_run, if_pos (Option.isSome_iff_ne_none.mpr packed)]

private theorem packDirectory_uncreated (unpacked : dir.packed = none)
    (fails : ¬system.createsDirectory = true) :
    (packDirectory system).run dir = .error .filesystemError dir := by
  rw [packDirectory_run, unpacked, if_neg nofun, if_neg fails]

private theorem packDirectory_created (unpacked : dir.packed = none)
    (creates : system.createsDirectory = true) :
    (packDirectory system).run dir =
      (gathered system dir >>= writtenMarks system).run { dir with packed := some [] } := by
  rw [packDirectory_run, unpacked, if_neg nofun, if_pos creates]

private theorem keeps_copyFile (number : ℕ) (source name : Bytes) :
    Keeps marks (copyFile system number source name) := by
  rw [copyFile]
  split
  · exact keeps_modify fun dir => by simp [marks]
  · exact keeps_throw _

private theorem keeps_getString (element : Option Bytes) : Keeps marks (getString element) := by
  rcases element with _ | text
  · exact keeps_throw _
  · exact keeps_pure text

private theorem keeps_packElement (loop : PackLoop) (element : Option Bytes) :
    Keeps marks (packElement system loop element) := by
  rw [packElement]
  refine (keeps_getString element).bind fun cand => ?_
  split
  · exact keeps_pure loop
  · split
    · exact keeps_throw _
    · exact keeps_pure loop
    · exact (keeps_copyFile _ _ _).bind fun _ => keeps_pure _

private theorem keeps_readJson {α : Type} (opens : Bool) (file : JsonFile α) :
    Keeps marks (readJson opens file) := by
  rw [readJson]
  split
  · exact keeps_pure _
  · exact keeps_throw _

private theorem keeps_gathered : Keeps marks (gathered system dir) := by
  rw [gathered]
  refine (keeps_readJson _ _).bind fun recordFiles => (keeps_readJson _ _).bind fun config => ?_
  refine Keeps.bind ?_ fun _ => keeps_pure _
  rw [packFiles]
  refine (keeps_getString _).bind fun _ => (keeps_copyFile _ _ _).bind fun _ => ?_
  exact (keeps_foldlM keeps_packElement _ _).bind fun _ => keeps_pure _

private theorem reaches_gathered (prepared : Prepared dir system) :
    Reaches (fun _ => True) (gathered system dir) := by
  obtain ⟨recordFiles, files, copyable⟩ := prepared.files
  obtain ⟨config, configured, named⟩ := prepared.config
  rw [gathered, files, configured, prepared.opensFilesConfig, prepared.opensReplayConfig]
  apply Reaches.bind (reaches_pure rfl)
  intro _ files
  apply Reaches.bind (reaches_pure rfl)
  intro _ config
  subst files config
  refine (reaches_packFiles named prepared.copiesExecutable copyable).bind fun _ _ => ?_
  exact reaches_pure trivial

private theorem throws_readJson {α : Type} {opens : Bool} {file : JsonFile α}
    (fails : ¬(opens = true ∧ ∃ value, file = some (some value))) :
    Throws (readJson opens file) := by
  rw [readJson]
  split
  case h_1 value read =>
    rcases opens with _ | _
    · cases read
    · exact absurd ⟨rfl, value, read⟩ fails
  case h_2 => exact throws_throw _

private theorem throws_gathered (fails : ¬Prepared dir system) : Throws (gathered system dir) := by
  rw [gathered]
  rcases Classical.em (system.opensFilesConfig = true ∧
      ∃ recordFiles, dir.filesConfig = some (some recordFiles)) with
    ⟨opensFiles, recordFiles, files⟩ | unread
  swap
  · exact (throws_readJson unread).bind _
  rcases Classical.em (system.opensReplayConfig = true ∧
      ∃ config, dir.replayConfig = some (some config)) with
    ⟨opensConfig, config, configured⟩ | unread
  swap
  · rw [files, opensFiles]
    exact Throws.after (reaches_pure rfl) fun _ _ => (throws_readJson unread).bind _
  rw [files, opensFiles, configured, opensConfig]
  apply Throws.after (reaches_pure rfl)
  intro _ same
  apply Throws.after (reaches_pure rfl)
  intro _ same'
  subst same same'
  refine (throws_packFiles fun needs => fails ?_).bind _
  obtain ⟨named, copies, copyable⟩ := needs
  exact ⟨opensFiles, opensConfig, ⟨recordFiles, files, copyable⟩, ⟨config, configured, named⟩, copies⟩

/-- A run that stops after it created the directory leaves that mark only. -/
theorem marks_of_stopped (unpacked : dir.packed = none) (creates : system.createsDirectory = true)
    (fails : ¬Prepared dir system) :
    marks (leftBehind (packDirectory system) dir) = (true, dir.replayFileMap, dir.replayConfig) := by
  have left : leftBehind (packDirectory system) dir =
      leftBehind (gathered system dir) { dir with packed := some [] } := by
    rw [leftBehind, packDirectory_created unpacked creates, ← leftBehind,
      (throws_gathered fails).leftBehind_bind]
  rw [left, keeps_gathered]
  rfl

/-- A run that does not stop tries both writes. -/
theorem marks_of_prepared (unpacked : dir.packed = none) (creates : system.createsDirectory = true)
    (prepared : Prepared dir system) :
    ∃ map config, config.recordMode = some kRecordModeFull ∧
      marks (leftBehind (packDirectory system) dir) =
        (true, writeJson system.writesFileMap map dir.replayFileMap,
          writeJson system.writesReplayConfig config dir.replayConfig) := by
  obtain ⟨results, -, left⟩ := (reaches_gathered prepared).leftBehind_bind (writtenMarks system)
    { dir with packed := some [] }
  refine ⟨results.1, { results.2 with recordMode := some kRecordModeFull }, rfl, ?_⟩
  have kept : marks (leftBehind (gathered system dir) { dir with packed := some [] }) =
      (true, dir.replayFileMap, dir.replayConfig) := keeps_gathered _
  rw [leftBehind, packDirectory_created unpacked creates, ← leftBehind, left]
  generalize leftBehind (gathered system dir) { dir with packed := some [] } = after at kept
  obtain ⟨made, map, config⟩ : after.packed.isSome = true ∧
      after.replayFileMap = dir.replayFileMap ∧ after.replayConfig = dir.replayConfig := by
    simpa [marks] using kept
  rw [← map, ← config, ← made]
  rfl

private theorem reaches_written (results : FileMap × ReplayConfig) :
    Reaches (fun _ => True) (writtenMarks system results) :=
  reaches_modify _

/-! ## What one run keeps -/

theorem MarksAgree.pack (agree : MarksAgree dir) (smooth : Smooth dir system) :
    MarksAgree (leftBehind (packDirectory system) dir) := by
  rcases unpacked : dir.packed with _ | copies
  swap
  · rwa [leftBehind, packDirectory_packed (by simp [unpacked])]
  rcases Classical.em (system.createsDirectory = true) with creates | fails
  swap
  · rwa [leftBehind, packDirectory_uncreated unpacked fails]
  obtain ⟨prepared, writesMap, writesConfig⟩ := smooth unpacked creates
  obtain ⟨map, config, mode, left⟩ := marks_of_prepared unpacked creates prepared
  generalize leftBehind (packDirectory system) dir = after at left
  rw [writesMap, writesConfig] at left
  obtain ⟨made, mapped, configured⟩ : after.packed.isSome = true ∧
      after.replayFileMap = some (some map) ∧ after.replayConfig = some (some config) := by
    simpa [marks, writeJson] using left
  exact ⟨iff_of_true made ⟨map, mapped⟩, iff_of_true made ⟨config, configured, mode⟩⟩

/-- A lost write completes no file. -/
theorem writeJson_lost {α : Type} {result : WriteResult} {value read : α} {before : JsonFile α}
    (lost : result ≠ .complete) (whole : writeJson result value before = some (some read)) :
    before = some (some read) := by
  cases result with
  | complete => exact absurd rfl lost
  | truncated => cases whole
  | unopened => exact whole

private theorem not_marksAgree_pack (agree : MarksAgree dir) (rough : ¬Smooth dir system) :
    ¬MarksAgree (leftBehind (packDirectory system) dir) := by
  simp only [Smooth, not_forall] at rough
  obtain ⟨unpacked, creates, rough⟩ := rough
  have unmapped : ¬MapComplete dir := fun map => by simpa [unpacked] using agree.map.mpr map
  have modeless : ¬ModeFull dir := fun mode => by simpa [unpacked] using agree.mode.mpr mode
  intro after
  rcases Classical.em (Prepared dir system) with prepared | stopped
  swap
  · have left := marks_of_stopped unpacked creates stopped
    generalize leftBehind (packDirectory system) dir = next at left after
    obtain ⟨made, mapped, -⟩ : next.packed.isSome = true ∧
        next.replayFileMap = dir.replayFileMap ∧ next.replayConfig = dir.replayConfig := by
      simpa [marks] using left
    obtain ⟨map, complete⟩ := after.map.mp made
    exact unmapped ⟨map, mapped.symm.trans complete⟩
  obtain ⟨map, config, mode, left⟩ := marks_of_prepared unpacked creates prepared
  generalize leftBehind (packDirectory system) dir = next at left after
  obtain ⟨made, mapped, configured⟩ : next.packed.isSome = true ∧
      next.replayFileMap = writeJson system.writesFileMap map dir.replayFileMap ∧
      next.replayConfig = writeJson system.writesReplayConfig config dir.replayConfig := by
    simpa [marks] using left
  rcases eq_or_ne system.writesFileMap .complete with writesMap | lost
  · have lost : system.writesReplayConfig ≠ .complete := fun writes =>
      rough ⟨prepared, writesMap, writes⟩
    obtain ⟨read, whole, full⟩ := after.mode.mp made
    exact modeless ⟨read, writeJson_lost lost (configured.symm.trans whole), full⟩
  · obtain ⟨read, whole⟩ := after.map.mp made
    exact unmapped ⟨read, writeJson_lost lost (mapped.symm.trans whole)⟩

private theorem retriable_of_smooth (smooth : Smooth dir system) : Retriable dir system := by
  intro fault next ran other
  rcases unpacked : dir.packed with _ | copies
  swap
  · rw [packDirectory_packed (by simp [unpacked])] at ran
    cases ran
    exact absurd rfl other
  rcases Classical.em (system.createsDirectory = true) with creates | fails
  swap
  · rw [packDirectory_uncreated unpacked fails] at ran
    cases ran
    exact unpacked
  have returns : Reaches (fun _ => True) (gathered system dir >>= writtenMarks system) :=
    (reaches_gathered (smooth unpacked creates).1).bind fun results _ => reaches_written results
  obtain ⟨_, _, returned, -⟩ := returns { dir with packed := some [] }
  rw [packDirectory_created unpacked creates, returned] at ran
  cases ran

end OneRun

/-! ## Every sequence of runs -/

private theorem marksAgree_iff_smooth {start : TraceDirectory} (agree : MarksAgree start)
    (systems : List PackSystem) :
    (∀ sent final, sent <+: systems → packMachine.run start sent = some final → MarksAgree final) ↔
      packMachine.Meets Smooth start systems := by
  refine Machine.invariant_iff_meets ?_ ?_ agree systems
  · rintro here system next agree smooth ⟨⟩
    exact agree.pack smooth
  · intro here system agree rough
    exact ⟨_, rfl, not_marksAgree_pack agree rough⟩

/-- The marks agree after every run and every stopped run can be repeated exactly if no run that
creates the directory stops or loses a write. -/
theorem marks_agree_iff {start : TraceDirectory} (recorded : Recorded start)
    (systems : List PackSystem) :
    ((∀ sent final, sent <+: systems → packMachine.run start sent = some final → MarksAgree final) ∧
        packMachine.Meets Retriable start systems) ↔
      packMachine.Meets Smooth start systems := by
  rw [marksAgree_iff_smooth recorded.marksAgree]
  apply and_iff_left_of_imp
  exact Machine.Meets.imp fun _ _ => retriable_of_smooth

/-- A recorded program that opened a file twice, a device, and a file that is gone by now. -/
def recordedDirectory : TraceDirectory where
  filesConfig := some (some [some (str "/etc/hosts"), some (str "/dev/null"), some (str "/tmp/gone"),
    some (str "/etc/hosts")])
  replayConfig := some (some
    { recordMode := some (str "default"), executable := some (str "/bin/app") })
  replayFileMap := none
  packed := none

private theorem recorded_directory : Recorded recordedDirectory where
  unpacked := rfl
  unmapped := rfl
  mode := by
    rintro ⟨config, ⟨⟩, full⟩
    exact absurd full (by decide)

/-- A system where the disk is full when the executable is copied. -/
def fullSystem : PackSystem := { smoothSystem with copies := fun _ => false }

/-- A system that lets a run do all it wants, and one that does not let it create the directory. -/
def laterSystem : PackSystem := { smoothSystem with isRegular := fun path => some (path != str "/tmp/gone") }

def lockedSystem : PackSystem := { laterSystem with createsDirectory := false }

private theorem prepared_later : Prepared recordedDirectory laterSystem where
  opensFilesConfig := rfl
  opensReplayConfig := rfl
  files := by
    refine ⟨_, rfl, ?_, fun _ _ => rfl⟩
    intro element member
    simp only [List.mem_cons, List.not_mem_nil, or_false] at member
    rcases member with rfl | rfl | rfl | rfl
    all_goals exact ⟨_, rfl, fun _ => Option.some_ne_none _⟩
  config := ⟨_, rfl, by simp⟩
  copiesExecutable := rfl

/-- The first run may not create the directory, the second one packs, and the third one finds the
directory packed. -/
theorem marks_agree_iff_twice :
    (∀ sent final, sent <+: [lockedSystem, laterSystem, laterSystem] →
        packMachine.run recordedDirectory sent = some final → MarksAgree final) ∧
      packMachine.Meets Retriable recordedDirectory [lockedSystem, laterSystem, laterSystem] := by
  refine (marks_agree_iff recorded_directory _).mpr ⟨fun _ creates => absurd creates (by decide), ?_⟩
  rintro first ⟨⟩
  refine ⟨fun _ _ => ⟨prepared_later, rfl, rfl⟩, ?_⟩
  rintro second ⟨⟩
  exact ⟨fun unpacked => absurd unpacked (by decide), fun _ _ => trivial⟩

/-- A run that could not copy the executable leaves the pack directory, and the next one is
refused. -/
theorem not_marks_agree :
    ¬∀ start, Recorded start → ∀ systems,
      (∀ sent final, sent <+: systems → packMachine.run start sent = some final →
          MarksAgree final) ∧
        packMachine.Meets Retriable start systems := by
  intro always
  have retriable := (always recordedDirectory recorded_directory [fullSystem]).2.1
  exact absurd (retriable .filesystemError { recordedDirectory with packed := some [] } rfl nofun)
    nofun

end DpcppTrace.Soundness
