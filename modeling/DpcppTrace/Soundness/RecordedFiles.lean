import DpcppTrace.Soundness.Reproducer

/-! # From the recorded program to the replayed one

`record` keeps the paths that the program opens, `pack` copies the files that they name, `unpack`
brings the copies to another place, and `replay` shows them to the program there: what was opened in
the recording has, wherever the replayed program asks for it, the bytes that it had when it was packed.
-/

namespace DpcppTrace.Soundness

open Foundation Model Model.NativeTracer MappedMemory

/-! ## What is recorded -/

/-- The program opened this path before its end. -/
def Opened (reports : List Report) (name : Bytes) : Prop :=
  ∃ report ∈ beforeEnd reports, ∃ addr, requested report = some (.openFile, addr) ∧
    HoldsString report.tracee.memory addr name

/-- The path of an opened file lies in memory up to the end of its last word. -/
def OpensReadably (report : Report) : Prop :=
  ∀ addr, requested report = some (.openFile, addr) →
    ∃ text, HoldsString report.tracee.memory addr text ∧
      Mapped report.tracee.memory (addr + UInt64.ofNat (8 * (text.length / 8))) 8

section Recording

variable {report : Report} {rest : List Report} {name : Bytes}

private theorem opened_ending {code : ℕ} (ends : ending report.change = some code) :
    ¬Opened (report :: rest) name := by
  rintro ⟨other, member, -⟩
  rw [beforeEnd, List.takeWhile_cons, ends] at member
  exact List.not_mem_nil member

private theorem opened_going (going : ending report.change = none) :
    Opened (report :: rest) name ↔
      (∃ addr, requested report = some (.openFile, addr) ∧
        HoldsString report.tracee.memory addr name) ∨ Opened rest name := by
  rw [Opened, beforeEnd_going going]
  constructor
  · rintro ⟨other, member, opens⟩
    rcases List.mem_cons.mp member with rfl | later
    · exact .inl opens
    · exact .inr ⟨other, later, opens⟩
  · rintro (opens | ⟨other, later, opens⟩)
    · exact ⟨report, List.mem_cons_self, opens⟩
    · exact ⟨other, List.mem_cons_of_mem _ later, opens⟩

/-- A reader that comes to an end has the path. -/
theorem read_of_readable {memory : MappedMemory} {addr : UInt64} {text result : Bytes} {words : ℕ}
    (holds : HoldsString memory addr text)
    (mapped : Mapped memory (addr + UInt64.ofNat (8 * (text.length / 8))) 8)
    (ended : readString memory addr words = some result) : result = text := by
  obtain ⟨enough, whole⟩ := (readString_iff holds).mpr mapped
  have first := readString_mono ended (Nat.le_max_left words enough)
  have second := readString_mono whole (Nat.le_max_right words enough)
  exact Option.some.inj (first.symm.trans second)

/-- The recorded files are the paths that the program opened, as long as the tracer can read them. -/
theorem mem_recordedFiles (reports : List Report) (words code : ℕ)
    (ended : (traceLoop words reports).place = .returned code)
    (readable : ∀ report ∈ beforeEnd reports, OpensReadably report) :
    name ∈ recordedFiles (traceLoop words reports).log ↔ Opened reports name := by
  induction reports with
  | nil => cases ended
  | cons report rest ih =>
    cases ends : ending report.change with
    | some code =>
      rw [traceLoop_ending ends]
      exact iff_of_false List.not_mem_nil (opened_ending ends)
    | none =>
      rw [beforeEnd_going ends] at readable
      have later := fun other member => readable other (List.mem_cons_of_mem _ member)
      have kept : report.killed = none := by
        by_contra killed
        rcases (traceLoop_killed words rest ends killed).2 with reading | threw
        · cases reading.symm.trans ended
        · cases threw.symm.trans ended
      rw [opened_going ends]
      rcases asked : requested report with _ | ⟨handler, addr⟩
      · rw [traceLoop_unrequested ends kept asked] at ended ⊢
        apply (ih ended later).trans
        simp
      · rw [traceLoop_requested kept asked] at ended ⊢
        cases read : readString report.tracee.memory addr words with
        | none =>
          rw [read] at ended
          cases ended
        | some text =>
          rw [read] at ended
          have others := ih ended later
          cases handler with
          | stat =>
            apply others.trans
            simp
          | openFile =>
            obtain ⟨held, holds, mapped⟩ := readable report List.mem_cons_self addr asked
            obtain rfl := read_of_readable holds mapped read
            have here : (∃ other, requested report = some (.openFile, other) ∧
                HoldsString report.tracee.memory other name) ↔ name = text := by
              constructor
              · rintro ⟨other, asks, lies⟩
                obtain ⟨-, rfl⟩ := Prod.mk.inj (Option.some.inj (asked.symm.trans asks))
                exact lies.unique holds
              · rintro rfl
                exact ⟨addr, asked, holds⟩
            rw [← asked, here, ← others]
            exact List.mem_cons

end Recording

/-! ## What is reproduced -/

/-- The path is not among the packed ones: the program did not open it, or it is skipped, or it named
no regular file when the others were packed. -/
def LeftOut (system : CopySystem) (recorded : List Report) (name : Bytes) : Prop :=
  Opened recorded name → skipped name = true ∨
    (system.inPack name = none ∧ system.elsewhere name = none)

/-- What a stopped call of the replayed program is given: for a file that the recorded program opened
its bytes, and the path that it asks for if it is neither packed nor taken for a library. -/
structure Reproduced (system : CopySystem) (executable : Bytes) (recorded : List Report)
    (files : PackedFiles) (fs : FileSystem) (packed : Path) (before after : Tracee) : Prop where
  shown : ∀ reg name bytes, fileNameRegister (callOf before) = some reg →
    HoldsString before.memory (before.user reg) name → Opened recorded name →
      skipped name = false → system.inPack name = none → system.elsewhere name = some bytes →
        Unambiguous files.replayFileMap name →
          ∀ cwd, fs.target cwd files.basePath = some packed → PointsToFile fs cwd after reg bytes
  passed : ∀ reg name, fileNameRegister (callOf before) = some reg →
    HoldsString before.memory (before.user reg) name → name ≠ executable →
      LeftOut system recorded name → ¬str ".so" <:+: name → after = before

section Reproduction

variable {system : CopySystem} {executable : Bytes} {recorded : List Report} {copied : CopyLoop}
  {files : PackedFiles} {fs : FileSystem} {packed : Path} {before after : Tracee} {words : ℕ}

/-- A stop that is served from the copies of the recorded files is one of the recorded program. -/
theorem reproduced_of_served
    (ran : packCopies system executable (recordedFiles (traceLoop words recorded).log) = .ok copied)
    (opens : ∀ name, name ∈ recordedFiles (traceLoop words recorded).log ↔ Opened recorded name)
    (map : files.replayFileMap = copied.replayMap)
    (served : Served files fs packed (system.content copied.entries) before after) :
    Reproduced system executable recorded files fs packed before after where
  shown reg name bytes asked holds opened unskipped outside regular unambiguous cwd leads := by
    have picked : Picked system executable (recordedFiles (traceLoop words recorded).log) name :=
      (picked_elsewhere ran outside).mpr
        ⟨(opens name).mpr opened, unskipped, by rw [regular]; exact Option.some_ne_none _⟩
    have key : files.replayFileMap.find name ≠ none := by
      rw [map, find_ne_none]
      exact (keys_of_run ran name).mpr (.inr picked)
    obtain ⟨other, known, shows⟩ := served.recorded reg name asked holds key unambiguous cwd leads
    rw [CopySystem.content, outside] at known
    obtain rfl := Option.some.inj (regular.symm.trans known)
    exact shows
  passed reg name asked holds different leftOut plain := by
    apply served.unrecorded reg name asked holds _ plain
    by_contra key
    rw [map, ← ne_eq, find_ne_none] at key
    rcases (keys_of_run ran name).mp key with same | ⟨front, rest, loop, split, -, unskipped, taken⟩
    · exact different same
    · have opened : Opened recorded name := (opens name).mp (by rw [split]; simp)
      rcases leftOut opened with skips | ⟨outside, missing⟩
      · rw [skips] at unskipped
        cases unskipped
      · rw [CopySystem.content, outside] at taken
        exact taken missing

end Reproduction

/-- Record, pack, unpack and replay: in every session of the replayed program that the tracer can
serve, a file that the recorded program opened is shown with its bytes, and a path that was not packed
is left alone. -/
theorem recording_reproduced (zstd : Zstd) (parseConfig : Bytes → Option ReplayConfig)
    (parseMap : Bytes → Option FileMap) (opts : LaunchOptions) (system : CopySystem)
    (executable : Bytes) (recorded : List Report) (words code : ℕ)
    (ended : (traceLoop words recorded).place = .returned code)
    (readable : ∀ report ∈ beforeEnd recorded, OpensReadably report) (copied : CopyLoop)
    (ran : packCopies system executable (recordedFiles (traceLoop words recorded).log) = .ok copied)
    (tree : Tree) (carries : Carries parseMap tree copied) (source : FileSystem) (tracePath : Path)
    (below : tree.Below source tracePath) (listing : tree.Listing) (target : FileSystem)
    (archive output : Path)
    (stored : target.lookup archive =
      some (.file (pack zstd source tracePath (listing.items.map Prod.fst))))
    (absent : target.lookup output = none)
    (parent : target.lookup output.dropLast = some .directory)
    (fuel : ℕ) (enough : tree.entries.length < fuel) :
    ∃ mapIt unpacked, unpack zstd fuel archive output target = some (.ok (mapIt, unpacked)) ∧
      ∀ launch, packedLaunch parseConfig parseMap opts unpacked output = some launch →
        ∀ basePath, basePath ≠ [] → 0 ∉ basePath →
          (∀ item ∈ launch.replayFileMap.items,
            (packedCopy basePath item.2).length < PATH_MAX.toNat) →
          ∀ stale reports, NeverKilled reports → (∀ tracee ∈ stops reports, Servable tracee) →
            ∃ afters, List.Forall₂ (Reproduced system executable recorded
                ⟨basePath, launch.replayFileMap⟩ unpacked (output ++ [kPackedDataPath]))
                (stops reports) afters ∧
              ∃ words, ∀ more, words ≤ more →
                PackedFiles.serve ⟨basePath, launch.replayFileMap⟩ more stale 0 reports =
                  some (.ok afters) := by
  obtain ⟨unpacked, restores, restored⟩ := unpack_archive zstd tree source tracePath below listing
    target archive output stored absent parent fuel enough
  refine ⟨_, unpacked, restores, fun launch launched basePath nonempty noNul short stale reports
    kept servable => ?_⟩
  have map := launch_map carries restored.below launched
  let files : PackedFiles := ⟨basePath, launch.replayFileMap⟩
  have has : HasCopies unpacked (output ++ [kPackedDataPath]) files.replayFileMap
      (system.content copied.entries) := by
    change HasCopies _ _ launch.replayFileMap _
    rw [map]
    exact hasCopies_of_run ran carries restored.below
  obtain ⟨afters, served, enoughWords⟩ :=
    serve_served has nonempty noNul short stale reports 0 kept servable
  refine ⟨afters, served.imp fun before after here => ?_, enoughWords⟩
  exact reproduced_of_served ran (fun _ => mem_recordedFiles recorded words code ended readable) map here

/-! ## A program that reads its configuration -/

/-- The program opens a file and ends. -/
def confReports : List Report :=
  [⟨.seccompStop, openingTracee (str "/etc/conf"), none⟩, ⟨.exited 0, blankTracee, none⟩]

def confSystem : CopySystem where
  inPack _ := none
  elsewhere path :=
    if path = str "/bin/app" then some (str "app")
    else if path = str "/etc/conf" then some (str "a=1")
    else none
  copies _ := true

def confMap : FileMap := sampleMap.set (str "/etc/conf") (str "1_conf")

def confCopied : CopyLoop where
  counter := 2
  replayMap := confMap
  entries := Function.update (Function.update (fun _ => none) (str "0") (some (str "app")))
    (str "1_conf") (some (str "a=1"))
  targets := [str "0", str "1_conf"]

private theorem confReports_recorded :
    recordedFiles (traceLoop 2 confReports).log = [str "/etc/conf"] := by
  decide

private theorem confCopied_ran :
    packCopies confSystem (str "/bin/app") [str "/etc/conf"] = .ok confCopied := rfl

def confMapText : Bytes :=
  str "\x7b\n  \"/bin/app\": \"0\",\n  \"/etc/conf\": \"1_conf\"\n\x7d"

def confEntries : List (Path × Entry) :=
  [([kReplayConfigName], .file sampleConfigText), ([str "env"], .file (str "HOME=/root\n")),
    ([kReplayFileMapConfigName], .file confMapText), ([kPackedDataPath], .directory),
    ([kPackedDataPath, str "0"], .file (str "app")),
    ([kPackedDataPath, str "1_conf"], .file (str "a=1"))]

private theorem confEntries_sized : ∀ item ∈ confEntries, item.1 ≠ [] ∧
    (joinPath item.1).length < 2 ^ 64 ∧
    ∀ content, item.2 = .file content → content.length < 2 ^ 63 := by
  intro item member
  simp only [confEntries, List.mem_cons, List.not_mem_nil, or_false] at member
  rcases member with rfl | rfl | rfl | rfl | rfl | rfl <;>
    refine ⟨by decide, by decide, fun content isFile => ?_⟩ <;> cases isFile <;> decide +kernel

def confTree : Tree where
  entries := confEntries
  distinct := by decide
  nonempty item member := (confEntries_sized item member).1
  valid := by decide
  parents := by decide
  pathSized item member := (confEntries_sized item member).2.1
  fileSized item member := (confEntries_sized item member).2.2

def confListing : confTree.Listing where
  items := confTree.entries
  complete := List.Perm.refl _
  parentsFirst := by decide

/-- The packed directory `/trace`. -/
def confFiles : FileSystem :=
  ((((((rootOnly.put [str "trace"] .directory).put [str "trace", kReplayConfigName]
    (.file sampleConfigText)).put [str "trace", str "env"] (.file (str "HOME=/root\n"))).put
    [str "trace", kReplayFileMapConfigName] (.file confMapText)).put
    [str "trace", kPackedDataPath] .directory).put
    [str "trace", kPackedDataPath, str "0"] (.file (str "app"))).put
    [str "trace", kPackedDataPath, str "1_conf"] (.file (str "a=1"))

private theorem confTree_below : confTree.Below confFiles [str "trace"] := by
  have opened : Restored rootOnly [str "trace"] [] (rootOnly.put [str "trace"] .directory) :=
    .start (by decide) (FileSystem.lookup_put (by decide) (by decide) (by decide))
  have config : Restored rootOnly [str "trace"] (confTree.entries.take 1) _ :=
    opened.put (by decide) (by decide) _ (by decide)
  have env : Restored rootOnly [str "trace"] (confTree.entries.take 2) _ :=
    config.put (by decide) (by decide) _ (by decide)
  have map : Restored rootOnly [str "trace"] (confTree.entries.take 3) _ :=
    env.put (by decide) (by decide) _ (by decide)
  have directory : Restored rootOnly [str "trace"] (confTree.entries.take 4) _ :=
    map.put (by decide) (by decide) _ (by decide)
  have program : Restored rootOnly [str "trace"] (confTree.entries.take 5) _ :=
    directory.put (by decide) (by decide) _ (by decide)
  have copy : Restored rootOnly [str "trace"] confTree.entries confFiles :=
    program.put (by decide) (by decide) _ (by decide)
  exact ⟨copy.directory, copy.content⟩

/-- A disk with nothing but the archive, `/t.pack`. -/
def confDisk : FileSystem :=
  rootOnly.put [str "t.pack"] (.file (pack storedFrames confFiles [str "trace"]
    (confListing.items.map Prod.fst)))

private theorem confDisk_stored : confDisk.lookup [str "t.pack"] =
    some (.file (pack storedFrames confFiles [str "trace"]
      (confListing.items.map Prod.fst))) := by
  rw [confDisk, FileSystem.lookup_put (by decide) (by decide) (by decide), if_pos rfl]

private theorem confCopied_carried : Carries (parseOnly confMapText confMap) confTree confCopied where
  copies name bytes held := by
    change Function.update (Function.update (fun _ => none) (str "0") (some (str "app")))
      (str "1_conf") (some (str "a=1")) name = some bytes at held
    rcases eq_or_ne name (str "1_conf") with rfl | other
    · rw [Function.update_self] at held
      obtain rfl := Option.some.inj held
      decide
    · rw [Function.update_of_ne other] at held
      rcases eq_or_ne name (str "0") with rfl | neither
      · rw [Function.update_self] at held
        obtain rfl := Option.some.inj held
        decide
      · rw [Function.update_of_ne neither] at held
        cases held
  map := ⟨confMapText, by decide, if_pos rfl⟩

/-- The replayed program is shown the configuration of the recorded one. -/
theorem recording_reproduced_conf :
    ∃ mapIt unpacked launch after words,
      unpack storedFrames 7 [str "t.pack"] [str "out"] confDisk = some (.ok (mapIt, unpacked)) ∧
      packedLaunch (parseOnly sampleConfigText sampleConfig) (parseOnly confMapText confMap)
        sampleOptions unpacked [str "out"] = some launch ∧
      PackedFiles.serve ⟨str "out/pack", launch.replayFileMap⟩ words (fun _ _ => 0) 0
        (confReports.take 1) = some (.ok [after]) ∧
      PointsToFile unpacked [] after (longSize * RSI) (str "a=1") := by
  have readable : ∀ report ∈ beforeEnd confReports, OpensReadably report := by
    intro report member addr asked
    obtain rfl := List.mem_singleton.mp member
    obtain ⟨-, rfl⟩ := Prod.mk.inj (Option.some.inj asked)
    exact ⟨_, openingTracee_holds (by decide) (by decide), fun _ _ => openingTracee_mapped _ _⟩
  have kept : NeverKilled (confReports.take 1) := by
    intro report member
    obtain rfl := List.mem_singleton.mp member
    rfl
  have opened : Opened confReports (str "/etc/conf") :=
    (mem_recordedFiles confReports 2 0 (by decide) readable).mp (by rw [confReports_recorded]; simp)
  obtain ⟨unpacked, ended, restored⟩ := unpack_archive storedFrames confTree confFiles
    [str "trace"] confTree_below confListing confDisk [str "t.pack"] [str "out"]
    confDisk_stored (by decide) (by decide) 7 (by decide)
  obtain ⟨mapIt, other, same, reproduces⟩ := recording_reproduced storedFrames
    (parseOnly sampleConfigText sampleConfig) (parseOnly confMapText confMap) sampleOptions
    confSystem (str "/bin/app") confReports 2 0 (by decide) readable confCopied
    (by rw [confReports_recorded]; exact confCopied_ran) confTree confCopied_carried confFiles
    [str "trace"] confTree_below confListing confDisk [str "t.pack"] [str "out"]
    confDisk_stored (by decide) (by decide) 7 (by decide)
  obtain ⟨rfl, rfl⟩ := Prod.mk.inj (Except.ok.inj (Option.some.inj (ended.symm.trans same)))
  have launches : (packedLaunch (parseOnly sampleConfigText sampleConfig)
      (parseOnly confMapText confMap) sampleOptions unpacked [str "out"]).isSome = true := by
    rw [← packedLaunch_eq _ _ _ confTree_below restored.below]
    decide +kernel
  obtain ⟨launch, launched⟩ := Option.isSome_iff_exists.mp launches
  have map : launch.replayFileMap = confMap := launch_map confCopied_carried restored.below launched
  obtain ⟨afters, served, words, ran⟩ := reproduces launch launched (str "out/pack") (by decide)
    (by decide) (by rw [map]; decide) (fun _ _ => 0)
    (confReports.take 1) kept fun tracee member => by
      obtain rfl := List.mem_singleton.mp member
      exact openingTracee_servable (by decide) (by decide)
  obtain ⟨after, others, here, nothing, rfl⟩ := List.forall₂_cons_left_iff.mp served
  obtain rfl : others = [] := List.forall₂_nil_left_iff.mp nothing
  refine ⟨_, unpacked, launch, after, words, ended, launched, ran words le_rfl, ?_⟩
  exact here.shown (longSize * RSI) (str "/etc/conf") (str "a=1") (by decide)
    (openingTracee_holds (by decide) (by decide)) opened (by decide) rfl (by decide)
    (fun library => absurd library (by decide)) [] (target_outPack restored.directory)

end DpcppTrace.Soundness
