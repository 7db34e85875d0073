import DpcppTrace.Model.ReplayCommand
import DpcppTrace.Soundness.Archive

/-! # Launching from an unpacked archive

The archive carries everything that `replay` reads from a packed directory, but no execute bits: the
copy of the executable comes back as a file that nobody may execute. A directory is named by the same
text in both launches.
-/

namespace DpcppTrace.Soundness

open Foundation Model

section Launch

variable (parseConfig : Bytes → Option ReplayConfig) (parseMap : Bytes → Option FileMap)
  (opts : LaunchOptions)

/-- Both directories launch the same, and either executable may be executed if the other may; the
users may stand differently to the two. -/
structure SameLaunch (source : Disk) (tracePath : Path) (user : Standing) (target : Disk)
    (unpackedPath : Path) (unpackedUser : Standing) : Prop where
  launch : packedLaunch parseConfig parseMap opts source.files tracePath =
    packedLaunch parseConfig parseMap opts target.files unpackedPath
  executable : source.MayExecute user (packedExecutable tracePath) ↔
    target.MayExecute unpackedUser (packedExecutable unpackedPath)

/-- What is launched depends on nothing but the tree. -/
theorem packedLaunch_eq {tree : Tree} {first second : FileSystem} {tracePath unpackedPath : Path}
    (here : tree.Below first tracePath) (there : tree.Below second unpackedPath) :
    packedLaunch parseConfig parseMap opts first tracePath =
      packedLaunch parseConfig parseMap opts second unpackedPath := by
  rw [packedLaunch, packedLaunch, here.content_eq there (List.cons_ne_nil _ _),
    here.content_eq there (List.cons_ne_nil _ _), here.content_eq there (List.cons_ne_nil _ _)]

/-- Unpacking restores the tree and leaves no file in it that anyone may execute. -/
theorem unpackDisk_archive (zstd : Zstd) (tree : Tree) (source : FileSystem) (tracePath : Path)
    (below : tree.Below source tracePath) (listing : tree.Listing) (target : Disk)
    (archive output : Path)
    (stored : target.files.lookup archive =
      some (.file (pack zstd source tracePath (listing.items.map Prod.fst))))
    (absent : target.files.lookup output = none)
    (parent : target.files.lookup output.dropLast = some .directory)
    (fuel : ℕ) (enough : tree.entries.length < fuel) :
    ∃ mapIt final, unpackDisk zstd fuel archive output target = some (.ok (mapIt, final)) ∧
      tree.Below final.files output ∧ ∀ user name path,
        ¬final.MayExecute user (output ++ name :: path) := by
  obtain ⟨files, unpacked, restored⟩ := unpack_archive zstd tree source tracePath below listing
    target.files archive output stored absent parent fuel enough
  refine ⟨_, target.written files, by rw [unpackDisk, unpacked]; rfl, restored.below, ?_⟩
  intro user name path
  apply Disk.not_mayExecute_written
  by_contra present
  have inside := target.files.directory_of_present output name path present
  exact absurd (absent.symm.trans inside) nofun

/-- An unpacked directory launches as the packed one does exactly if the executable of that could not
be executed either. -/
theorem same_launch_iff (zstd : Zstd) (tree : Tree) (source : Disk) (tracePath : Path)
    (below : tree.Below source.files tracePath) (listing : tree.Listing) (target : Disk)
    (archive output : Path)
    (stored : target.files.lookup archive =
      some (.file (pack zstd source.files tracePath (listing.items.map Prod.fst))))
    (absent : target.files.lookup output = none)
    (parent : target.files.lookup output.dropLast = some .directory)
    (fuel : ℕ) (enough : tree.entries.length < fuel) (user unpackedUser : Standing) :
    ∃ mapIt final, unpackDisk zstd fuel archive output target = some (.ok (mapIt, final)) ∧
      (SameLaunch parseConfig parseMap opts source tracePath user final output unpackedUser ↔
        ¬source.MayExecute user (packedExecutable tracePath)) := by
  obtain ⟨mapIt, final, unpacked, restored, forbidden⟩ := unpackDisk_archive zstd tree source.files
    tracePath below listing target archive output stored absent parent fuel enough
  refine ⟨mapIt, final, unpacked, ?_⟩
  have denied : ¬final.MayExecute unpackedUser (packedExecutable output) := forbidden _ _ _
  constructor
  · intro same allowed
    exact denied (same.executable.mp allowed)
  · intro unable
    exact ⟨packedLaunch_eq parseConfig parseMap opts below restored, iff_of_false unable denied⟩

end Launch

/-! ## A packed program without arguments -/

def sampleConfig : ReplayConfig where
  recordMode := some kRecordModeFull
  command := some (str "app")
  executable := some (str "/bin/app")
  arguments := some []
  hasOpenCLPlugin := some true
  hasLevelZeroPlugin := some false
  hasCUDAPlugin := some false
  hasROCmPlugin := some false

/-- The text of the configuration as `pack` writes it. -/
def sampleConfigText : Bytes :=
  str "\x7b\n    \"arguments\": [],\n    \"command\": \"app\",\n" ++
    str "    \"executable\": \"/bin/app\",\n    \"hasCUDAPlugin\": false,\n" ++
    str "    \"hasLevelZeroPlugin\": false,\n    \"hasOpenCLPlugin\": true,\n" ++
    str "    \"hasROCmPlugin\": false,\n    \"recordMode\": \"full\"\n\x7d"

def sampleMapText : Bytes := str "\x7b\n  \"/bin/app\": \"0\"\n\x7d"

def packedEntries : List (Path × Entry) :=
  [([kReplayConfigName], .file sampleConfigText), ([str "env"], .file (str "HOME=/root\n")),
    ([kReplayFileMapConfigName], .file sampleMapText), ([kPackedDataPath], .directory),
    ([kPackedDataPath, str "0"], .file (str "app"))]

private theorem packedEntries_distinct : (packedEntries.map Prod.fst).Nodup := by decide

private theorem packedEntries_valid : ∀ item ∈ packedEntries, ∀ name ∈ item.1, ValidName name := by decide

private theorem packedEntries_parents : ∀ item ∈ packedEntries, item.1.dropLast ≠ [] →
    (item.1.dropLast, Entry.directory) ∈ packedEntries := by
  decide

private theorem packedEntries_sized : ∀ item ∈ packedEntries, item.1 ≠ [] ∧
    (joinPath item.1).length < 2 ^ 64 ∧
    ∀ content, item.2 = .file content → content.length < 2 ^ 63 := by
  intro item member
  simp only [packedEntries, List.mem_cons, List.not_mem_nil, or_false] at member
  rcases member with rfl | rfl | rfl | rfl | rfl <;>
    refine ⟨by decide, by decide, fun content isFile => ?_⟩ <;> cases isFile <;> decide +kernel

def packedTree : Tree where
  entries := packedEntries
  distinct := packedEntries_distinct
  nonempty item member := (packedEntries_sized item member).1
  valid := packedEntries_valid
  parents := packedEntries_parents
  pathSized item member := (packedEntries_sized item member).2.1
  fileSized item member := (packedEntries_sized item member).2.2

def packedListing : packedTree.Listing where
  items := packedTree.entries
  complete := List.Perm.refl _
  parentsFirst := by decide

/-- The packed directory `/trace`. -/
def packedFiles : FileSystem :=
  (((((rootOnly.put [str "trace"] .directory).put [str "trace", kReplayConfigName]
    (.file sampleConfigText)).put [str "trace", str "env"] (.file (str "HOME=/root\n"))).put
    [str "trace", kReplayFileMapConfigName] (.file sampleMapText)).put
    [str "trace", kPackedDataPath] .directory).put
    [str "trace", kPackedDataPath, str "0"] (.file (str "app"))

theorem packedTree_below : packedTree.Below packedFiles [str "trace"] := by
  have opened : Restored rootOnly [str "trace"] [] (rootOnly.put [str "trace"] .directory) :=
    .start (by decide) (FileSystem.lookup_put (by decide) (by decide) (by decide))
  have config : Restored rootOnly [str "trace"] (packedTree.entries.take 1) _ :=
    opened.put (by decide) (by decide) _ (by decide)
  have env : Restored rootOnly [str "trace"] (packedTree.entries.take 2) _ :=
    config.put (by decide) (by decide) _ (by decide)
  have map : Restored rootOnly [str "trace"] (packedTree.entries.take 3) _ :=
    env.put (by decide) (by decide) _ (by decide)
  have directory : Restored rootOnly [str "trace"] (packedTree.entries.take 4) _ :=
    map.put (by decide) (by decide) _ (by decide)
  have copy : Restored rootOnly [str "trace"] packedTree.entries packedFiles :=
    directory.put (by decide) (by decide) _ (by decide)
  exact ⟨copy.directory, copy.content⟩

/-- The executable may be executed by its owner. -/
def packedDisk : Disk := ⟨packedFiles, fun _ => ⟨true, false, false⟩⟩

/-- A disk with nothing but the archive, `/t.pack`. -/
def archiveDisk : Disk where
  files := rootOnly.put [str "t.pack"] (.file (pack storedFrames packedFiles [str "trace"]
    (packedListing.items.map Prod.fst)))
  bits _ := ⟨false, false, false⟩

theorem archive_stored : archiveDisk.files.lookup [str "t.pack"] =
    some (.file (pack storedFrames packedFiles [str "trace"]
      (packedListing.items.map Prod.fst))) := by
  change (rootOnly.put [str "t.pack"] _).lookup [str "t.pack"] = _
  rw [FileSystem.lookup_put (by decide) (by decide) (by decide), if_pos rfl]

/-- A parser that knows one text. -/
def parseOnly {α : Type} (known : Bytes) (value : α) (text : Bytes) : Option α :=
  if text = known then some value else none

def sampleMap : FileMap := Dictionary.empty.set (str "/bin/app") (str "0")

def sampleOptions : LaunchOptions := ⟨[], str "/usr/bin/../lib", str "/trace"⟩

/-- A user that may not execute the program of the packed directory either. -/
theorem same_launch_iff_stranger :
    ∃ mapIt final, unpackDisk storedFrames 6 [str "t.pack"] [str "out"] archiveDisk =
        some (.ok (mapIt, final)) ∧
      SameLaunch (parseOnly sampleConfigText sampleConfig) (parseOnly sampleMapText sampleMap)
        sampleOptions packedDisk [str "trace"] .other final [str "out"] .other := by
  obtain ⟨mapIt, final, unpacked, same⟩ := same_launch_iff (parseOnly sampleConfigText sampleConfig)
    (parseOnly sampleMapText sampleMap) sampleOptions storedFrames packedTree packedDisk [str "trace"]
    packedTree_below packedListing archiveDisk [str "t.pack"] [str "out"] archive_stored
    (by decide) (by decide) 6 (by decide) .other .other
  exact ⟨mapIt, final, unpacked, same.mpr fun allowed => absurd allowed.2 (by decide)⟩

/-- The owner can replay the packed directory but not the unpacked one. -/
theorem not_same_launch :
    (packedLaunch (parseOnly sampleConfigText sampleConfig) (parseOnly sampleMapText sampleMap)
        sampleOptions packedDisk.files [str "trace"]).isSome ∧
      packedDisk.MayExecute .owner (packedExecutable [str "trace"]) ∧
      ∃ mapIt final, unpackDisk storedFrames 6 [str "t.pack"] [str "out"] archiveDisk =
          some (.ok (mapIt, final)) ∧
        ¬SameLaunch (parseOnly sampleConfigText sampleConfig) (parseOnly sampleMapText sampleMap)
          sampleOptions packedDisk [str "trace"] .owner final [str "out"] .owner := by
  have allowed : packedDisk.MayExecute .owner (packedExecutable [str "trace"]) :=
    ⟨by decide, rfl⟩
  obtain ⟨mapIt, final, unpacked, -, forbidden⟩ := unpackDisk_archive storedFrames packedTree
    packedFiles [str "trace"] packedTree_below packedListing archiveDisk [str "t.pack"] [str "out"]
    archive_stored (by decide) (by decide) 6 (by decide)
  refine ⟨by decide +kernel, allowed, mapIt, final, unpacked, fun same => ?_⟩
  exact forbidden _ _ _ (same.executable.mp allowed)

end DpcppTrace.Soundness
