import DpcppTrace.Foundation.PathResolution
import DpcppTrace.Model.FileServing
import DpcppTrace.Soundness.FileReplacement
import DpcppTrace.Soundness.PackedCopies
import DpcppTrace.Soundness.PackedLaunch
import DpcppTrace.Soundness.TraceLoop

/-! # What a reproducer shows to the program

A recorded file goes into its copy, the copy through the archive into the unpacked directory, and from
there into the calls of the program: wherever the program asks for the file by its recorded name, it is
given the name of a file that has the recorded bytes. A name that is not in the file map is given to
the kernel as it is, if it is not taken for a library.
-/

namespace DpcppTrace.Soundness

open Foundation Model Model.NativeTracer MappedMemory

/-! ## The name of the copy -/

section Replacement

variable {basePath : Bytes} {map : FileMap} {name : Bytes}

/-- An unambiguous key is replaced by its own copy. -/
theorem replacement_of_unambiguous {value : Bytes} (found : map.find name = some value)
    (unambiguous : Unambiguous map name) :
    findSuitableReplacement basePath map name = packedCopy basePath value := by
  have listed : (name, value) ∈ map.items := Dictionary.find_eq_some.mp found
  rw [findSuitableReplacement]
  split
  · rename_i library
    have fits : filename name <:+: name := (filename_suffix name).isInfix
    rcases first : map.items.find? (fun el => filename name <:+: el.1) with _ | hit
    · have missed := List.find?_eq_none.mp first (name, value) listed
      exact absurd fits (by simpa using missed)
    · have hitIn : hit ∈ map.items := List.mem_of_find?_eq_some first
      have hitFits : filename name <:+: hit.1 := by simpa using List.find?_some first
      have below : hit.1 ≤ name :=
        Dictionary.le_of_find?_eq_some first listed (by simpa using fits)
      have above := (unambiguous library hit hitIn hitFits).1 (by simp [found])
      have same : hit.1 = name := Std.le_antisymm below above
      simp only [first, Dictionary.value_unique hitIn listed same]
  · rw [found]

/-- A replacement is the name of some copy. -/
theorem replacement_cases (basePath : Bytes) (map : FileMap) (name : Bytes) :
    findSuitableReplacement basePath map name = [] ∨
      ∃ item ∈ map.items, findSuitableReplacement basePath map name = packedCopy basePath item.2 := by
  rw [findSuitableReplacement]
  split
  · rcases first : map.items.find? (fun el => filename name <:+: el.1) with _ | hit
    · exact .inl (by simp only [first])
    · exact .inr ⟨hit, List.mem_of_find?_eq_some first, by simp only [first]⟩
  · rcases found : map.find name with _ | value
    · exact .inl rfl
    · exact .inr ⟨(name, value), Dictionary.find_eq_some.mp found, rfl⟩

private theorem replacement_of_unrecorded (plain : ¬str ".so" <:+: name) (missing : map.find name = none) :
    findSuitableReplacement basePath map name = [] := by
  rw [findSuitableReplacement, if_neg plain, missing]

end Replacement

/-! ## One stop -/

/-- The call of a stopped tracee. -/
def callOf (tracee : Tracee) : ℕ := (tracee.user (longSize * ORIG_RAX)).toNat

/-- Behind a replaced name: the register points to what a system call sees of the text, and the memory
from the red zone on and the other registers are as they were. -/
structure Renamed (before after : Tracee) (reg : ℕ) (text : Bytes) : Prop where
  holds : HoldsString after.memory (after.user reg) (cString text)
  memory : ∀ address : UInt64,
    (before.user (longSize * RSP)).toNat ≤ address.toNat + 128 →
      after.memory address = before.memory address
  registers : ∀ other, other ≠ reg → after.user other = before.user other

/-- The writer ends with the text in the reserved space. -/
theorem writeString_renames {tracee : Tracee} (reg : ℕ) {text : Bytes} (stale : ℕ → UInt8)
    (short : text.length < PATH_MAX.toNat)
    (below : MappedBelow tracee.memory (tracee.user (longSize * RSP)) (128 + PATH_MAX.toNat)) :
    ∃ after, Renamed tracee after reg text ∧ ∀ words, text.length / 8 + 1 ≤ words →
      writeString tracee reg text stale words = some (.ok after) := by
  change text.length < 4096 at short
  change MappedBelow _ _ 4224 at below
  obtain ⟨room, mapped⟩ := below.mapped
  obtain ⟨base, same⟩ : ∃ base, base = tracee.user (longSize * RSP) - UInt64.ofNat 4224 := ⟨_, rfl⟩
  have reserved : Mapped tracee.memory base 4096 := by
    rw [same]
    exact fun i inside => mapped i (by omega)
  obtain ⟨padding, length, ends⟩ := writeRun_ends stale reserved short
  have stored : HoldsBytes (tracee.memory.store base (text ++ 0 :: padding)) base
      (text ++ [0] ++ padding) := by
    rw [List.append_assoc]
    exact holdsBytes_store (by omega)
  have pointed : pokeUser tracee.user reg base reg = base := if_pos rfl
  refine ⟨⟨tracee.memory.store base (text ++ 0 :: padding), pokeUser tracee.user reg base⟩,
    ⟨?_, ?_, ?_⟩, ?_⟩
  · change HoldsString _ (pokeUser tracee.user reg base reg) _
    rw [pointed]
    exact stored.append_left.string
  · intro address above
    apply store_outside
    rw [same, UInt64.toNat_sub, UInt64.toNat_sub, UInt64.toNat_ofNat']
    have high := address.toNat_lt
    have bound := (tracee.user (longSize * RSP)).toNat_lt
    omega
  · intro other differs
    exact if_neg differs
  · intro words enough
    obtain ⟨more, rfl⟩ := Nat.exists_eq_add_of_le enough
    have start : tracee.user (longSize * RSP) - (128 + PATH_MAX) = base := same.symm
    rw [writeString, start, Nat.add_assoc, Nat.add_comm 1 more, ends]
    rfl

/-- The register points to the path of a file with these bytes, seen from the directory `cwd`. -/
def PointsToFile (fs : FileSystem) (cwd : Path) (tracee : Tracee) (reg : ℕ) (bytes : Bytes) : Prop :=
  ∃ text place, HoldsString tracee.memory (tracee.user reg) text ∧
    fs.target cwd text = some place ∧ fs.content place = some bytes

/-- The pack directory has a copy of every key of the map, with the bytes of the key. -/
structure HasCopies (fs : FileSystem) (packed : Path) (map : FileMap)
    (bytesOf : Bytes → Option Bytes) : Prop where
  directory : fs.lookup packed = some .directory
  copies : ∀ item ∈ map.items, ValidName (cString item.2) ∧
    ∃ bytes, bytesOf item.1 = some bytes ∧
      fs.lookup (packed ++ [cString item.2]) = some (.file bytes)

/-- What the handlers make of a stopped tracee: a call for an unambiguous key is shown the bytes of the
key, from wherever the base path leads to the pack directory; a call for a path that is no key and is
not taken for a library is left alone; and nothing changes but the path. -/
structure Served (files : PackedFiles) (fs : FileSystem) (packed : Path)
    (bytesOf : Bytes → Option Bytes) (before after : Tracee) : Prop where
  recorded : ∀ reg name, fileNameRegister (callOf before) = some reg →
    HoldsString before.memory (before.user reg) name → files.replayFileMap.find name ≠ none →
      Unambiguous files.replayFileMap name → ∀ cwd, fs.target cwd files.basePath = some packed →
        ∃ bytes, bytesOf name = some bytes ∧ PointsToFile fs cwd after reg bytes
  unrecorded : ∀ reg name, fileNameRegister (callOf before) = some reg →
    HoldsString before.memory (before.user reg) name → files.replayFileMap.find name = none →
      ¬str ".so" <:+: name → after = before
  memory : ∀ address : UInt64,
    (before.user (longSize * RSP)).toNat ≤ address.toNat + 128 →
      after.memory address = before.memory address
  registers : ∀ other, fileNameRegister (callOf before) ≠ some other →
    after.user other = before.user other

/-- The tracer can read the path of the call, and there is room for another one below the red zone. -/
structure Servable (tracee : Tracee) : Prop where
  readable : ∀ reg, fileNameRegister (callOf tracee) = some reg →
    ∃ name, HoldsString tracee.memory (tracee.user reg) name ∧
      Mapped tracee.memory (tracee.user reg + UInt64.ofNat (8 * (name.length / 8))) 8
  room : MappedBelow tracee.memory (tracee.user (longSize * RSP)) (128 + PATH_MAX.toNat)

section Stop

variable {files : PackedFiles} {fs : FileSystem} {packed : Path} {bytesOf : Bytes → Option Bytes}

private theorem served_of_same {tracee : Tracee}
    (unreplaced : ∀ reg name, fileNameRegister (callOf tracee) = some reg →
      HoldsString tracee.memory (tracee.user reg) name → files.replayFileMap.find name ≠ none →
        ¬Unambiguous files.replayFileMap name) :
    Served files fs packed bytesOf tracee tracee where
  recorded reg name asked holds key unambiguous :=
    absurd unambiguous (unreplaced reg name asked holds key)
  unrecorded _ _ _ _ _ _ := rfl
  memory _ _ := rfl
  registers _ _ := rfl

private theorem atCall_of_register {tracee : Tracee} {reg words : ℕ} {stale : ℕ → UInt8}
    (asked : fileNameRegister (callOf tracee) = some reg) :
    files.atCall words tracee stale = (readString tracee.memory (tracee.user reg) words).bind
      (files.handler words tracee reg stale) := by
  rw [PackedFiles.atCall, ← callOf, asked]

/-- A stop is served, if the names of the copies are short enough. -/
theorem atCall_served (has : HasCopies fs packed files.replayFileMap bytesOf)
    (nonempty : files.basePath ≠ []) (noNul : 0 ∉ files.basePath)
    (short : ∀ item ∈ files.replayFileMap.items,
      (packedCopy files.basePath item.2).length < PATH_MAX.toNat)
    {tracee : Tracee} (servable : Servable tracee) (stale : ℕ → UInt8) :
    ∃ after, Served files fs packed bytesOf tracee after ∧
      ∃ enough, ∀ words, enough ≤ words → files.atCall words tracee stale = some (.ok after) := by
  cases asked : fileNameRegister (callOf tracee) with
  | none =>
    refine ⟨tracee, served_of_same fun reg name other => ?_, 0, fun words _ => ?_⟩
    · rw [asked] at other
      cases other
    · rw [PackedFiles.atCall, ← callOf, asked]
  | some reg =>
    obtain ⟨name, holds, mapped⟩ := servable.readable reg asked
    obtain ⟨read, ended⟩ := (readString_iff holds).mpr mapped
    have unique {other : ℕ} {text : Bytes} (asks : fileNameRegister (callOf tracee) = some other)
        (lies : HoldsString tracee.memory (tracee.user other) text) : other = reg ∧ text = name := by
      obtain rfl := Option.some.inj (asks.symm.trans asked)
      exact ⟨rfl, lies.unique holds⟩
    have passes (words : ℕ) (enough : read ≤ words) : files.atCall words tracee stale =
        files.handler words tracee reg stale name := by
      rw [atCall_of_register asked, readString_mono ended enough, Option.bind_some]
    rcases replacement_cases files.basePath files.replayFileMap name with empty | ⟨item, listed, same⟩
    · refine ⟨tracee, served_of_same fun other text asks lies key unambiguous => ?_, read,
        fun words enough => ?_⟩
      · obtain ⟨rfl, rfl⟩ := unique asks lies
        obtain ⟨value, found⟩ := Option.ne_none_iff_exists'.mp key
        rw [replacement_of_unambiguous found unambiguous] at empty
        exact packedCopy_ne_nil _ _ empty
      · rw [passes words enough, PackedFiles.handler, empty]
        rfl
    · obtain ⟨after, renamed, written⟩ := writeString_renames reg stale (short item listed)
        servable.room
      refine ⟨after, ⟨?_, ?_, renamed.memory, ?_⟩, max read PATH_MAX.toNat, fun words enough => ?_⟩
      · intro other text asks lies key unambiguous cwd leads
        obtain ⟨rfl, rfl⟩ := unique asks lies
        obtain ⟨value, found⟩ := Option.ne_none_iff_exists'.mp key
        obtain ⟨valid, bytes, known, held⟩ := has.copies _ (Dictionary.find_eq_some.mp found)
        have own := same.symm.trans (replacement_of_unambiguous found unambiguous)
        have place := FileSystem.target_append leads has.directory nonempty noNul valid
        have text : packedCopy files.basePath value = files.basePath ++ slash :: value := by
          rw [packedCopy, List.append_assoc]
          rfl
        refine ⟨bytes, known, _, packed ++ [cString value], renamed.holds, ?_, ?_⟩
        · rw [FileSystem.target_cString, own, text, place]
        · rw [FileSystem.content, held]
      · intro other text asks lies missing plain
        obtain ⟨rfl, rfl⟩ := unique asks lies
        rw [replacement_of_unrecorded plain missing] at same
        exact absurd same.symm (packedCopy_ne_nil _ _)
      · intro other differs
        apply renamed.registers
        rintro rfl
        exact differs asked
      · have long := short item listed
        rw [passes words (by omega), PackedFiles.handler, same, if_neg (packedCopy_ne_nil _ _)]
        exact written words (by omega)

/-! ## The session -/

/-- The stopped tracees that the worker comes to. -/
def stops (reports : List Report) : List Tracee :=
  ((beforeEnd reports).filter fun report => report.change = .seccompStop).map (·.tracee)

/-- The tracee is killed in none of its stops. -/
def NeverKilled (reports : List Report) : Prop := ∀ report ∈ beforeEnd reports, report.killed = none

/-- Every stop of a session is served. -/
theorem serve_served (has : HasCopies fs packed files.replayFileMap bytesOf)
    (nonempty : files.basePath ≠ []) (noNul : 0 ∉ files.basePath)
    (short : ∀ item ∈ files.replayFileMap.items,
      (packedCopy files.basePath item.2).length < PATH_MAX.toNat)
    (stale : ℕ → ℕ → UInt8) (reports : List Report) (pass : ℕ) (kept : NeverKilled reports)
    (servable : ∀ tracee ∈ stops reports, Servable tracee) :
    ∃ afters, List.Forall₂ (Served files fs packed bytesOf) (stops reports) afters ∧
      ∃ enough, ∀ words, enough ≤ words →
        files.serve words stale pass reports = some (.ok afters) := by
  induction reports generalizing pass with
  | nil => exact ⟨[], .nil, 0, fun _ _ => rfl⟩
  | cons report rest ih =>
    cases ends : ending report.change with
    | some code =>
      have none : stops (report :: rest) = [] := by
        rw [stops, beforeEnd, List.takeWhile_cons, ends]
        rfl
      rw [none]
      refine ⟨[], .nil, 0, fun words _ => ?_⟩
      rw [PackedFiles.serve, if_pos (wait_ending ends).1]
    | none =>
      have going := wait_going ends
      rw [NeverKilled, beforeEnd_going ends, List.forall_mem_cons] at kept
      obtain ⟨whole, keptLater⟩ := kept
      by_cases stopped : report.change = .seccompStop
      · have here : stops (report :: rest) = report.tracee :: stops rest := by
          rw [stops, beforeEnd_going ends, List.filter_cons_of_pos (by simpa using stopped),
            List.map_cons, stops]
        rw [here] at servable ⊢
        obtain ⟨after, served, first, called⟩ := atCall_served has nonempty noNul short
          (servable report.tracee List.mem_cons_self) (stale pass)
        obtain ⟨afters, later, enough, ran⟩ := ih (pass + 1) keptLater fun tracee member =>
          servable tracee (List.mem_cons_of_mem _ member)
        refine ⟨after :: afters, .cons served later, max first enough, fun words large => ?_⟩
        have seccomp := (isSeccomp_iff report.change).mpr stopped
        simp only [PackedFiles.serve, going, ne_eq, not_true_eq_false, if_false, seccomp,
          Bool.not_true, Bool.false_eq_true, whole, called words (by omega), ran words (by omega)]
        rfl
      · have here : stops (report :: rest) = stops rest := by
          rw [stops, beforeEnd_going ends, List.filter_cons_of_neg (by simpa using stopped), stops]
        rw [here] at servable ⊢
        obtain ⟨afters, later, enough, ran⟩ := ih (pass + 1) keptLater servable
        refine ⟨afters, later, enough, fun words large => ?_⟩
        have other : (wait report.change.status).isSeccomp = false := by
          rw [Bool.eq_false_iff, ne_eq, isSeccomp_iff]
          exact stopped
        simp only [PackedFiles.serve, going, ne_eq, not_true_eq_false, if_false, other, Bool.not_false,
          if_true, whole, ran words large]

end Stop

/-! ## From the recorded files to the session -/

/-- The packed directory has the copies and the file map of a run of `pack`. -/
structure Carries (parseMap : Bytes → Option FileMap) (tree : Tree) (copied : CopyLoop) : Prop where
  copies : ∀ name bytes, copied.entries name = some bytes →
    ([kPackedDataPath, name], .file bytes) ∈ tree.entries
  map : ∃ text, ([kReplayFileMapConfigName], .file text) ∈ tree.entries ∧
    parseMap text = some copied.replayMap

section Reproducer

variable {parseConfig : Bytes → Option ReplayConfig} {parseMap : Bytes → Option FileMap}
  {opts : LaunchOptions} {tree : Tree} {system : CopySystem} {executable : Bytes}
  {recordFiles : List Bytes} {copied : CopyLoop} {unpacked : FileSystem} {output : Path}

/-- The file map of an unpacked directory is the one that was packed. -/
theorem launch_map (carries : Carries parseMap tree copied) (below : tree.Below unpacked output)
    {launch : PackedLaunch}
    (launched : packedLaunch parseConfig parseMap opts unpacked output = some launch) :
    launch.replayFileMap = copied.replayMap := by
  obtain ⟨text, listed, parsed⟩ := carries.map
  have stored : unpacked.content (output ++ [kReplayFileMapConfigName]) = some text := by
    rw [FileSystem.content, (below.2 _ (List.cons_ne_nil _ _) _).mpr listed]
  simp only [packedLaunch, stored, parsed, Option.bind_eq_bind, Option.bind_eq_some_iff,
    Option.bind_some, Option.pure_def, Option.some.injEq] at launched
  obtain ⟨config, -, mode, -, _, -, command, -, arguments, -, openCL, -, levelZero, -, cuda, -,
    rocm, -, same⟩ := launched
  rw [← same]

/-- The copy of the executable is there from the start. -/
theorem executable_entry (ran : packCopies system executable recordFiles = .ok copied) :
    ∃ bytes, copied.entries (str "0") = some bytes ∧
      system.content copied.entries executable = some bytes := by
  rw [← List.nil_append recordFiles] at ran
  obtain ⟨before, first, grows⟩ := packCopies_front recordFiles ran
  obtain ⟨kept, items⟩ := packCopies_nil first
  obtain ⟨bytes, held, known⟩ := kept.held _ ((items _).mpr rfl)
  have name : cString (str "0") = str "0" := by decide
  rw [name] at held
  exact ⟨bytes, grows _ _ held, grows.content known⟩

theorem Carries.copy (carries : Carries parseMap tree copied) (below : tree.Below unpacked output)
    {name bytes : Bytes} (held : copied.entries name = some bytes) :
    unpacked.lookup (output ++ [kPackedDataPath, name]) = some (.file bytes) :=
  (below.2 _ (List.cons_ne_nil _ _) _).mpr (carries.copies name bytes held)

/-- An unpacked directory has the copies. -/
theorem hasCopies_of_run (ran : packCopies system executable recordFiles = .ok copied)
    (carries : Carries parseMap tree copied) (below : tree.Below unpacked output) :
    HasCopies unpacked (output ++ [kPackedDataPath]) copied.replayMap
      (system.content copied.entries) := by
  constructor
  · obtain ⟨bytes, held, -⟩ := executable_entry ran
    apply unpacked.closed _ (str "0")
    rw [List.append_assoc, List.singleton_append, carries.copy below held]
    exact Option.some_ne_none _
  · intro item member
    obtain ⟨bytes, held, known⟩ := (kept_of_run ran).held item member
    refine ⟨tree.valid _ (carries.copies _ _ held) _ (by simp), bytes, known, ?_⟩
    rw [List.append_assoc, List.singleton_append, carries.copy below held]

end Reproducer

/-- Unpacking the archive of a packed directory succeeds, with the bytes of the executable in its
copy; and in every session of `replay` that the tracer can serve and that does not kill the tracee in a
stop, on the map that it reads from the unpacked directory, the program is shown the recorded bytes
wherever it asks for an unambiguous key. -/
theorem reproducer_serves (zstd : Zstd) (parseConfig : Bytes → Option ReplayConfig)
    (parseMap : Bytes → Option FileMap) (opts : LaunchOptions) (system : CopySystem)
    (executable : Bytes) (recordFiles : List Bytes) (copied : CopyLoop)
    (ran : packCopies system executable recordFiles = .ok copied) (tree : Tree)
    (carries : Carries parseMap tree copied) (source : FileSystem) (tracePath : Path)
    (below : tree.Below source tracePath) (listing : tree.Listing) (target : FileSystem)
    (archive output : Path)
    (stored : target.lookup archive =
      some (.file (pack zstd source tracePath (listing.items.map Prod.fst))))
    (absent : target.lookup output = none)
    (parent : target.lookup output.dropLast = some .directory)
    (fuel : ℕ) (enough : tree.entries.length < fuel) :
    ∃ mapIt unpacked, unpack zstd fuel archive output target = some (.ok (mapIt, unpacked)) ∧
      (∃ bytes, system.content copied.entries executable = some bytes ∧
        unpacked.content (packedExecutable output) = some bytes) ∧
      ∀ launch, packedLaunch parseConfig parseMap opts unpacked output = some launch →
        ∀ basePath, basePath ≠ [] → 0 ∉ basePath →
          (∀ item ∈ launch.replayFileMap.items,
            (packedCopy basePath item.2).length < PATH_MAX.toNat) →
          ∀ stale reports, NeverKilled reports → (∀ tracee ∈ stops reports, Servable tracee) →
            ∃ afters, List.Forall₂ (Served ⟨basePath, launch.replayFileMap⟩ unpacked
                (output ++ [kPackedDataPath]) (system.content copied.entries)) (stops reports) afters ∧
              ∃ words, ∀ more, words ≤ more →
                PackedFiles.serve ⟨basePath, launch.replayFileMap⟩ more stale 0 reports =
                  some (.ok afters) := by
  obtain ⟨unpacked, ended, restored⟩ := unpack_archive zstd tree source tracePath below listing target
    archive output stored absent parent fuel enough
  refine ⟨_, unpacked, ended, ?_, fun launch launched basePath nonempty noNul short stale reports
    kept servable => ?_⟩
  · obtain ⟨bytes, held, known⟩ := executable_entry ran
    refine ⟨bytes, known, ?_⟩
    rw [packedExecutable, FileSystem.content, carries.copy restored.below held]
  · have has := hasCopies_of_run ran carries restored.below
    rw [← launch_map carries restored.below launched] at has
    exact serve_served has nonempty noNul short stale reports 0 kept servable

/-! ## A program that opens its own executable -/

def appSystem : CopySystem where
  inPack _ := none
  elsewhere path := if path = str "/bin/app" then some (str "app") else none
  copies _ := true

def appCopied : CopyLoop where
  counter := 1
  replayMap := sampleMap
  entries := Function.update (fun _ => none) (str "0") (some (str "app"))
  targets := [str "0"]

private theorem appCopied_carried : Carries (parseOnly sampleMapText sampleMap) packedTree appCopied where
  copies name bytes held := by
    change Function.update (fun _ => none) (str "0") (some (str "app")) name = some bytes at held
    rcases eq_or_ne name (str "0") with rfl | other
    · rw [Function.update_self] at held
      obtain rfl := Option.some.inj held
      decide
    · rw [Function.update_of_ne other] at held
      cases held
  map := ⟨sampleMapText, by decide, if_pos rfl⟩

/-- A stop of `openat` with the path at `0x1000` and the stack pointer at `0x8000`. -/
def openingTracee (path : Bytes) : Tracee where
  memory := blankTracee.memory.store 0x1000 (path ++ [0])
  user offset :=
    if offset = longSize * ORIG_RAX then 257 else if offset = longSize * RSI then 0x1000 else 0x8000

theorem openingTracee_holds {path : Bytes} (noNul : 0 ∉ path) (short : path.length < 2 ^ 63) :
    HoldsString (openingTracee path).memory ((openingTracee path).user (longSize * RSI)) path := by
  refine ⟨noNul, holdsBytes_store ?_⟩
  rw [List.length_append, List.length_singleton]
  omega

theorem openingTracee_mapped (path : Bytes) (address : UInt64) :
    ((openingTracee path).memory address).isSome = true := by
  have blank : (blankTracee.memory address).isSome = true := rfl
  exact store_isSome blank

theorem openingTracee_servable {path : Bytes} (noNul : 0 ∉ path) (short : path.length < 2 ^ 63) :
    Servable (openingTracee path) where
  readable reg asked := by
    obtain rfl : longSize * RSI = reg := Option.some.inj asked
    exact ⟨_, openingTracee_holds noNul short, fun _ _ => openingTracee_mapped _ _⟩
  room distance positive inside := by
    change distance ≤ 4224 at inside
    have position : ((openingTracee path).user (longSize * RSP)).toNat = 0x8000 := rfl
    refine ⟨UInt64.ofNat (0x8000 - distance), ?_, openingTracee_mapped _ _⟩
    rw [position, UInt64.toNat_ofNat']
    omega

theorem target_outPack {unpacked : FileSystem}
    (directory : unpacked.lookup [str "out"] = some .directory) :
    unpacked.target [] (str "out/pack") = some [str "out", kPackedDataPath] := by
  have path : str "out/pack" = joinPath [str "out", kPackedDataPath] := by decide
  rw [path]
  exact unpacked.target_joinPath [] (List.cons_ne_nil _ _) (by decide) directory

/-- The program opens its executable. -/
def openingReports : List Report := [⟨.seccompStop, openingTracee (str "/bin/app"), none⟩]

private theorem openingReports_kept : NeverKilled openingReports := by
  intro report member
  obtain rfl := List.mem_singleton.mp member
  rfl

theorem reproducer_serves_app :
    ∃ mapIt unpacked launch after words,
      unpack storedFrames 6 [str "t.pack"] [str "out"] archiveDisk.files =
        some (.ok (mapIt, unpacked)) ∧
      packedLaunch (parseOnly sampleConfigText sampleConfig) (parseOnly sampleMapText sampleMap)
        sampleOptions unpacked [str "out"] = some launch ∧
      PackedFiles.serve ⟨str "out/pack", launch.replayFileMap⟩ words (fun _ _ => 0) 0
        openingReports = some (.ok [after]) ∧
      PointsToFile unpacked [] after (longSize * RSI) (str "app") := by
  obtain ⟨unpacked, ended, restored⟩ := unpack_archive storedFrames packedTree packedFiles
    [str "trace"] packedTree_below packedListing archiveDisk.files [str "t.pack"] [str "out"]
    archive_stored (by decide) (by decide) 6 (by decide)
  obtain ⟨mapIt, other, same, -, serves⟩ := reproducer_serves storedFrames
    (parseOnly sampleConfigText sampleConfig) (parseOnly sampleMapText sampleMap) sampleOptions
    appSystem (str "/bin/app") [] appCopied rfl packedTree appCopied_carried packedFiles
    [str "trace"] packedTree_below packedListing archiveDisk.files [str "t.pack"] [str "out"]
    archive_stored (by decide) (by decide) 6 (by decide)
  obtain ⟨rfl, rfl⟩ := Prod.mk.inj (Except.ok.inj (Option.some.inj (ended.symm.trans same)))
  have launches : (packedLaunch (parseOnly sampleConfigText sampleConfig)
      (parseOnly sampleMapText sampleMap) sampleOptions unpacked [str "out"]).isSome = true := by
    rw [← packedLaunch_eq _ _ _ packedTree_below restored.below]
    decide +kernel
  obtain ⟨launch, launched⟩ := Option.isSome_iff_exists.mp launches
  have map : launch.replayFileMap = sampleMap := launch_map appCopied_carried restored.below launched
  obtain ⟨afters, served, words, ran⟩ := serves launch launched (str "out/pack") (by decide)
    (by decide) (by rw [map]; decide) (fun _ _ => 0) openingReports openingReports_kept
    fun tracee member => by
      obtain rfl := List.mem_singleton.mp member
      exact openingTracee_servable (by decide) (by decide)
  obtain ⟨after, others, shown, nothing, rfl⟩ := List.forall₂_cons_left_iff.mp served
  obtain rfl : others = [] := List.forall₂_nil_left_iff.mp nothing
  refine ⟨_, unpacked, launch, after, words, ended, launched, ran words le_rfl, ?_⟩
  have leads := target_outPack restored.directory
  obtain ⟨bytes, known, shows⟩ := shown.recorded (longSize * RSI) (str "/bin/app") (by decide)
    (openingTracee_holds (by decide) (by decide)) (by rw [map]; decide)
    (fun library => absurd library (by decide)) [] leads
  obtain rfl : str "app" = bytes := Option.some.inj known
  exact shows

end DpcppTrace.Soundness
