import DpcppTrace.Foundation.Bytes
import Mathlib.Data.List.Infix
import Mathlib.Data.List.TakeWhile
import Mathlib.Tactic.Common

/-! # Directories, regular files and path strings

A file system maps absolute component lists to entries; everything that exists lies in an
existing directory, so a value that breaks this cannot be built. Path strings are resolved the
way system calls do: they end at the first NUL, a leading slash starts at the root, empty and `.`
components stay, `..` goes up, and every component but the last has to name a directory. A tree
is the finite content of one directory, addressed by relative paths.
-/

namespace DpcppTrace.Foundation

/-- A list of components, from the root or from some directory. -/
abbrev Path := List Bytes

inductive Entry where
  | directory
  | file (content : Bytes)
deriving DecidableEq, Repr

/-- Everything that exists lies in a directory that exists. -/
structure FileSystem where
  lookup : Path → Option Entry
  root : lookup [] = some .directory
  closed : ∀ parent name, lookup (parent ++ [name]) ≠ none → lookup parent = some .directory

/-- The path separator. -/
def slash : UInt8 := 0x2f

/-- A component that names an entry of its directory. -/
structure ValidName (name : Bytes) : Prop where
  nonempty : name ≠ []
  noSlash : slash ∉ name
  noNul : 0 ∉ name
  notDot : name ≠ str "."
  notDotDot : name ≠ str ".."

instance (name : Bytes) : Decidable (ValidName name) :=
  decidable_of_iff
    (name ≠ [] ∧ slash ∉ name ∧ 0 ∉ name ∧ name ≠ str "." ∧ name ≠ str "..")
    ⟨fun ⟨nonempty, noSlash, noNul, notDot, notDotDot⟩ =>
        ⟨nonempty, noSlash, noNul, notDot, notDotDot⟩,
      fun valid => ⟨valid.nonempty, valid.noSlash, valid.noNul, valid.notDot, valid.notDotDot⟩⟩

/-- `path.string()` of a relative path. -/
def joinPath (path : Path) : Bytes := [slash].intercalate path

/-- What a system call sees of a path string. -/
def cString (text : Bytes) : Bytes := text.takeWhile (· != 0)

def components (text : Bytes) : List Bytes := (text.splitOn slash).filter (· != [])

/-- `std::filesystem::path::filename`: what stands behind the last slash. -/
def filename (text : Bytes) : Bytes := (text.splitOn slash).getLast?.getD []

theorem filename_suffix (text : Bytes) : filename text <:+ text := by
  induction text with
  | nil => exact List.nil_suffix
  | cons c text ih =>
    obtain ⟨first, rest, pieces⟩ := List.exists_cons_of_ne_nil (List.splitOn_ne_nil slash text)
    rw [filename] at ih
    rw [filename, List.splitOn_cons_eq_if_modifyHead]
    split
    · rw [pieces, List.getLast?_cons_cons, ← pieces]
      exact ih.trans (List.suffix_cons c text)
    · rw [pieces, List.modifyHead_cons]
      rw [pieces] at ih
      cases rest with
      | nil =>
        have whole : text = first := by
          have joined : [slash].intercalate (text.splitOn slash) = text :=
            List.intercalate_splitOn slash
          rw [pieces] at joined
          simpa [List.intercalate] using joined.symm
        rw [whole]
        exact List.suffix_rfl
      | cons next rest =>
        rw [List.getLast?_cons_cons] at ih ⊢
        exact ih.trans (List.suffix_cons c text)

/-- `std::filesystem::path::stem`: the file name up to its last dot, unless it starts with that. -/
def stem (text : Bytes) : Bytes :=
  let name := filename text
  let front := ((name.reverse.dropWhile (· != 0x2e)).drop 1).reverse
  if name = str ".." ∨ front = [] then name else front

theorem components_joinPath {path : Path} (nonempty : path ≠ [])
    (valid : ∀ name ∈ path, ValidName name) : components (joinPath path) = path := by
  rw [components, joinPath, List.splitOn_intercalate slash (fun name member => (valid name member).noSlash)
    nonempty, List.filter_eq_self]
  intro name member
  simpa using (valid name member).nonempty

private theorem mem_intercalate {byte : UInt8} {path : Path} (member : byte ∈ joinPath path) :
    byte = slash ∨ ∃ name ∈ path, byte ∈ name := by
  induction path with
  | nil => simp [joinPath] at member
  | cons name rest ih =>
    cases rest with
    | nil => exact .inr ⟨name, List.mem_cons_self .., by simpa [joinPath] using member⟩
    | cons next rest =>
      rw [joinPath, List.intercalate_cons_cons, List.mem_append, List.mem_append] at member
      rcases member with (inHead | inSlash) | inRest
      · exact .inr ⟨name, List.mem_cons_self .., inHead⟩
      · exact .inl (List.mem_singleton.mp inSlash)
      · exact (ih inRest).imp id fun ⟨other, present, found⟩ =>
          ⟨other, List.mem_cons_of_mem _ present, found⟩

theorem cString_joinPath {path : Path} (valid : ∀ name ∈ path, ValidName name) :
    cString (joinPath path) = joinPath path := by
  apply List.takeWhile_eq_self_iff.mpr
  intro byte member
  rcases mem_intercalate member with rfl | ⟨name, present, found⟩
  · decide
  · have nonzero : byte ≠ 0 := fun zero => (valid name present).noNul (zero ▸ found)
    simpa using nonzero

theorem head?_joinPath {path : Path} (valid : ∀ name ∈ path, ValidName name) :
    (joinPath path).head? ≠ some slash := by
  cases path with
  | nil => simp [joinPath]
  | cons name rest =>
    have here := valid name (List.mem_cons_self ..)
    obtain ⟨first, others, rfl⟩ := List.exists_cons_of_ne_nil here.nonempty
    have different : first ≠ slash := fun same => here.noSlash (by simp [same])
    cases rest with
    | nil => simpa [joinPath] using different
    | cons next rest => simpa [joinPath, List.intercalate_cons_cons] using different

theorem getLast?_joinPath {path : Path} (valid : ∀ name ∈ path, ValidName name) :
    (joinPath path).getLast? ≠ some slash := by
  induction path with
  | nil => simp [joinPath]
  | cons name rest ih =>
    cases rest with
    | nil =>
      have here := (valid name (List.mem_cons_self ..)).noSlash
      intro ends
      exact here (List.mem_of_getLast? (by simpa [joinPath] using ends))
    | cons next rest =>
      have here := valid next (by simp)
      have later := ih fun other member => valid other (List.mem_cons_of_mem name member)
      have nonempty : joinPath (next :: rest) ≠ [] := by
        cases rest with
        | nil => simpa [joinPath] using here.nonempty
        | cons => simp [joinPath, List.intercalate_cons_cons]
      rw [joinPath, List.intercalate_cons_cons, ← joinPath, List.getLast?_append_of_ne_nil _ nonempty]
      exact later

namespace FileSystem

/-- Every proper ancestor of something that exists is a directory. -/
theorem directory_of_present (fs : FileSystem) (base : Path) (name : Bytes) (below : Path)
    (present : fs.lookup (base ++ name :: below) ≠ none) : fs.lookup base = some .directory := by
  induction below using List.reverseRecOn with
  | nil => exact fs.closed base name present
  | append_singleton below last ih =>
    apply ih
    have split : base ++ name :: (below ++ [last]) = base ++ name :: below ++ [last] := by simp
    rw [split] at present
    rw [fs.closed _ _ present]
    exact Option.some_ne_none _

/-- Follow components downwards; each step has to start in a directory. -/
def walk (fs : FileSystem) : Path → List Bytes → Option Path
  | location, [] => if fs.lookup location = some .directory then some location else none
  | location, name :: rest =>
    if fs.lookup location = some .directory then
      if name = str "." then fs.walk location rest
      else if name = str ".." then fs.walk location.dropLast rest
      else fs.walk (location ++ [name]) rest
    else none

/-- The place a path string names, seen from the directory `base`. -/
def target (fs : FileSystem) (base : Path) (text : Bytes) : Option Path :=
  let text := cString text
  let start := if text.head? = some slash then [] else base
  match (components text).getLast? with
  | none => fs.walk start []
  | some last =>
    (fs.walk start (components text).dropLast).map fun parent =>
      if last = str "." then parent
      else if last = str ".." then parent.dropLast
      else parent ++ [last]

/-- Put an entry into an existing directory; directories are never replaced. -/
def put (fs : FileSystem) (path : Path) (entry : Entry) : FileSystem :=
  if fits : path ≠ [] ∧ fs.lookup path.dropLast = some .directory ∧ fs.lookup path ≠ some .directory
  then
    { lookup := fun query => if query = path then some entry else fs.lookup query
      root := by rw [if_neg (Ne.symm fits.1), fs.root]
      closed := by
        intro parent name present
        have outside : parent ≠ path := by
          rintro rfl
          apply fits.2.2
          have other : parent ++ [name] ≠ parent := by simp
          rw [if_neg other] at present
          exact fs.closed parent name present
        rw [if_neg outside]
        by_cases same : parent ++ [name] = path
        · rw [← fits.2.1, ← same, List.dropLast_concat]
        · rw [if_neg same] at present
          exact fs.closed parent name present }
  else fs

theorem lookup_put {fs : FileSystem} {path : Path} {entry : Entry} (nonempty : path ≠ [])
    (parent : fs.lookup path.dropLast = some .directory) (fresh : fs.lookup path ≠ some .directory)
    (query : Path) :
    (fs.put path entry).lookup query = if query = path then some entry else fs.lookup query := by
  rw [put, dif_pos ⟨nonempty, parent, fresh⟩]

/-- Create the directory at a resolved path unless it exists; `none` when that is an error. -/
def mkdir (fs : FileSystem) (path : Path) : Option FileSystem :=
  match fs.lookup path with
  | some .directory => some fs
  | some (.file _) => none
  | none =>
    if fs.lookup path.dropLast = some .directory then some (fs.put path .directory) else none

/-- `std::filesystem::create_directory`; `none` when it throws. -/
def createDirectory (fs : FileSystem) (base : Path) (text : Bytes) : Option FileSystem :=
  (fs.target base text).bind fs.mkdir

/-- `std::ofstream{path}` followed by a write and a close; a file that cannot be opened is
silently not written. -/
def writeFile (fs : FileSystem) (base : Path) (text content : Bytes) : FileSystem :=
  match fs.target base text with
  | none => fs
  | some path =>
    if fs.lookup path = some .directory ∨ (cString text).getLast? = some slash then fs
    else fs.put path (.file content)

/-- What can be read from a path. -/
def content (fs : FileSystem) (path : Path) : Option Bytes :=
  match fs.lookup path with
  | some (.file text) => some text
  | _ => none

/-- The second file system has one more entry than the first and agrees with it elsewhere. -/
def Adds (before after : FileSystem) (path : Path) (entry : Entry) : Prop :=
  ∀ query, after.lookup query = if query = path then some entry else before.lookup query

theorem mkdir_adds (fs : FileSystem) {path : Path}
    (parent : fs.lookup path.dropLast = some .directory) (fresh : fs.lookup path = none) :
    ∃ after, fs.mkdir path = some after ∧ fs.Adds after path .directory := by
  have nonempty : path ≠ [] := by
    rintro rfl
    simp [fs.root] at fresh
  refine ⟨fs.put path .directory, ?_, fs.lookup_put nonempty parent (by simp [fresh])⟩
  rw [mkdir, fresh]
  simp only [parent, if_true]

theorem adds_of_mkdir {fs after : FileSystem} {path : Path} (fresh : fs.lookup path = none)
    (made : fs.mkdir path = some after) : fs.Adds after path .directory := by
  have parent : fs.lookup path.dropLast = some .directory := by
    by_contra missing
    simp only [mkdir, fresh, if_neg missing] at made
    cases made
  obtain ⟨other, same, adds⟩ := fs.mkdir_adds parent fresh
  obtain rfl := Option.some.inj (made.symm.trans same)
  exact adds

/-- Ordinary names lead straight down. -/
theorem walk_valid (fs : FileSystem) (location : Path) (names : List Bytes)
    (valid : ∀ name ∈ names, ValidName name)
    (present : fs.lookup (location ++ names) = some .directory) :
    fs.walk location names = some (location ++ names) := by
  induction names generalizing location with
  | nil =>
    rw [List.append_nil] at present
    rw [walk, if_pos present, List.append_nil]
  | cons name rest ih =>
    have here := valid name (List.mem_cons_self ..)
    have start := fs.directory_of_present location name rest (by rw [present]; exact Option.some_ne_none _)
    have split : location ++ name :: rest = location ++ [name] ++ rest := by simp
    rw [walk, if_pos start, if_neg here.notDot, if_neg here.notDotDot, split]
    exact ih _ (fun other member => valid other (List.mem_cons_of_mem name member)) (split ▸ present)

/-- The path string of ordinary names resolves to the place they name. -/
theorem target_joinPath (fs : FileSystem) (base : Path) {path : Path} (nonempty : path ≠ [])
    (valid : ∀ name ∈ path, ValidName name)
    (parent : fs.lookup (base ++ path.dropLast) = some .directory) :
    fs.target base (joinPath path) = some (base ++ path) := by
  have lastValid := valid _ (List.getLast_mem nonempty)
  have walked := fs.walk_valid base path.dropLast
    (fun name member => valid name (List.dropLast_subset path member)) parent
  rw [target, cString_joinPath valid, components_joinPath nonempty valid,
    if_neg (head?_joinPath valid), List.getLast?_eq_some_getLast nonempty]
  simp only [walked, Option.map_some, if_neg lastValid.notDot, if_neg lastValid.notDotDot,
    List.append_assoc, List.dropLast_append_getLast]

theorem createDirectory_adds (fs : FileSystem) (base : Path) {path : Path} (nonempty : path ≠ [])
    (valid : ∀ name ∈ path, ValidName name)
    (parent : fs.lookup (base ++ path.dropLast) = some .directory)
    (fresh : fs.lookup (base ++ path) = none) :
    ∃ after, fs.createDirectory base (joinPath path) = some after ∧
      fs.Adds after (base ++ path) .directory := by
  rw [createDirectory, fs.target_joinPath base nonempty valid parent, Option.bind_some]
  exact fs.mkdir_adds (by rw [List.dropLast_append_of_ne_nil nonempty]; exact parent) fresh

theorem writeFile_adds (fs : FileSystem) (base : Path) {path : Path} (nonempty : path ≠ [])
    (valid : ∀ name ∈ path, ValidName name)
    (parent : fs.lookup (base ++ path.dropLast) = some .directory)
    (fresh : fs.lookup (base ++ path) = none) (content : Bytes) :
    fs.Adds (fs.writeFile base (joinPath path) content) (base ++ path) (.file content) := by
  have regular : ¬(fs.lookup (base ++ path) = some .directory ∨
      (cString (joinPath path)).getLast? = some slash) := by
    rw [fresh, cString_joinPath valid]
    exact not_or.mpr ⟨by simp, getLast?_joinPath valid⟩
  simp only [writeFile, fs.target_joinPath base nonempty valid parent, if_neg regular]
  apply fs.lookup_put (List.append_ne_nil_of_right_ne_nil _ nonempty)
  · rw [List.dropLast_append_of_ne_nil nonempty]
    exact parent
  · simp [fresh]

end FileSystem

/-- The execute bits of a mode. -/
structure ExecuteBits where
  owner : Bool
  group : Bool
  other : Bool
deriving DecidableEq

/-- How a user stands to a file. -/
inductive Standing where
  | owner | group | other | superuser
deriving DecidableEq

/-- The superuser needs any of the bits. -/
def ExecuteBits.allow (bits : ExecuteBits) : Standing → Bool
  | .owner => bits.owner
  | .group => bits.group
  | .other => bits.other
  | .superuser => bits.owner || bits.group || bits.other

/-- A file system with the execute bits of its files. -/
structure Disk where
  files : FileSystem
  bits : Path → ExecuteBits

def Disk.MayExecute (disk : Disk) (user : Standing) (path : Path) : Prop :=
  disk.files.content path ≠ none ∧ (disk.bits path).allow user = true

/-- After files were written through `std::ofstream`: those that are new get no execute bit, and the
others keep theirs. -/
def Disk.written (disk : Disk) (files : FileSystem) : Disk where
  files := files
  bits path := if disk.files.lookup path = none then ⟨false, false, false⟩ else disk.bits path

theorem Disk.not_mayExecute_written {disk : Disk} {files : FileSystem} {path : Path}
    (new : disk.files.lookup path = none) (user : Standing) :
    ¬(disk.written files).MayExecute user path := by
  rintro ⟨-, allowed⟩
  simp only [written, if_pos new] at allowed
  cases user <;> cases allowed

/-- The finite content of one directory: relative paths with distinct valid names, every entry
below an entry that is a directory. Sizes are those a 64-bit system can represent. -/
structure Tree where
  entries : List (Path × Entry)
  distinct : (entries.map Prod.fst).Nodup
  nonempty : ∀ item ∈ entries, item.1 ≠ []
  valid : ∀ item ∈ entries, ∀ name ∈ item.1, ValidName name
  parents : ∀ item ∈ entries, item.1.dropLast ≠ [] → (item.1.dropLast, Entry.directory) ∈ entries
  pathSized : ∀ item ∈ entries, (joinPath item.1).length < 2 ^ 64
  fileSized : ∀ item ∈ entries, ∀ content, item.2 = .file content → content.length < 2 ^ 63

/-- An iteration over a whole tree that visits each directory before its contents. -/
structure Tree.Listing (tree : Tree) where
  items : List (Path × Entry)
  complete : items.Perm tree.entries
  parentsFirst : ∀ index (inside : index < items.length), items[index].1.dropLast ≠ [] →
    (items[index].1.dropLast, Entry.directory) ∈ items.take index

theorem Tree.Listing.parent_mem {tree : Tree} (listing : tree.Listing) {before after : List (Path × Entry)}
    {item : Path × Entry} (split : listing.items = before ++ item :: after)
    (nested : item.1.dropLast ≠ []) : (item.1.dropLast, Entry.directory) ∈ before := by
  have inside : before.length < listing.items.length := by simp [split]
  have here : listing.items[before.length] = item := by simp [split]
  have first := listing.parentsFirst before.length inside
  rw [here] at first
  simpa [split] using first nested

/-- The tree is exactly what lies below `base`. -/
def Tree.Below (tree : Tree) (fs : FileSystem) (base : Path) : Prop :=
  fs.lookup base = some .directory ∧
    ∀ path, path ≠ [] → ∀ entry, fs.lookup (base ++ path) = some entry ↔ (path, entry) ∈ tree.entries

/-- A tree reads the same wherever it lies. -/
theorem Tree.Below.content_eq {tree : Tree} {first second : FileSystem} {base other : Path}
    (here : tree.Below first base) (there : tree.Below second other) {path : Path}
    (nonempty : path ≠ []) : first.content (base ++ path) = second.content (other ++ path) := by
  have same : first.lookup (base ++ path) = second.lookup (other ++ path) := by
    apply Option.ext
    intro entry
    rw [here.2 path nonempty, there.2 path nonempty]
  rw [FileSystem.content, FileSystem.content, same]

end DpcppTrace.Foundation
