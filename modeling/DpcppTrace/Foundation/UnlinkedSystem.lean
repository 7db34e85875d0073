import DpcppTrace.Foundation.LinkedSystem

/-! # File systems without links

A file system of directories and files is one with symbolic links in which there are none and which
refuses nothing. Path strings end at the same places in both, and the system calls do the same.
-/

namespace DpcppTrace.Foundation

def Entry.node : Entry → Node
  | .directory => .directory
  | .file content => .file content

theorem LinkedSystem.eq_of_node {fs other : LinkedSystem} (same : fs.node = other.node)
    (refuses : fs.refuses = other.refuses) : fs = other := by
  cases fs
  cases other
  cases same
  cases refuses
  rfl

namespace FileSystem

/-- The same directories and files. -/
def linked (fs : FileSystem) : LinkedSystem where
  node place := (fs.lookup place).map Entry.node
  refuses _ _ _ := false
  root := by
    rw [fs.root]
    rfl
  closed parent name present := by
    rw [fs.closed parent name (fun absent => present (by rw [absent]; rfl))]
    rfl

section Nodes

variable {fs : FileSystem} {place : Path}

theorem node_linked (fs : FileSystem) (place : Path) :
    fs.linked.node place = (fs.lookup place).map Entry.node := rfl

@[simp] theorem refuses_linked (nodes : Path → Option Node) (text : Bytes) (place : Path) :
    fs.linked.refuses nodes text place = false := rfl

theorem node_linked_directory :
    fs.linked.node place = some .directory ↔ fs.lookup place = some .directory := by
  rw [node_linked]
  rcases fs.lookup place with _ | _ | content <;> simp [Entry.node]

theorem node_linked_absent : fs.linked.node place = none ↔ fs.lookup place = none := by
  rw [node_linked, Option.map_eq_none_iff]

theorem linked_put (fs : FileSystem) (path : Path) (entry : Entry) :
    (fs.put path entry).linked = fs.linked.put path entry.node := by
  refine LinkedSystem.eq_of_node ?_ (LinkedSystem.refuses_put fs.linked path entry.node).symm
  rw [put, LinkedSystem.put]
  by_cases fits : path ≠ [] ∧ fs.lookup path.dropLast = some .directory ∧ fs.lookup path ≠ some .directory
  · rw [dif_pos fits, dif_pos ⟨fits.1, node_linked_directory.mpr fits.2.1,
      fun directory => fits.2.2 (node_linked_directory.mp directory)⟩]
    funext query
    change (if query = path then some entry else fs.lookup query).map Entry.node =
      if query = path then some entry.node else fs.linked.node query
    split <;> rfl
  · rw [dif_neg fits, dif_neg fun other => fits ⟨other.1, node_linked_directory.mp other.2.1,
      fun directory => other.2.2 (node_linked_directory.mpr directory)⟩]

end Nodes

/-! ## Where path strings end -/

section Endings

variable {fs : FileSystem} {location place : Path} {names : List Bytes}

theorem directory_of_walk (came : fs.walk location names = some place) :
    fs.lookup place = some .directory := by
  obtain ⟨all, rfl⟩ := walk_eq_some_iff.mp came
  exact all names List.prefix_rfl

private theorem walk_of_missing (missing : fs.lookup location ≠ some .directory) :
    fs.walk location names = none := by
  cases names with
  | nil => rw [walk, if_neg missing]
  | cons name rest => rw [walk, if_neg missing]

/-- The end of a path whose last component is looked up in a directory. -/
def ending (fs : FileSystem) (last : Bytes) (parent : Path) : Ending :=
  if last = str "." then .reached parent
  else if last = str ".." then .reached parent.dropLast
  else if fs.lookup (parent ++ [last]) = some .directory then .reached (parent ++ [last])
  else .named parent last

/-- All components but the last one are walked, whatever is to be done at links. -/
private theorem follow_linked (followed : Bool) (next : Path → List Bytes → Option Ending)
    (here : fs.lookup location = some .directory) (front : List Bytes) (last : Bytes) :
    fs.linked.follow followed next location (front ++ [last]) =
      (fs.walk location front).map (fs.ending last) := by
  induction front generalizing location with
  | nil =>
    rw [walk, if_pos here, List.nil_append, LinkedSystem.follow, Option.map_some, ending]
    by_cases dot : last = str "."
    · rw [if_pos dot, if_pos dot]
      rfl
    by_cases up : last = str ".."
    · rw [if_neg dot, if_neg dot, if_pos up, if_pos up]
      rfl
    rw [if_neg dot, if_neg dot, if_neg up, if_neg up, node_linked]
    rcases fs.lookup (location ++ [last]) with _ | _ | content <;> rfl
  | cons name rest ih =>
    have goesOn : rest ++ [last] ≠ [] := by simp
    rw [walk, if_pos here, List.cons_append, LinkedSystem.follow]
    by_cases dot : name = str "."
    · rw [if_pos dot, if_pos dot]
      exact ih here
    by_cases up : name = str ".."
    · rw [if_neg dot, if_neg dot, if_pos up, if_pos up]
      exact ih (node_linked_directory.mp
        (fs.linked.dropLast_directory (node_linked_directory.mpr here)))
    rw [if_neg dot, if_neg dot, if_neg up, if_neg up, node_linked]
    rcases found : fs.lookup (location ++ [name]) with _ | _ | content
    · rw [walk_of_missing (by simp [found])]
      exact if_neg goesOn
    · exact ih found
    · rw [walk_of_missing (by simp [found])]
      exact if_neg goesOn

theorem namei_linked (followed : Bool) (links : ℕ) (here : fs.lookup location = some .directory)
    (front : List Bytes) (last : Bytes) :
    fs.linked.namei followed links location (front ++ [last]) =
      (fs.walk location front).map (fs.ending last) := by
  cases links with
  | zero => exact follow_linked followed _ here front last
  | succ links => exact follow_linked followed _ here front last

theorem walk_append (front : List Bytes) :
    fs.walk location (front ++ names) =
      (fs.walk location front).bind fun middle => fs.walk middle names := by
  apply Option.ext
  intro place
  simp only [Option.bind_eq_some_iff, walk_eq_some_iff, follow_append]
  constructor
  · rintro ⟨all, leads⟩
    refine ⟨follow location front, ⟨fun before short => all before ?_, rfl⟩, fun before short => ?_,
      leads⟩
    · exact short.trans (List.prefix_append front names)
    · rw [← follow_append]
      exact all _ ((List.prefix_append_right_inj front).mpr short)
  · rintro ⟨middle, ⟨first, rfl⟩, later, leads⟩
    refine ⟨fun before short => ?_, leads⟩
    rcases List.prefix_or_prefix_of_prefix short (List.prefix_append front names) with inside | ⟨more, rfl⟩
    · exact first before inside
    · rw [follow_append]
      exact later more ((List.prefix_append_right_inj front).mp short)

/-- The directory at a path of ordinary names is reached. -/
theorem namei_linked_directory (followed : Bool) (links : ℕ) (valid : ∀ name ∈ place, ValidName name)
    (here : fs.lookup place = some .directory) :
    fs.linked.namei followed links [] place = some (.reached place) := by
  rcases List.eq_nil_or_concat place with rfl | ⟨front, last, rfl⟩
  · cases links <;> rfl
  · rw [List.concat_eq_append] at valid here ⊢
    have parent : fs.lookup front = some .directory := fs.closed front last (by simp [here])
    have lastValid := valid last (by simp)
    have walked := fs.walk_valid [] front (fun name member => valid name (by simp [member])) parent
    rw [namei_linked followed links fs.root, walked, Option.map_some, ending, List.nil_append,
      if_neg lastValid.notDot, if_neg lastValid.notDotDot, if_pos here]

end Endings

/-! ## The system calls -/

section Calls

variable {fs : FileSystem} {base : Path}

/-- Where the components of a path string are looked up from the root, and from the directory that the
string starts in. -/
private theorem namei_linked_behind (followed : Bool) (valid : ∀ name ∈ base, ValidName name)
    (here : fs.lookup base = some .directory) (text : Bytes) (front : List Bytes) (last : Bytes) :
    fs.linked.namei followed maxLinks [] (behind base text (front ++ [last])) =
      (fs.walk (startOf base text) front).map (fs.ending last) := by
  rw [behind, startOf]
  split_ifs with absolute
  · exact namei_linked followed maxLinks fs.root front last
  · have walked : fs.walk [] base = some base := fs.walk_valid [] base valid here
    rw [← List.append_assoc, namei_linked followed maxLinks fs.root, walk_append, walked, Option.bind_some]

/-- Without components, a path string leads to where it starts. -/
private theorem namei_linked_start (followed : Bool) (valid : ∀ name ∈ base, ValidName name)
    (here : fs.lookup base = some .directory) (text : Bytes) :
    fs.linked.namei followed maxLinks [] (behind base text []) = some (.reached (startOf base text)) := by
  rw [behind, startOf]
  split_ifs
  · rfl
  · rw [List.append_nil]
    exact namei_linked_directory followed maxLinks valid here

private theorem lookup_startOf (here : fs.lookup base = some .directory) (text : Bytes) :
    fs.lookup (startOf base text) = some .directory := by
  rw [startOf]
  split_ifs
  · exact fs.root
  · exact here

/-- What is at the end of a path is made a directory if nothing is there. -/
private theorem makeDirectory_ending {last : Bytes} {parent : Path} {names : List Bytes}
    (here : fs.lookup parent = some .directory)
    (came : ∀ followed, fs.linked.namei followed maxLinks [] names = some (fs.ending last parent))
    (text : Bytes) : fs.linked.makeDirectory text names = (fs.mkdir (if last = str "." then parent
      else if last = str ".." then parent.dropLast else parent ++ [last])).map linked := by
  rw [LinkedSystem.makeDirectory, came, mkdir, ending]
  by_cases dot : last = str "."
  · rw [if_pos dot, if_pos dot, here]
    rfl
  by_cases up : last = str ".."
  · have above : fs.lookup parent.dropLast = some .directory :=
      node_linked_directory.mp (fs.linked.dropLast_directory (node_linked_directory.mpr here))
    rw [if_neg dot, if_neg dot, if_pos up, if_pos up, above]
    rfl
  rw [if_neg dot, if_neg dot, if_neg up, if_neg up]
  rcases found : fs.lookup (parent ++ [last]) with _ | _ | content
  · rw [if_neg (by simp)]
    simp only [refuses_linked, Bool.false_eq_true, if_false, node_linked_absent.mpr found, if_true,
      List.dropLast_concat, here, Option.map_some, linked_put]
    rfl
  · rfl
  · have other : fs.linked.node (parent ++ [last]) = some (.file content) := by
      rw [node_linked, found]
      rfl
    have looked : fs.linked.lookup names = some (.file content) := by
      rw [LinkedSystem.lookup, came, ending, if_neg dot, if_neg up, found, if_neg (by simp)]
      simp only [other]
    rw [if_neg (by simp)]
    simp [other, looked]

theorem createDirectory_linked (valid : ∀ name ∈ base, ValidName name)
    (here : fs.lookup base = some .directory) (text : Bytes) :
    fs.linked.createDirectory base text = (fs.createDirectory base text).map linked := by
  have start := lookup_startOf here text
  rw [LinkedSystem.createDirectory, createDirectory, target, ← startOf]
  rcases List.eq_nil_or_concat (components (cString text)) with none | ⟨front, last, split⟩
  · rw [none, LinkedSystem.makeDirectory, namei_linked_start false valid here]
    simp [walk, start, mkdir]
  · rw [List.concat_eq_append] at split
    simp only [split, List.getLast?_concat, List.dropLast_concat]
    have came followed := namei_linked_behind followed valid here text front last
    cases walked : fs.walk (startOf base text) front with
    | none =>
      rw [LinkedSystem.makeDirectory, came, walked]
      rfl
    | some parent =>
      rw [Option.map_some, Option.bind_some]
      refine makeDirectory_ending (directory_of_walk walked) (fun followed => ?_) text
      rw [came, walked, Option.map_some]

/-- Behind a last slash nothing is written. -/
private theorem writeFile_slashed {text : Bytes} (slashed : (cString text).getLast? = some slash)
    (content : Bytes) : fs.writeFile base text content = fs := by
  rw [writeFile]
  split
  · rfl
  · exact if_pos (.inr slashed)

theorem writeFile_linked (valid : ∀ name ∈ base, ValidName name)
    (here : fs.lookup base = some .directory) (text content : Bytes) :
    fs.linked.writeFile base text content = (fs.writeFile base text content).linked := by
  have start := lookup_startOf here text
  rw [LinkedSystem.writeFile, linkNames]
  by_cases slashed : (cString text).getLast? = some slash
  · rw [writeFile_slashed slashed, if_pos slashed, namei_linked_behind true valid here]
    cases fs.walk (startOf base text) (components (cString text)) <;> rfl
  rw [if_neg slashed, List.append_nil, writeFile, target, ← startOf]
  rcases List.eq_nil_or_concat (components (cString text)) with none | ⟨front, last, split⟩
  · rw [none, namei_linked_start true valid here]
    simp [walk, start]
  rw [List.concat_eq_append] at split
  simp only [split, List.getLast?_concat, List.dropLast_concat, slashed, or_false]
  rw [namei_linked_behind true valid here]
  cases walked : fs.walk (startOf base text) front with
  | none => rfl
  | some parent =>
    have inside := directory_of_walk walked
    have above : fs.lookup parent.dropLast = some .directory :=
      node_linked_directory.mp (fs.linked.dropLast_directory (node_linked_directory.mpr inside))
    simp only [Option.map_some, ending]
    by_cases dot : last = str "."
    · rw [if_pos dot, if_pos dot, if_pos inside]
    by_cases up : last = str ".."
    · rw [if_neg dot, if_neg dot, if_pos up, if_pos up, if_pos above]
    rw [if_neg dot, if_neg dot, if_neg up, if_neg up]
    by_cases directory : fs.lookup (parent ++ [last]) = some .directory
    · rw [if_pos directory, if_pos directory]
    · rw [if_neg directory, if_neg directory, linked_put]
      exact if_neg (by simp)

/-- Ordinary names lead to no other directory than theirs. -/
private theorem walk_lost {path : Path} (valid : ∀ name ∈ path, ValidName name)
    (missing : fs.lookup path ≠ some .directory) : fs.walk [] path = none := by
  rw [Option.eq_none_iff_forall_ne_some]
  intro place came
  obtain ⟨-, rfl⟩ := walk_eq_some_iff.mp came
  rw [follow_valid [] valid] at came
  exact missing (directory_of_walk came)

theorem lookup_linked {path : Path} (valid : ∀ name ∈ path, ValidName name) :
    fs.linked.lookup path = fs.lookup path := by
  rw [LinkedSystem.lookup]
  rcases List.eq_nil_or_concat path with rfl | ⟨front, last, rfl⟩
  · rw [namei_linked_directory true maxLinks valid fs.root, fs.root]
  · rw [List.concat_eq_append] at valid ⊢
    have lastValid := valid last (by simp)
    rw [namei_linked true maxLinks fs.root]
    by_cases parent : fs.lookup front = some .directory
    · rw [fs.walk_valid [] front (fun name member => valid name (by simp [member])) parent,
        Option.map_some, ending, List.nil_append, if_neg lastValid.notDot, if_neg lastValid.notDotDot]
      rcases found : fs.lookup (front ++ [last]) with _ | _ | content
      · simp [node_linked, found]
      · rfl
      · simp [node_linked, found, Entry.node]
    · have absent : fs.lookup (front ++ [last]) = none :=
        not_not.mp fun present => parent (fs.closed front last present)
      rw [walk_lost (fun name member => valid name (by simp [member])) parent, absent]
      rfl

theorem mkdir_linked {path : Path} (valid : ∀ name ∈ path, ValidName name) :
    fs.linked.mkdir path = (fs.mkdir path).map linked := by
  rcases List.eq_nil_or_concat path with rfl | ⟨front, last, rfl⟩
  · rw [LinkedSystem.mkdir, LinkedSystem.makeDirectory,
      namei_linked_directory false maxLinks valid fs.root, mkdir, fs.root]
    rfl
  rw [List.concat_eq_append] at valid ⊢
  have lastValid := valid last (by simp)
  by_cases parent : fs.lookup front = some .directory
  · rw [LinkedSystem.mkdir, makeDirectory_ending parent, if_neg lastValid.notDot,
      if_neg lastValid.notDotDot]
    intro followed
    rw [namei_linked followed maxLinks fs.root,
      fs.walk_valid [] front (fun name member => valid name (by simp [member])) parent]
    rfl
  · have absent : fs.lookup (front ++ [last]) = none :=
      not_not.mp fun present => parent (fs.closed front last present)
    rw [LinkedSystem.mkdir, LinkedSystem.makeDirectory, namei_linked false maxLinks fs.root,
      walk_lost (fun name member => valid name (by simp [member])) parent, mkdir, absent,
      List.dropLast_concat, if_neg parent]
    rfl

/-! ## What stays -/

private theorem directory_put {place : Path} (here : fs.lookup place = some .directory) (path : Path)
    (entry : Entry) : (fs.put path entry).lookup place = some .directory := by
  by_cases fits : path ≠ [] ∧ fs.lookup path.dropLast = some .directory ∧ fs.lookup path ≠ some .directory
  · rw [lookup_put fits.1 fits.2.1 fits.2.2, if_neg, here]
    rintro rfl
    exact fits.2.2 here
  · rwa [put, dif_neg fits]

theorem directory_createDirectory {place : Path} (here : fs.lookup place = some .directory) {text : Bytes}
    {after : FileSystem} (made : fs.createDirectory base text = some after) :
    after.lookup place = some .directory := by
  obtain ⟨path, -, made⟩ := Option.bind_eq_some_iff.mp made
  rw [mkdir] at made
  split at made
  · obtain rfl := Option.some.inj made
    exact here
  · cases made
  · split_ifs at made
    obtain rfl := Option.some.inj made
    exact directory_put here path .directory

theorem directory_writeFile {place : Path} (here : fs.lookup place = some .directory) (text content : Bytes) :
    (fs.writeFile base text content).lookup place = some .directory := by
  rw [writeFile]
  split
  · exact here
  · split_ifs
    · exact here
    · exact directory_put here _ _

end Calls

end FileSystem

end DpcppTrace.Foundation
