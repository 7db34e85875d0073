import DpcppTrace.Foundation.FileSystem

/-! # Where path strings lead

Read lexically, every component of a path string is entered, except that empty ones and `.` stay and
`..` goes up. A system call comes to the same place, if all the directories on the way are there.
-/

namespace DpcppTrace.Foundation

/-- Where components lead from a location. -/
def follow : Path → List Bytes → Path
  | location, [] => location
  | location, name :: rest =>
    if name = str "." then follow location rest
    else if name = str ".." then follow location.dropLast rest
    else follow (location ++ [name]) rest

/-- Where a path string starts, seen from the directory `base`. -/
def startOf (base : Path) (text : Bytes) : Path :=
  if (cString text).head? = some slash then [] else base

/-- Where a path string leads, seen from the directory `base`. -/
def resolve (base : Path) (text : Bytes) : Path :=
  follow (startOf base text) (components (cString text))

theorem follow_append (location : Path) (front rest : List Bytes) :
    follow location (front ++ rest) = follow (follow location front) rest := by
  induction front generalizing location with
  | nil => rfl
  | cons name front ih =>
    simp only [List.cons_append, follow]
    split_ifs <;> exact ih _

theorem follow_valid (location : Path) {names : List Bytes} (valid : ∀ name ∈ names, ValidName name) :
    follow location names = location ++ names := by
  induction names generalizing location with
  | nil => rw [follow, List.append_nil]
  | cons name rest ih =>
    have here := valid name (List.mem_cons_self ..)
    have later := fun other member => valid other (List.mem_cons_of_mem name member)
    rw [follow, if_neg here.notDot, if_neg here.notDotDot, ih _ later, List.append_assoc,
      List.singleton_append]

namespace FileSystem

/-- The directories that a path string passes through, before its last component, are there. -/
def Passable (fs : FileSystem) (base : Path) (text : Bytes) : Prop :=
  ∀ front, front <+: (components (cString text)).dropLast →
    fs.lookup (follow (startOf base text) front) = some .directory

theorem walk_eq_some_iff {fs : FileSystem} {location place : Path} {names : List Bytes} :
    fs.walk location names = some place ↔
      (∀ front, front <+: names → fs.lookup (follow location front) = some .directory) ∧
        follow location names = place := by
  induction names generalizing location with
  | nil =>
    rw [walk]
    split
    · rename_i here
      simp [follow, here]
    · rename_i missing
      simp [follow, missing]
  | cons name rest ih =>
    have onward (next : Path) (step : ∀ more, follow location (name :: more) = follow next more) :
        ((∀ front, front <+: name :: rest → fs.lookup (follow location front) = some .directory) ∧
            follow location (name :: rest) = place) ↔
          fs.lookup location = some .directory ∧ fs.walk next rest = some place := by
      rw [ih, step rest, ← and_assoc]
      refine and_congr_left' ⟨fun all => ⟨all [] List.nil_prefix, fun front short => ?_⟩, ?_⟩
      · rw [← step]
        exact all _ (List.cons_prefix_cons.mpr ⟨rfl, short⟩)
      · rintro ⟨here, later⟩ front short
        rcases List.prefix_cons_iff.mp short with rfl | ⟨more, rfl, shorter⟩
        · exact here
        · rw [step]
          exact later more shorter
    rw [walk]
    by_cases here : fs.lookup location = some .directory
    · rw [if_pos here]
      split_ifs with dot up
      · rw [onward location fun more => by rw [follow, if_pos dot]]
        simp only [here, true_and]
      · rw [onward location.dropLast fun more => by rw [follow, if_neg dot, if_pos up]]
        simp only [here, true_and]
      · rw [onward (location ++ [name]) fun more => by rw [follow, if_neg dot, if_neg up]]
        simp only [here, true_and]
    · rw [if_neg here]
      exact iff_of_false (by simp) fun both => here (both.1 [] List.nil_prefix)

/-- A system call comes to the place where the string leads lexically. -/
theorem target_eq_some_iff {fs : FileSystem} {base place : Path} {text : Bytes} :
    fs.target base text = some place ↔ fs.Passable base text ∧ resolve base text = place := by
  rw [target, Passable, resolve, ← startOf]
  rcases List.eq_nil_or_concat (components (cString text)) with none | ⟨front, last, split⟩
  · simp only [none, List.getLast?_nil, List.dropLast_nil]
    exact walk_eq_some_iff
  · rw [List.concat_eq_append] at split
    simp only [split, List.getLast?_concat, List.dropLast_concat, Option.map_eq_some_iff,
      walk_eq_some_iff, follow_append, follow]
    constructor
    · rintro ⟨parent, ⟨passes, rfl⟩, rfl⟩
      exact ⟨passes, rfl⟩
    · rintro ⟨passes, rfl⟩
      exact ⟨_, ⟨passes, rfl⟩, rfl⟩

/-- Nothing behind the first zero byte matters. -/
theorem target_cString (fs : FileSystem) (base : Path) (text : Bytes) :
    fs.target base (cString text) = fs.target base text := by
  have same : cString (cString text) = cString text := List.takeWhile_idem
  rw [target, target, same]

theorem components_append (front : Bytes) {name : Bytes} (valid : ValidName name) :
    components (front ++ slash :: name) = components front ++ [name] := by
  rw [components, List.splitOn_append_cons_self, List.splitOn_eq_singleton valid.noSlash,
    List.filter_append, List.filter_cons_of_pos (by simpa using valid.nonempty), List.filter_nil,
    components]

/-- A name behind a path string leads into the directory that the string leads to. -/
theorem target_append {fs : FileSystem} {base place : Path} {front name : Bytes}
    (found : fs.target base front = some place) (here : fs.lookup place = some .directory)
    (nonempty : front ≠ []) (noNul : 0 ∉ front) (valid : ValidName (cString name)) :
    fs.target base (front ++ slash :: name) = some (place ++ [cString name]) := by
  have nonzero (c : UInt8) (member : c ∈ front) : (c != 0) = true := by
    rw [bne_iff_ne]
    rintro rfl
    exact noNul member
  have plain : cString front = front := List.takeWhile_eq_self_iff.mpr nonzero
  have whole : cString (front ++ slash :: name) = front ++ slash :: cString name := by
    rw [cString, List.takeWhile_append_of_pos nonzero, List.takeWhile_cons_of_pos (by decide), cString]
  have start : startOf base (front ++ slash :: name) = startOf base front := by
    rw [startOf, startOf, whole, plain, List.head?_append_of_ne_nil _ nonempty]
  obtain ⟨passes, leads⟩ := target_eq_some_iff.mp found
  rw [resolve, plain] at leads
  apply target_eq_some_iff.mpr
  rw [Passable, resolve, start, whole, components_append front valid, List.dropLast_concat]
  constructor
  · intro before short
    rcases List.eq_nil_or_concat (components front) with none | ⟨others, last, split⟩
    · rw [none] at short
      rw [none, follow] at leads
      rw [List.prefix_nil.mp short, follow, leads, here]
    · rw [List.concat_eq_append] at split
      rw [split] at short
      rcases List.prefix_concat_iff.mp short with rfl | shorter
      · rw [← split, leads, here]
      · apply passes
        rw [plain, split, List.dropLast_concat]
        exact shorter
  · rw [follow_append, leads, follow_valid place (by simpa using valid)]

end FileSystem

end DpcppTrace.Foundation
