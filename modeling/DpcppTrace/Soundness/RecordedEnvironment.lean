import DpcppTrace.Model.ReplayCommand

/-! # The recorded environment

The file `env` separates entries by line breaks and quotes nothing, so the packed replay sees the
lines of the entries. It sees the entries themselves when none has a line break, and puts the library
path together rightly when there is only one.
-/

namespace DpcppTrace.Soundness

open Foundation Model

/-! ## The loop over the lines -/

theorem foldl_read (lines : List Bytes) (state : ReplayEnvironment) :
    lines.foldl ReplayEnvironment.read state =
      ⟨state.env ++ lines.filter fun line => !isLibraryPath line,
        state.fullLDPath ++ (lines.filter isLibraryPath).flatMap (List.drop 16)⟩ := by
  induction lines generalizing state with
  | nil => simp
  | cons line lines ih =>
    rw [List.foldl_cons, ih, ReplayEnvironment.read]
    rcases kind : isLibraryPath line with _ | _ <;> simp [kind]

private theorem packedEnvironment_envFile (opts : LaunchOptions) (recorded : List Bytes) :
    packedEnvironment opts (envFile recorded) =
      ⟨(recorded.flatMap (List.splitOn 0x0a)).filter fun line => !isLibraryPath line,
        opts.ldLibraryPath ++
          ((recorded.flatMap (List.splitOn 0x0a)).filter isLibraryPath).flatMap (List.drop 16)⟩ := by
  rw [packedEnvironment, envFile, getlines_putlines, foldl_read, List.nil_append]

/-! ## What the replay is to give the child -/

/-- The value of the recorded library path, empty when there is none. -/
def recordedPath (recorded : List Bytes) : Bytes :=
  (getenv (str "LD_LIBRARY_PATH") recorded).getD []

/-- The recorded entries but for the library path, and the library path behind the tool's own. -/
def Restores (opts : LaunchOptions) (recorded : List Bytes) (state : ReplayEnvironment) : Prop :=
  state.env = recorded.filter (fun text => !isLibraryPath text) ∧
    state.fullLDPath = opts.ldLibraryPath ++ recordedPath recorded

/-- No entry has a line break, and a further library path is blank: as often as it is broken, its
lines say nothing. -/
structure OneLine (recorded : List Bytes) : Prop where
  others : ∀ text ∈ recorded, isLibraryPath text = false → 0x0a ∉ text
  path : ∀ first rest, recorded.filter isLibraryPath = first :: rest → 0x0a ∉ first ∧
    ∀ text ∈ rest, ∀ line ∈ text.splitOn 0x0a, line = str "LD_LIBRARY_PATH="

theorem isLibraryPath_iff {text : Bytes} :
    isLibraryPath text = true ↔ ∃ value, text = str "LD_LIBRARY_PATH=" ++ value := by
  rw [isLibraryPath, List.isPrefixOf_iff_prefix]
  exact ⟨fun ⟨value, same⟩ => ⟨value, same.symm⟩, fun ⟨value, same⟩ => ⟨value, same.symm⟩⟩

theorem valueFor_libraryPath (text : Bytes) :
    valueFor (str "LD_LIBRARY_PATH") text =
      if isLibraryPath text then some (text.drop 16) else none := rfl

private theorem recordedPath_eq (recorded : List Bytes) :
    recordedPath recorded = ((recorded.filter isLibraryPath).head?.map (List.drop 16)).getD [] := by
  rw [recordedPath, getenv]
  congr 1
  induction recorded with
  | nil => rfl
  | cons text recorded ih =>
    rw [List.findSome?_cons, valueFor_libraryPath]
    rcases kind : isLibraryPath text with _ | _ <;> simp [kind, ih]

/-! ## The lines of one entry -/

theorem drop_append_libraryPath (value : Bytes) :
    (str "LD_LIBRARY_PATH=" ++ value).drop 16 = value :=
  List.drop_left' (by decide)

/-- The first line of an entry is a library path only if the entry is. -/
theorem exists_line_of_other {text : Bytes} (other : isLibraryPath text = false) :
    ∃ first rest, text.splitOn 0x0a = first :: rest ∧ isLibraryPath first = false := by
  obtain ⟨first, rest, lines, front⟩ := splitOn_head_prefix 0x0a text
  refine ⟨first, rest, lines, ?_⟩
  by_contra starts
  rw [Bool.not_eq_false, isLibraryPath, List.isPrefixOf_iff_prefix] at starts
  have whole : isLibraryPath text = true := List.isPrefixOf_iff_prefix.mpr (starts.trans front)
  rw [other] at whole
  exact Bool.false_ne_true whole

/-- An entry has at least as many lines that are no library path as it is such an entry. -/
theorem length_filter_le (text : Bytes) :
    ([text].filter fun line => !isLibraryPath line).length ≤
      ((text.splitOn 0x0a).filter fun line => !isLibraryPath line).length := by
  rcases kind : isLibraryPath text with _ | _
  · obtain ⟨first, rest, lines, other⟩ := exists_line_of_other kind
    simp [lines, other, kind]
  · simp [kind]

/-- Every entry has no other lines than itself that are no library path. -/
def WholeEntries (recorded : List Bytes) : Prop :=
  ∀ text ∈ recorded, (text.splitOn 0x0a).filter (fun line => !isLibraryPath line) =
    [text].filter fun line => !isLibraryPath line

/-- Pieces that are each at least as long and together as long are each as long. -/
theorem whole_of_filter_eq {recorded : List Bytes}
    (same : (recorded.flatMap (List.splitOn 0x0a)).filter (fun line => !isLibraryPath line) =
      recorded.filter fun text => !isLibraryPath text) : WholeEntries recorded := by
  have atLeast (recorded : List Bytes) : (recorded.filter fun text => !isLibraryPath text).length ≤
      ((recorded.flatMap (List.splitOn 0x0a)).filter fun line => !isLibraryPath line).length := by
    induction recorded with
    | nil => exact le_rfl
    | cons text recorded ih =>
      have here := length_filter_le text
      rw [← List.singleton_append, List.filter_append, List.length_append, List.singleton_append,
        List.flatMap_cons, List.filter_append, List.length_append]
      omega
  induction recorded with
  | nil => nofun
  | cons text recorded ih =>
    rw [← List.singleton_append, List.filter_append, List.singleton_append, List.flatMap_cons,
      List.filter_append] at same
    have total := congrArg List.length same
    rw [List.length_append, List.length_append] at total
    have here := length_filter_le text
    have later := atLeast recorded
    obtain ⟨first, rest⟩ := List.append_inj same (by omega)
    intro other member
    rcases List.mem_cons.mp member with rfl | member
    · exact first
    · exact ih rest other member

section Entries

variable {recorded : List Bytes}

theorem WholeEntries.tail {text : Bytes} (whole : WholeEntries (text :: recorded)) :
    WholeEntries recorded :=
  fun other member => whole other (List.mem_cons_of_mem _ member)

theorem WholeEntries.others_eq (whole : WholeEntries recorded) :
    (recorded.flatMap (List.splitOn 0x0a)).filter (fun line => !isLibraryPath line) =
      recorded.filter fun text => !isLibraryPath text := by
  induction recorded with
  | nil => rfl
  | cons text recorded ih =>
    rw [List.flatMap_cons, List.filter_append, whole text List.mem_cons_self, ih whole.tail,
      ← List.filter_append, List.singleton_append]

theorem WholeEntries.splitOn_of_other (whole : WholeEntries recorded) {text : Bytes}
    (member : text ∈ recorded)
    (other : isLibraryPath text = false) : 0x0a ∉ text := by
  have lines := whole text member
  have kept : text ∈ (text.splitOn 0x0a).filter fun line => !isLibraryPath line := by
    rw [lines]
    simp [other]
  exact notMem_of_mem_splitOn (List.mem_of_mem_filter kept)

/-- All lines of a library path are library paths. -/
theorem WholeEntries.lines_of_path (whole : WholeEntries recorded) {text line : Bytes}
    (member : text ∈ recorded)
    (path : isLibraryPath text = true) (inside : line ∈ text.splitOn 0x0a) :
    isLibraryPath line = true := by
  have lines := whole text member
  rw [List.filter_singleton, path, Bool.not_true, cond_false,
    List.filter_eq_nil_iff] at lines
  simpa using lines line inside

theorem WholeEntries.paths_eq (whole : WholeEntries recorded) :
    (recorded.flatMap (List.splitOn 0x0a)).filter isLibraryPath =
      (recorded.filter isLibraryPath).flatMap (List.splitOn 0x0a) := by
  induction recorded with
  | nil => rfl
  | cons text recorded ih =>
    rw [List.flatMap_cons, List.filter_append, ih whole.tail, List.filter_cons]
    rcases kind : isLibraryPath text with _ | _
    · have broken := whole.splitOn_of_other List.mem_cons_self kind
      rw [List.splitOn_eq_singleton broken]
      simp [kind]
    · have all := List.filter_eq_self.mpr fun line inside =>
        whole.lines_of_path List.mem_cons_self kind inside
      rw [all, if_pos rfl, List.flatMap_cons]

end Entries

theorem OneLine.whole {recorded : List Bytes} (oneLine : OneLine recorded) :
    WholeEntries recorded := by
  intro text member
  rcases kind : isLibraryPath text with _ | _
  · rw [List.splitOn_eq_singleton (oneLine.others text member kind)]
  · have listed : text ∈ recorded.filter isLibraryPath := List.mem_filter.mpr ⟨member, kind⟩
    rcases paths : recorded.filter isLibraryPath with _ | ⟨first, rest⟩
    · rw [paths] at listed
      cases listed
    · obtain ⟨firstLine, restBlank⟩ := oneLine.path first rest paths
      rw [paths] at listed
      rcases List.mem_cons.mp listed with rfl | later
      · rw [List.splitOn_eq_singleton firstLine]
      · rw [List.filter_singleton, kind, Bool.not_true, cond_false, List.filter_eq_nil_iff]
        intro line inside
        rw [restBlank text later line inside]
        decide

/-- The packed replay restores the recorded environment exactly if it has no line breaks and, apart
from blank ones, one library path. -/
theorem environment_restored_iff (opts : LaunchOptions) (recorded : List Bytes) :
    Restores opts recorded (packedEnvironment opts (envFile recorded)) ↔ OneLine recorded := by
  rw [packedEnvironment_envFile, Restores, List.append_cancel_left_eq, recordedPath_eq]
  constructor
  · rintro ⟨others, value⟩
    have whole := whole_of_filter_eq others
    rw [whole.paths_eq] at value
    refine ⟨fun text member other => whole.splitOn_of_other member other, fun first rest paths => ?_⟩
    rw [paths] at value
    change ((first :: rest).flatMap (List.splitOn 0x0a)).flatMap (List.drop 16) = first.drop 16 at value
    obtain ⟨path, rfl⟩ := isLibraryPath_iff.mp
      (List.of_mem_filter (by rw [paths]; exact List.mem_cons_self))
    have unbroken : 0x0a ∉ str "LD_LIBRARY_PATH=" ++ path := by
      have value_unbroken : 0x0a ∉ path := by
        rw [← drop_append_libraryPath path, ← value]
        intro member
        obtain ⟨line, inside, found⟩ := List.mem_flatMap.mp member
        obtain ⟨text, -, ofText⟩ := List.mem_flatMap.mp inside
        exact notMem_of_mem_splitOn ofText (List.mem_of_mem_drop found)
      rw [List.mem_append, not_or]
      exact ⟨by decide, value_unbroken⟩
    refine ⟨unbroken, fun text later line inside => ?_⟩
    have listed : text ∈ recorded.filter isLibraryPath := by
      rw [paths]
      exact List.mem_cons_of_mem _ later
    have starts := whole.lines_of_path (List.mem_of_mem_filter listed) (List.of_mem_filter listed) inside
    obtain ⟨said, rfl⟩ := isLibraryPath_iff.mp starts
    rw [List.flatMap_cons, List.splitOn_eq_singleton unbroken, List.flatMap_append,
      List.flatMap_singleton, List.append_right_eq_self, List.flatMap_eq_nil_iff] at value
    have nothing := value _ (List.mem_flatMap.mpr ⟨text, later, inside⟩)
    rw [drop_append_libraryPath] at nothing
    rw [nothing, List.append_nil]
  · intro oneLine
    have whole := oneLine.whole
    refine ⟨whole.others_eq, ?_⟩
    rw [whole.paths_eq]
    rcases paths : recorded.filter isLibraryPath with _ | ⟨first, rest⟩
    · rfl
    · obtain ⟨firstLine, restBlank⟩ := oneLine.path first rest paths
      have blank : (rest.flatMap (List.splitOn 0x0a)).flatMap (List.drop 16) = [] := by
        rw [List.flatMap_eq_nil_iff]
        intro line inside
        obtain ⟨text, later, ofText⟩ := List.mem_flatMap.mp inside
        rw [restBlank text later line ofText]
        decide
      rw [List.flatMap_cons, List.splitOn_eq_singleton firstLine, List.flatMap_append, blank]
      simp

/-- A variable with a line break in its value. -/
theorem not_environment_restored :
    ¬∀ (opts : LaunchOptions) (recorded : List Bytes),
      Restores opts recorded (packedEnvironment opts (envFile recorded)) := by
  intro always
  obtain ⟨env, -⟩ := always ⟨[], [], []⟩ [str "A=x\ny"]
  exact absurd env (by decide)

end DpcppTrace.Soundness
