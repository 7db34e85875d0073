import DpcppTrace.Soundness.RecordedEnvironment

/-! # The environment of the launched program

Both commands append their variables to a list that may define them already, and of two definitions
the first counts. What the commands take out of the list beforehand is the library path: `record`
nothing, the plain replay everything whose name starts like it, the packed replay just that.
-/

namespace DpcppTrace.Soundness

open Foundation Model

/-! ## The variables of the tool -/

/-- The variables that `record` sets, with its own values. -/
def recordSettings (opts : LaunchOptions) (record_skip_mem_objects : Bool) : List (Bytes × Bytes) :=
  [(str "XPTI_TRACE_ENABLE", str "1"),
    (str "XPTI_FRAMEWORK_DISPATCHER", str "libxptifw.so"),
    (str "LD_PRELOAD", str "libsystem_intercept.so"),
    (str "XPTI_SUBSCRIBERS", str "libgraph_dump.so,libplugin_record.so"),
    (str "LD_LIBRARY_PATH", opts.libDirectory ++ str ":" ++ opts.inheritedPath),
    (kTracePathEnvVar, opts.tracePath)] ++
    if record_skip_mem_objects then [(kSkipMemObjsEnvVar, str "1")] else []

/-- The variables that `replay` sets for these plugins, with its own values. -/
def replaySettings (opts : LaunchOptions) (plugins : Plugins) (libraryPath : Bytes) :
    List (Bytes × Bytes) :=
  [(str "LD_PRELOAD", str "libsystem_intercept.so")] ++
    (if plugins.hasOpenCL then
      [(str "SYCL_OVERRIDE_PI_OPENCL", str "libplugin_replay.so")] else []) ++
    (if plugins.hasLevelZero then
      [(str "SYCL_OVERRIDE_PI_LEVEL_ZERO", str "libplugin_replay.so")] else []) ++
    (if plugins.hasCUDA then [(str "SYCL_OVERRIDE_PI_CUDA", str "libplugin_replay.so")] else []) ++
    (if plugins.hasROCm then [(str "SYCL_OVERRIDE_PI_ROCM", str "libplugin_replay.so")] else []) ++
    [(str "LD_LIBRARY_PATH", libraryPath), (kTracePathEnvVar, opts.tracePath)]

private theorem entry_libraryPath (opts : LaunchOptions) (value : Bytes) :
    entry (str "LD_LIBRARY_PATH") (opts.libDirectory ++ str ":" ++ value) =
      opts.ldLibraryPath ++ value := rfl

private theorem entry_tracePath (opts : LaunchOptions) :
    entry kTracePathEnvVar opts.tracePath = opts.outPath := rfl

private theorem entry_preload : entry (str "LD_PRELOAD") (str "libsystem_intercept.so") =
    str "LD_PRELOAD=libsystem_intercept.so" := by
  decide

/-- What `record` appends are the entries of its settings. -/
theorem recordVariables_eq (opts : LaunchOptions) (skip : Bool) :
    recordVariables opts skip = entries (recordSettings opts skip) := by
  have enable : entry (str "XPTI_TRACE_ENABLE") (str "1") = str "XPTI_TRACE_ENABLE=1" := by
    decide
  have dispatcher : entry (str "XPTI_FRAMEWORK_DISPATCHER") (str "libxptifw.so") =
      str "XPTI_FRAMEWORK_DISPATCHER=libxptifw.so" := by
    decide
  have subscribers :
      entry (str "XPTI_SUBSCRIBERS") (str "libgraph_dump.so,libplugin_record.so") =
        str "XPTI_SUBSCRIBERS=libgraph_dump.so,libplugin_record.so" := by
    decide
  have skipped : entry kSkipMemObjsEnvVar (str "1") = kSkipMemObjsEnvVar ++ str "=1" := by
    decide
  simp only [recordVariables, recordSettings, entries_append, entries_ite, entries_cons, enable,
    dispatcher, entry_preload, subscribers, entry_libraryPath, entry_tracePath, skipped]
  rfl

/-- What `replay` appends are the entries of its settings. -/
theorem replayVariables_eq (opts : LaunchOptions) (plugins : Plugins) (value : Bytes) :
    replayVariables opts plugins (opts.ldLibraryPath ++ value) =
      entries (replaySettings opts plugins (opts.libDirectory ++ str ":" ++ value)) := by
  have openCL : entry (str "SYCL_OVERRIDE_PI_OPENCL") (str "libplugin_replay.so") =
      str "SYCL_OVERRIDE_PI_OPENCL=libplugin_replay.so" := by
    decide
  have levelZero : entry (str "SYCL_OVERRIDE_PI_LEVEL_ZERO") (str "libplugin_replay.so") =
      str "SYCL_OVERRIDE_PI_LEVEL_ZERO=libplugin_replay.so" := by
    decide
  have cuda : entry (str "SYCL_OVERRIDE_PI_CUDA") (str "libplugin_replay.so") =
      str "SYCL_OVERRIDE_PI_CUDA=libplugin_replay.so" := by
    decide
  have rocm : entry (str "SYCL_OVERRIDE_PI_ROCM") (str "libplugin_replay.so") =
      str "SYCL_OVERRIDE_PI_ROCM=libplugin_replay.so" := by
    decide
  simp only [replayVariables, replaySettings, entries_append, entries_ite, entries_cons,
    entry_preload, openCL, levelZero, cuda, rocm, entry_libraryPath, entry_tracePath]
  rfl

/-- The names that `record` sets. -/
def recordNames (skip : Bool) : List Bytes :=
  [str "XPTI_TRACE_ENABLE", str "XPTI_FRAMEWORK_DISPATCHER", str "LD_PRELOAD",
    str "XPTI_SUBSCRIBERS", str "LD_LIBRARY_PATH", kTracePathEnvVar] ++
    if skip then [kSkipMemObjsEnvVar] else []

/-- The names that `replay` sets for these plugins. -/
def replayNames (plugins : Plugins) : List Bytes :=
  [str "LD_PRELOAD"] ++
    (if plugins.hasOpenCL then [str "SYCL_OVERRIDE_PI_OPENCL"] else []) ++
    (if plugins.hasLevelZero then [str "SYCL_OVERRIDE_PI_LEVEL_ZERO"] else []) ++
    (if plugins.hasCUDA then [str "SYCL_OVERRIDE_PI_CUDA"] else []) ++
    (if plugins.hasROCm then [str "SYCL_OVERRIDE_PI_ROCM"] else []) ++
    [str "LD_LIBRARY_PATH", kTracePathEnvVar]

private theorem recordSettings_names (opts : LaunchOptions) (skip : Bool) :
    (recordSettings opts skip).map Prod.fst = recordNames skip := by
  simp only [recordSettings, recordNames, List.map_append, apply_ite (List.map Prod.fst),
    List.map_cons, List.map_nil]

private theorem named_recordSettings (opts : LaunchOptions) (skip : Bool) :
    Named (recordSettings opts skip) := by
  have names : (∀ name ∈ recordNames skip, 0x3d ∉ name) ∧ (recordNames skip).Nodup := by
    cases skip <;> decide
  exact ⟨by rw [recordSettings_names]; exact names.1, by rw [recordSettings_names]; exact names.2⟩

private theorem replaySettings_names (opts : LaunchOptions) (plugins : Plugins) (libraryPath : Bytes) :
    (replaySettings opts plugins libraryPath).map Prod.fst = replayNames plugins := by
  simp only [replaySettings, replayNames, List.map_append, apply_ite (List.map Prod.fst),
    List.map_cons, List.map_nil]

private theorem ite_sublist {α : Type} (wanted : Bool) (items : List α) :
    (if wanted then items else []).Sublist items := by
  cases wanted
  · exact List.nil_sublist _
  · exact List.Sublist.refl _

/-- The names for some plugins are among the names for all of them. -/
theorem replayNames_sublist (plugins : Plugins) :
    (replayNames plugins).Sublist (replayNames ⟨true, true, true, true⟩) :=
  (((((List.Sublist.refl _).append (ite_sublist _ _)).append (ite_sublist _ _)).append
    (ite_sublist _ _)).append (ite_sublist _ _)).append (List.Sublist.refl _)

private theorem named_replaySettings (opts : LaunchOptions) (plugins : Plugins) (libraryPath : Bytes) :
    Named (replaySettings opts plugins libraryPath) := by
  have names : (∀ name ∈ replayNames ⟨true, true, true, true⟩, 0x3d ∉ name) ∧
      (replayNames ⟨true, true, true, true⟩).Nodup := by
    decide
  have sublist := replayNames_sublist plugins
  constructor
  · rw [replaySettings_names]
    exact fun name member => names.1 name (sublist.subset member)
  · rw [replaySettings_names]
    exact names.2.sublist sublist

/-- Of the names that `replay` sets, only the library path's starts like it. -/
theorem notLonger_of_mem_replayNames {plugins : Plugins} {name : Bytes}
    (member : name ∈ replayNames plugins) (other : name ≠ str "LD_LIBRARY_PATH") :
    ¬str "LD_LIBRARY_PATH" <+: name := by
  have all : ∀ name ∈ replayNames ⟨true, true, true, true⟩, name ≠ str "LD_LIBRARY_PATH" →
      ¬str "LD_LIBRARY_PATH" <+: name := by
    decide
  exact all name ((replayNames_sublist plugins).subset member) other

private theorem libraryPath_mem_replayNames (plugins : Plugins) :
    str "LD_LIBRARY_PATH" ∈ replayNames plugins := by
  simp [replayNames]

/-! ## The three lists -/

/-- The parent leaves these settings to the tool: it does not define their names, or defines them
just so. -/
def Leaves (parent : List Bytes) (settings : List (Bytes × Bytes)) : Prop :=
  ∀ setting ∈ settings, getenv setting.1 parent = none ∨ getenv setting.1 parent = some setting.2

/-- The same but for the library path, which the replay takes out of the list. -/
def LeavesOthers (parent : List Bytes) (settings : List (Bytes × Bytes)) : Prop :=
  Leaves parent (settings.filter fun setting => setting.1 != str "LD_LIBRARY_PATH")

/-- The parent defines no name that goes on behind `LD_LIBRARY_PATH`. -/
def NoLongerPath (parent : List Bytes) : Prop :=
  ∀ name, IsName name → str "LD_LIBRARY_PATH" <+: name → name ≠ str "LD_LIBRARY_PATH" →
    getenv name parent = none

/-- `record` resolves its variables exactly if the parent leaves all of them to it. -/
theorem record_resolves_iff (opts : LaunchOptions) (skip : Bool) :
    Resolves (recordSettings opts skip) opts.env (recordEnv opts skip) ↔
      Leaves opts.env (recordSettings opts skip) := by
  rw [recordEnv, recordVariables_eq, resolves_append_iff (named_recordSettings opts skip)]
  exact and_iff_left fun _ _ _ => rfl

private theorem libraryPath_isName : IsName (str "LD_LIBRARY_PATH") := by
  rw [IsName]
  decide

/-- A list without its library path leaves the settings to the tool if it does but for that path. -/
theorem leaves_iff_others (parent : List Bytes) {inherited : List Bytes}
    {settings : List (Bytes × Bytes)}
    (taken : getenv (str "LD_LIBRARY_PATH") inherited = none)
    (kept : ∀ setting ∈ settings, setting.1 ≠ str "LD_LIBRARY_PATH" →
      getenv setting.1 inherited = getenv setting.1 parent) :
    Leaves inherited settings ↔ LeavesOthers parent settings := by
  constructor
  · intro leaves setting member
    obtain ⟨listed, other⟩ := List.mem_filter.mp member
    rw [← kept setting listed (by simpa using other)]
    exact leaves setting listed
  · intro leaves setting listed
    rcases eq_or_ne setting.1 (str "LD_LIBRARY_PATH") with same | other
    · rw [same]
      exact .inl taken
    · rw [kept setting listed other]
      exact leaves setting (List.mem_filter.mpr ⟨listed, by simpa using other⟩)

/-- The plain replay drops the entries whose name starts like the library path's. -/
theorem getenv_plain (name : Bytes) (parent : List Bytes) :
    getenv name (parent.filter allowedEnvVar) =
      if str "LD_LIBRARY_PATH" <+: name then none else getenv name parent := by
  split
  · rename_i longer
    apply getenv_filter_none
    intro text value found
    rw [valueFor_eq_some.mp found, allowedEnvVar, Bool.not_eq_false', List.isPrefixOf_iff_prefix]
    exact (prefix_entry_iff libraryPath_isName).mpr longer
  · rename_i other
    apply getenv_filter
    intro text _ dropped
    by_contra found
    obtain ⟨value, found⟩ := Option.ne_none_iff_exists'.mp found
    rw [valueFor_eq_some.mp found, allowedEnvVar, Bool.not_eq_false', List.isPrefixOf_iff_prefix]
      at dropped
    exact other ((prefix_entry_iff libraryPath_isName).mp dropped)

/-- The packed replay drops the library path only. -/
theorem getenv_packed {name : Bytes} (isName : IsName name) (lines : List Bytes) :
    getenv name (lines.filter fun line => !isLibraryPath line) =
      if name = str "LD_LIBRARY_PATH" then none else getenv name lines := by
  split
  · rename_i same
    apply getenv_filter_none
    intro text value found
    rw [same, valueFor_libraryPath] at found
    split at found
    · rename_i path
      rw [path, Bool.not_true]
    · cases found
  · rename_i other
    apply getenv_filter
    intro text _ dropped
    rw [Bool.not_eq_false', isLibraryPath_iff] at dropped
    obtain ⟨value, rfl⟩ := dropped
    exact valueFor_entry_other isName libraryPath_isName other value

private theorem drop_ldLibraryPath (opts : LaunchOptions) (value : Bytes) :
    (opts.ldLibraryPath ++ value).drop 16 = opts.libDirectory ++ str ":" ++ value := by
  rw [LaunchOptions.ldLibraryPath, List.append_assoc, List.append_assoc, drop_append_libraryPath,
    List.append_assoc]

/-- The variables that a replay from this environment sets. -/
def settingsOf (state : ReplayEnvironment) (opts : LaunchOptions)
    (plugins : Plugins) : List (Bytes × Bytes) :=
  replaySettings opts plugins (state.fullLDPath.drop 16)

private theorem launch_eq {state : ReplayEnvironment} {opts : LaunchOptions} {value : Bytes}
    (path : state.fullLDPath = opts.ldLibraryPath ++ value) (plugins : Plugins) :
    state.launch opts plugins =
      state.env ++ entries (settingsOf state opts plugins) := by
  rw [ReplayEnvironment.launch, settingsOf, path, replayVariables_eq,
    drop_ldLibraryPath]

private theorem named_settingsOf (state : ReplayEnvironment) (opts : LaunchOptions) (plugins : Plugins) :
    Named (settingsOf state opts plugins) :=
  named_replaySettings opts plugins _

private theorem settingsOf_names (state : ReplayEnvironment) (opts : LaunchOptions) (plugins : Plugins) :
    (settingsOf state opts plugins).map Prod.fst = replayNames plugins :=
  replaySettings_names opts plugins _

private theorem mem_names_of_mem {settings : List (Bytes × Bytes)} {setting : Bytes × Bytes}
    (member : setting ∈ settings) : setting.1 ∈ settings.map Prod.fst :=
  List.mem_map_of_mem member

/-- The plain replay resolves its variables exactly if the parent leaves all but the library path
to it and has no name that goes on behind that one. -/
theorem plain_resolves_iff (opts : LaunchOptions) (plugins : Plugins) :
    Resolves (settingsOf (plainEnvironment opts) opts plugins) opts.env
        ((plainEnvironment opts).launch opts plugins) ↔
      LeavesOthers opts.env (settingsOf (plainEnvironment opts) opts plugins) ∧
        NoLongerPath opts.env := by
  rw [launch_eq rfl, resolves_append_iff (named_settingsOf _ opts plugins), ← Leaves,
    leaves_iff_others opts.env, settingsOf_names]
  · apply and_congr_right
    intro _
    constructor
    · intro others name isName longer differs
      have outside : name ∉ replayNames plugins := fun member =>
        notLonger_of_mem_replayNames member differs longer
      rw [← others name isName outside, plainEnvironment, getenv_plain, if_pos longer]
    · intro noLonger name isName outside
      rw [plainEnvironment, getenv_plain]
      split
      · rename_i longer
        refine (noLonger name isName longer ?_).symm
        rintro rfl
        exact outside (libraryPath_mem_replayNames plugins)
      · rfl
  · rw [plainEnvironment, getenv_plain, if_pos List.prefix_rfl]
  · intro setting member differs
    have named := mem_names_of_mem member
    rw [settingsOf_names] at named
    rw [plainEnvironment, getenv_plain, if_neg (notLonger_of_mem_replayNames named differs)]

/-- The packed replay resolves its variables exactly if the recorded entries leave all but the
library path to it. -/
theorem packed_resolves_iff (opts : LaunchOptions) (plugins : Plugins) (file : Bytes) :
    Resolves (settingsOf (packedEnvironment opts file) opts plugins) (getlines 0x0a file)
        ((packedEnvironment opts file).launch opts plugins) ↔
      LeavesOthers (getlines 0x0a file) (settingsOf (packedEnvironment opts file) opts plugins) := by
  have state := foldl_read (getlines 0x0a file) ⟨[], opts.ldLibraryPath⟩
  have env : (packedEnvironment opts file).env =
      (getlines 0x0a file).filter fun line => !isLibraryPath line := by
    rw [packedEnvironment, state]
    rfl
  rw [launch_eq (by rw [packedEnvironment, state]), env,
    resolves_append_iff (named_settingsOf _ opts plugins), ← Leaves,
    leaves_iff_others (getlines 0x0a file)]
  · apply and_iff_left
    intro name isName outside
    rw [getenv_packed isName, if_neg]
    rintro rfl
    rw [settingsOf_names] at outside
    exact outside (libraryPath_mem_replayNames plugins)
  · rw [getenv_packed libraryPath_isName, if_pos rfl]
  · intro setting member differs
    have isName := (named_settingsOf _ opts plugins).isName _ (mem_names_of_mem member)
    rw [getenv_packed isName, if_neg differs]

/-- When the environment that each command launches the program with resolves the tool's variables
to the tool's values and all others as the list it started from. -/
theorem launch_resolves_iff (opts : LaunchOptions) (skip : Bool) (plugins : Plugins)
    (file : Bytes) :
    (Resolves (recordSettings opts skip) opts.env (recordEnv opts skip) ↔
      Leaves opts.env (recordSettings opts skip)) ∧
    (Resolves (settingsOf (plainEnvironment opts) opts plugins) opts.env
        ((plainEnvironment opts).launch opts plugins) ↔
      LeavesOthers opts.env (settingsOf (plainEnvironment opts) opts plugins) ∧
        NoLongerPath opts.env) ∧
    (Resolves (settingsOf (packedEnvironment opts file) opts plugins) (getlines 0x0a file)
        ((packedEnvironment opts file).launch opts plugins) ↔
      LeavesOthers (getlines 0x0a file)
        (settingsOf (packedEnvironment opts file) opts plugins)) :=
  ⟨record_resolves_iff opts skip, plain_resolves_iff opts plugins,
    packed_resolves_iff opts plugins file⟩

/-- A parent with a library path of its own. -/
theorem not_launch_resolves :
    ¬∀ (opts : LaunchOptions) (skip : Bool),
      Resolves (recordSettings opts skip) opts.env (recordEnv opts skip) := by
  intro always
  have own := (always ⟨[str "LD_LIBRARY_PATH=/opt/lib"], str "/tool/lib", str "/t"⟩ false).own
    (str "LD_LIBRARY_PATH", str "/tool/lib:/opt/lib") (by decide)
  exact absurd own (by decide)

end DpcppTrace.Soundness
