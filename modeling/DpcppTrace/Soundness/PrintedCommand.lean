import DpcppTrace.Foundation.ShellMarks
import DpcppTrace.Foundation.ShellProbe
import DpcppTrace.Model.PrintOnly

/-! # The command that is printed

The printed command quotes nothing, so a shell reads it as the command that is launched exactly when
there is nothing to quote. One direction reads a text without marks word by word. The other counts:
the launched command spells every quote, backslash and dollar sign of the paths and arguments, and a
shell that reads the printed text takes away each of them that it meets.
-/

namespace DpcppTrace.Soundness

open Foundation Model

/-- A shell's reading of a text is this command; the order in which variables are set is free. -/
def RunsAs (reading : Option Command) (launched : Command) : Prop :=
  ∃ command, reading = some command ∧ command.assignments.Perm launched.assignments ∧
    command.path = launched.path ∧ command.arguments = launched.arguments

/-- Whatever the environment holds and whatever else a shell with that environment knows, it runs
the printed text as the command that is launched. -/
def PrintsLaunch (libDirectory tracePath : Bytes) (plugins : Plugins) (executable : Bytes)
    (execArgs : List Bytes) : Prop :=
  ∀ (env : List Bytes) (shell : Shell), (∀ entry ∈ env, 0 ∉ entry) →
    shell.parameter (str "LD_LIBRARY_PATH") = getenv (str "LD_LIBRARY_PATH") env →
    RunsAs (shell.reads (printOnly ⟨env, libDirectory, tracePath⟩ plugins executable execArgs))
      (plainLaunch ⟨env, libDirectory, tracePath⟩ plugins executable execArgs)

/-- There is nothing to quote in the command: the paths and arguments have no blanks, newlines,
quotes, backslashes, dollar signs and operators, no tildes that a shell expands, and no field is
empty, a pattern or the start of a comment; the executable has a slash and is no assignment. -/
structure NeedsNoQuotes (libDirectory tracePath executable : Bytes) (arguments : List Bytes) :
    Prop where
  library : PlainValue libDirectory
  trace : PlainValue tracePath
  program : PlainField executable
  slash : 0x2f ∈ executable
  command : isAssignment (spell executable) = false
  fields : ∀ argument ∈ arguments, PlainField argument

/-! ## The printed text -/

/-- The variables whose values do not depend on the trace. -/
def fixedVariables (plugins : Plugins) : List Bytes :=
  [str "LD_PRELOAD=libsystem_intercept.so"] ++
    (if plugins.hasOpenCL then [str "SYCL_OVERRIDE_PI_OPENCL=libplugin_replay.so"] else []) ++
    (if plugins.hasLevelZero then [str "SYCL_OVERRIDE_PI_LEVEL_ZERO=libplugin_replay.so"]
      else []) ++
    (if plugins.hasCUDA then [str "SYCL_OVERRIDE_PI_CUDA=libplugin_replay.so"] else []) ++
    (if plugins.hasROCm then [str "SYCL_OVERRIDE_PI_ROCM=libplugin_replay.so"] else [])

private theorem fixedVariables_all {P : Bytes → Prop} (plugins : Plugins)
    (preload : P (str "LD_PRELOAD=libsystem_intercept.so"))
    (openCL : P (str "SYCL_OVERRIDE_PI_OPENCL=libplugin_replay.so"))
    (levelZero : P (str "SYCL_OVERRIDE_PI_LEVEL_ZERO=libplugin_replay.so"))
    (cuda : P (str "SYCL_OVERRIDE_PI_CUDA=libplugin_replay.so"))
    (rocm : P (str "SYCL_OVERRIDE_PI_ROCM=libplugin_replay.so")) :
    ∀ text ∈ fixedVariables plugins, P text := by
  have only {text : Bytes} (holds : P text) (chosen : Bool) :
      ∀ other ∈ (if chosen then [text] else []), P other := by
    cases chosen <;> simp [holds]
  intro text mem
  simp only [fixedVariables, List.mem_append, List.mem_singleton] at mem
  rcases mem with (((rfl | mem) | mem) | mem) | mem
  · exact preload
  · exact only openCL _ _ mem
  · exact only levelZero _ _ mem
  · exact only cuda _ _ mem
  · exact only rocm _ _ mem

/-- The entry of the library path up to the first colon behind the directory. -/
def libraryFront (opts : LaunchOptions) : Bytes := str "LD_LIBRARY_PATH=" ++ opts.libDirectory

section Printed

variable (opts : LaunchOptions) (plugins : Plugins) (executable : Bytes) (execArgs : List Bytes)

/-- The printed text as continued lines and spaced fields. -/
theorem printOnly_eq : printOnly opts plugins executable execArgs =
    (opts.outPath ++ continuation) ++
      (libraryFront opts ++ parameterContinuation (str "LD_LIBRARY_PATH")) ++
      (fixedVariables plugins).flatMap (· ++ continuation) ++
      (executable ++ (spaced (execArgs.drop 1) ++ [0x0a])) := by
  have line (text : Bytes) (chosen : Bool) :
      (if chosen then text ++ continuation else []) =
        (if chosen then [text] else []).flatMap (· ++ continuation) := by
    cases chosen <;> simp
  have continued {text front : String} (same : text = front ++ " \\\n") :
      str text = str front ++ continuation := by
    rw [same, str_append]
    rfl
  have first : str " \\\n" = continuation := rfl
  have parameter : str ":" ++ str "$LD_LIBRARY_PATH \\\n" =
    parameterContinuation (str "LD_LIBRARY_PATH") := rfl
  have preload : str "LD_PRELOAD=libsystem_intercept.so \\\n" =
    str "LD_PRELOAD=libsystem_intercept.so" ++ continuation := continued rfl
  have openCL : str "SYCL_OVERRIDE_PI_OPENCL=libplugin_replay.so \\\n" =
    str "SYCL_OVERRIDE_PI_OPENCL=libplugin_replay.so" ++ continuation := continued rfl
  have levelZero : str "SYCL_OVERRIDE_PI_LEVEL_ZERO=libplugin_replay.so \\\n" =
    str "SYCL_OVERRIDE_PI_LEVEL_ZERO=libplugin_replay.so" ++ continuation := continued rfl
  have cuda : str "SYCL_OVERRIDE_PI_CUDA=libplugin_replay.so \\\n" =
    str "SYCL_OVERRIDE_PI_CUDA=libplugin_replay.so" ++ continuation := continued rfl
  have rocm : str "SYCL_OVERRIDE_PI_ROCM=libplugin_replay.so \\\n" =
    str "SYCL_OVERRIDE_PI_ROCM=libplugin_replay.so" ++ continuation := continued rfl
  have newline : str "\n" = [0x0a] := rfl
  have fields : ((execArgs.drop 1).flatMap fun arg => str " " ++ arg ++ str " ") =
      spaced (execArgs.drop 1) := by
    simp only [spaced]
    rfl
  rw [fixedVariables, List.flatMap_append, List.flatMap_append, List.flatMap_append,
    List.flatMap_append, ← line, ← line, ← line, ← line, List.flatMap_singleton, ← parameter]
  rw [printOnly, LaunchOptions.ldLibraryPath, libraryFront, first, preload, openCL, levelZero, cuda,
    rocm, fields, newline]
  simp only [List.append_assoc]

variable {opts plugins executable execArgs}

private theorem ordinary_append {front rest : Bytes} (first : ∀ c ∈ front, isOrdinary c = true)
    (second : ∀ c ∈ rest, isOrdinary c = true) : ∀ c ∈ front ++ rest, isOrdinary c = true := by
  intro c mem
  rcases List.mem_append.mp mem with mem | mem
  · exact first c mem
  · exact second c mem

private theorem ordinary_outPath (trace : ∀ c ∈ opts.tracePath, isOrdinary c = true) :
    ∀ c ∈ opts.outPath, isOrdinary c = true := by
  have front : ∀ c ∈ kTracePathEnvVar ++ str "=", isOrdinary c = true := List.all_eq_true.mp rfl
  exact ordinary_append front trace

private theorem ordinary_libraryFront (library : ∀ c ∈ opts.libDirectory, isOrdinary c = true) :
    ∀ c ∈ libraryFront opts, isOrdinary c = true := by
  have front : ∀ c ∈ str "LD_LIBRARY_PATH=", isOrdinary c = true := List.all_eq_true.mp rfl
  exact ordinary_append front library

private theorem ordinary_fixedVariables (plugins : Plugins) :
    ∀ text ∈ fixedVariables plugins, ∀ c ∈ text, isOrdinary c = true := by
  apply fixedVariables_all <;> exact List.all_eq_true.mp rfl

/-- The words in front of the executable. -/
def variableWords (opts : LaunchOptions) (plugins : Plugins) : List Word :=
  [spell opts.outPath, spell (libraryFront opts) ++
    [.plain 0x3a, .parameter (str "LD_LIBRARY_PATH") false]] ++
    (fixedVariables plugins).map spell

private theorem run_variables (trace : ∀ c ∈ opts.tracePath, isOrdinary c = true)
    (library : ∀ c ∈ opts.libDirectory, isOrdinary c = true) :
    ((opts.outPath ++ continuation) ++
      (libraryFront opts ++ parameterContinuation (str "LD_LIBRARY_PATH")) ++
      (fixedVariables plugins).flatMap (· ++ continuation)).foldlM Lexer.step {} =
      some { words := variableWords opts plugins } := by
  have named : parameterContinuation (str "LD_LIBRARY_PATH") =
    parameterContinuation (0x4c :: str "D_LIBRARY_PATH") := rfl
  have starts : startsName 0x4c = true := rfl
  have continues : ∀ c ∈ str "D_LIBRARY_PATH", continuesName c = true := List.all_eq_true.mp rfl
  have nonempty : opts.outPath ≠ [] ∧ opts.outPath.head? ≠ some 0x23 := by
    simp [LaunchOptions.outPath, kTracePathEnvVar, str]
  have filled : libraryFront opts ≠ [] ∧ (libraryFront opts).head? ≠ some 0x23 := by
    simp [libraryFront, str]
  have lines : ∀ text ∈ fixedVariables plugins, text ≠ [] ∧ text.head? ≠ some 0x23 := by
    apply fixedVariables_all <;> simp [str]
  have first : (opts.outPath ++ continuation).foldlM Lexer.step {} =
      some { words := [spell opts.outPath] } :=
    Lexer.run_append (Lexer.run_word (ordinary_outPath trace) nonempty.1 nonempty.2)
      (Lexer.run_continuation (some (spell opts.outPath)))
  have second : (libraryFront opts ++ parameterContinuation (str "LD_LIBRARY_PATH")).foldlM
      Lexer.step { words := [spell opts.outPath] } =
      some { words := [spell opts.outPath] ++ [spell (libraryFront opts) ++
        [.plain 0x3a, .parameter (str "LD_LIBRARY_PATH") false]] } := by
    rw [named]
    exact Lexer.run_append (Lexer.run_word (ordinary_libraryFront library) filled.1 filled.2)
      (Lexer.run_parameterContinuation starts continues)
  exact Lexer.run_append (Lexer.run_append first second)
    (Lexer.run_lines (ordinary_fixedVariables plugins) (fun text mem => (lines text mem).1)
      fun text mem => (lines text mem).2)

/-- The words of the printed text: the fields from a comment on are not read. -/
theorem shellWords_printOnly (trace : ∀ c ∈ opts.tracePath, isOrdinary c = true)
    (library : ∀ c ∈ opts.libDirectory, isOrdinary c = true) (nonempty : executable ≠ [])
    (ordinary : ∀ field ∈ executable :: execArgs.drop 1, ∀ c ∈ field, isOrdinary c = true) :
    shellWords (printOnly opts plugins executable execArgs) =
      some (variableWords opts plugins ++
        (visible (executable :: execArgs.drop 1)).map spell) := by
  rw [shellWords, printOnly_eq,
    Lexer.run_append (run_variables trace library) (Lexer.run_last nonempty ordinary)]
  rfl

private theorem outPath_entry (opts : LaunchOptions) :
    opts.outPath = kTracePathEnvVar ++ 0x3d :: opts.tracePath := by
  rw [LaunchOptions.outPath, List.append_assoc]
  rfl

private theorem libraryFront_entry (opts : LaunchOptions) :
    libraryFront opts = str "LD_LIBRARY_PATH" ++ 0x3d :: opts.libDirectory := by
  have same : "LD_LIBRARY_PATH=" = "LD_LIBRARY_PATH" ++ "=" := rfl
  rw [libraryFront, same, str_append, List.append_assoc]
  rfl

private theorem name_tracePath : ∀ c ∈ kTracePathEnvVar, continuesName c = true := List.all_eq_true.mp rfl

private theorem name_library : ∀ c ∈ str "LD_LIBRARY_PATH", continuesName c = true :=
  List.all_eq_true.mp rfl

/-- What is printed in front of the executable is a list of assignments. -/
theorem variableWords_assign (opts : LaunchOptions) (plugins : Plugins) :
    ∀ word ∈ variableWords opts plugins, isAssignment word = true := by
  have first (rest : Word) : isAssignment (spell kTracePathEnvVar ++ .plain 0x3d :: rest) = true :=
    isAssignment_spell rfl name_tracePath rest
  have second (rest : Word) :
      isAssignment (spell (str "LD_LIBRARY_PATH") ++ .plain 0x3d :: rest) = true :=
    isAssignment_spell rfl name_library rest
  have others : ∀ text ∈ fixedVariables plugins, isAssignment (spell text) = true := by
    apply fixedVariables_all <;> rfl
  intro word mem
  rw [variableWords, outPath_entry, libraryFront_entry, spell_entry, spell_entry] at mem
  rcases List.mem_append.mp mem with mem | mem
  · rcases List.mem_pair.mp mem with rfl | rfl
    · exact first _
    · rw [List.append_assoc]
      exact second _
  · obtain ⟨text, there, rfl⟩ := List.mem_map.mp mem
    exact others text there

private theorem fixedVariables_assignment (plugins : Plugins) (shell : Shell) :
    ((fixedVariables plugins).map spell).map shell.assignment = fixedVariables plugins := by
  have each : ∀ text ∈ fixedVariables plugins, shell.assignment (spell text) = text := by
    apply fixedVariables_all <;> rfl
  rw [List.map_map]
  exact (List.map_congr_left each).trans (List.map_id _)

/-- The variables that a shell sets. -/
theorem variableWords_assignment (trace : PlainValue opts.tracePath)
    (library : PlainValue opts.libDirectory) (plugins : Plugins) (shell : Shell) :
    (variableWords opts plugins).map shell.assignment =
      [opts.outPath, libraryFront opts ++ 0x3a :: shell.value (str "LD_LIBRARY_PATH")] ++
        fixedVariables plugins := by
  rw [variableWords, List.map_append, fixedVariables_assignment, outPath_entry, libraryFront_entry]
  simp only [List.map_cons, List.map_nil]
  rw [trace.assignment name_tracePath, library.assignment_parameter name_library]

private theorem cString_clear {text : Bytes} (clear : 0 ∉ text) : cString text = text := by
  apply List.takeWhile_eq_self_iff.mpr
  intro c mem
  simp only [bne_iff_ne]
  rintro rfl
  exact clear mem

private theorem clear_of_ordinary {text : Bytes} (ordinary : ∀ c ∈ text, isOrdinary c = true) :
    0 ∉ text := by
  intro mem
  exact (Lexer.clear_of_isOrdinary (ordinary 0 mem)).1 rfl

private theorem clear_inheritedPath (entries : ∀ entry ∈ opts.env, 0 ∉ entry) : 0 ∉ opts.inheritedPath := by
  rw [LaunchOptions.inheritedPath]
  cases found : getenv (str "LD_LIBRARY_PATH") opts.env with
  | none => simp
  | some value =>
    obtain ⟨text, mem, here⟩ := List.exists_of_findSome?_eq_some found
    rw [valueFor_eq_some] at here
    subst here
    exact fun there => entries _ mem (by simpa [entry] using .inr there)

/-- What is launched where no text has a NUL. -/
theorem plainLaunch_clear (entries : ∀ entry ∈ opts.env, 0 ∉ entry)
    (trace : 0 ∉ opts.tracePath) (library : 0 ∉ opts.libDirectory)
    (fields : ∀ field ∈ executable :: execArgs.drop 1, 0 ∉ field) :
    plainLaunch opts plugins executable execArgs = ⟨fixedVariables plugins ++
      [libraryFront opts ++ 0x3a :: opts.inheritedPath, opts.outPath], executable,
      execArgs.drop 1⟩ := by
  have path : (plainEnvironment opts).fullLDPath =
      libraryFront opts ++ 0x3a :: opts.inheritedPath := by
    rw [plainEnvironment, LaunchOptions.ldLibraryPath, libraryFront, List.append_assoc]
    rfl
  have added : replayVariables opts plugins (plainEnvironment opts).fullLDPath =
      fixedVariables plugins ++
        [libraryFront opts ++ 0x3a :: opts.inheritedPath, opts.outPath] := by
    rw [path]
    rfl
  have fixed : ∀ text ∈ fixedVariables plugins, cString text = text := fun text mem =>
    cString_clear (clear_of_ordinary (ordinary_fixedVariables plugins text mem))
  have inherited := clear_inheritedPath entries
  have pathClear : 0 ∉ libraryFront opts ++ 0x3a :: opts.inheritedPath := by
    have front : 0 ∉ str "LD_LIBRARY_PATH=" := by decide
    simp only [libraryFront, List.mem_append, List.mem_cons, not_or]
    exact ⟨⟨front, library⟩, by decide, inherited⟩
  have outClear : 0 ∉ opts.outPath := by
    have front : 0 ∉ kTracePathEnvVar ++ str "=" := by decide
    simp only [LaunchOptions.outPath, List.mem_append, not_or] at front ⊢
    exact ⟨front, trace⟩
  have arguments : (execArgs.drop 1).map cString = execArgs.drop 1 :=
    (List.map_congr_left fun field mem =>
      cString_clear (fields field (List.mem_cons_of_mem _ mem))).trans (List.map_id _)
  rw [plainLaunch, added, List.map_append, List.map_congr_left fixed, List.map_id', arguments]
  simp only [List.map_cons, List.map_nil, cString_clear pathClear, cString_clear outClear,
    cString_clear (fields executable (List.mem_cons_self ..))]

/-- Nothing is lost where nothing needs quotes. -/
theorem NeedsNoQuotes.printsLaunch {libDirectory tracePath : Bytes}
    (plain : NeedsNoQuotes libDirectory tracePath executable (execArgs.drop 1)) :
    PrintsLaunch libDirectory tracePath plugins executable execArgs := by
  intro env shell entries known
  have fields : ∀ field ∈ executable :: execArgs.drop 1, PlainField field := by
    intro field mem
    rcases List.mem_cons.mp mem with rfl | mem
    · exact plain.program
    · exact plain.fields field mem
  have read : visible (executable :: execArgs.drop 1) = executable :: execArgs.drop 1 :=
    visible_all (fun field mem => (fields field mem).nonempty)
      fun field mem => (fields field mem).uncommented
  have words : shellWords
      (printOnly ⟨env, libDirectory, tracePath⟩ plugins executable execArgs) = some
        (variableWords ⟨env, libDirectory, tracePath⟩ plugins ++
          spell executable :: (execArgs.drop 1).map spell) := by
    rw [← List.map_cons, ← read]
    apply shellWords_printOnly
    · exact plain.trace.ordinary
    · exact plain.library.ordinary
    · exact plain.program.nonempty
    · exact fun field mem => (fields field mem).ordinary
  have expanded (arguments : List Bytes) (each : ∀ argument ∈ arguments, PlainField argument) :
      (arguments.map spell).flatMap shell.fields = arguments := by
    induction arguments with
    | nil => rfl
    | cons argument arguments ih =>
      rw [List.map_cons, List.flatMap_cons, (each argument (List.mem_cons_self ..)).fields,
        ih fun other mem => each other (List.mem_cons_of_mem _ mem)]
      rfl
  have run : shell.command (variableWords ⟨env, libDirectory, tracePath⟩ plugins ++
      spell executable :: (execArgs.drop 1).map spell) = _ :=
    Shell.command_assigned (variableWords_assign ⟨env, libDirectory, tracePath⟩ plugins)
      plain.command (plain.program.fields shell)
  rw [if_pos plain.slash, Option.map_some] at run
  have reading : shell.reads
      (printOnly ⟨env, libDirectory, tracePath⟩ plugins executable execArgs) =
      shell.command (variableWords ⟨env, libDirectory, tracePath⟩ plugins ++
        spell executable :: (execArgs.drop 1).map spell) := by
    rw [Shell.reads, words, Option.bind_some]
  rw [plainLaunch_clear entries (clear_of_ordinary plain.trace.ordinary)
    (clear_of_ordinary plain.library.ordinary)
    fun field mem => clear_of_ordinary (fields field mem).ordinary]
  refine ⟨_, reading.trans run, ?_, rfl, expanded _ plain.fields⟩
  rw [variableWords_assignment plain.trace plain.library, Shell.value, known]
  apply List.perm_append_comm.trans
  exact (List.Perm.swap _ _ _).append_left _

end Printed

/-! ## What must not be lost -/

/-- How many bytes of a kind there are in the paths and the arguments. -/
def content (kind : UInt8 → Bool) (opts : LaunchOptions) (fields : List Bytes) : ℕ :=
  opts.tracePath.countP kind + opts.libDirectory.countP kind + fields.flatten.countP kind

section Lost

variable {opts : LaunchOptions} {plugins : Plugins} {executable : Bytes} {execArgs : List Bytes}

/-- The bytes of the printed text that the paths and arguments do not have are not quotes. -/
theorem printOnly_quotes : (printOnly opts plugins executable execArgs).countP isQuote =
    content isQuote opts (executable :: execArgs.drop 1) := by
  have none : ((fixedVariables plugins).flatMap (· ++ continuation)).countP isQuote = 0 := by
    rw [List.countP_eq_zero]
    intro c mem
    obtain ⟨text, there, mem⟩ := List.mem_flatMap.mp mem
    rcases List.mem_append.mp mem with mem | mem
    · have ordinary := ordinary_fixedVariables plugins text there c mem
      simp_all [isOrdinary]
    · have continued : continuation.countP isQuote = 0 := rfl
      exact List.countP_eq_zero.mp continued c mem
  have names : (kTracePathEnvVar ++ str "=").countP isQuote = 0 ∧
      (str "LD_LIBRARY_PATH=").countP isQuote = 0 ∧ continuation.countP isQuote = 0 ∧
      (parameterContinuation (str "LD_LIBRARY_PATH")).countP isQuote = 0 ∧
      [(0x0a : UInt8)].countP isQuote = 0 := ⟨rfl, rfl, rfl, rfl, rfl⟩
  have blank : isQuote 0x20 = false := rfl
  rw [printOnly_eq]
  simp only [List.countP_append, LaunchOptions.outPath, libraryFront, Lexer.countP_spaced blank,
    none, content, List.flatten_cons] at names ⊢
  omega

/-- A text that is read has no NUL, and neither have the paths and arguments. -/
theorem clear_of_read {words : List Word}
    (read : shellWords (printOnly opts plugins executable execArgs) = some words) :
    0 ∉ opts.tracePath ∧ 0 ∉ opts.libDirectory ∧
      ∀ field ∈ executable :: execArgs.drop 1, 0 ∉ field := by
  obtain ⟨final, run, -⟩ := shellWords_eq_some read
  have present := Lexer.run_present run
  rw [printOnly_eq] at present
  simp only [List.mem_append, LaunchOptions.outPath, libraryFront, not_or] at present
  obtain ⟨⟨⟨⟨⟨-, trace⟩, -⟩, ⟨-, library⟩, -⟩, -⟩, program, fields, -⟩ := present
  refine ⟨trace, library, fun field mem there => ?_⟩
  rcases List.mem_cons.mp mem with rfl | mem
  · exact program there
  · apply fields
    exact List.mem_flatMap.mpr ⟨field, mem, by simp [there]⟩

/-- The launched command spells what the paths and arguments have, so a reading that runs as it
spells no less. -/
theorem content_le_weight (kind : UInt8 → Bool) (other : kind 0x78 = false)
    (entries : ∀ entry ∈ opts.env, 0 ∉ entry)
    {words : List Word}
    (read : shellWords (printOnly opts plugins executable execArgs) = some words)
    (runs : RunsAs (Shell.probe.command words) (plainLaunch opts plugins executable execArgs)) :
    content kind opts (executable :: execArgs.drop 1) ≤ Shell.weight kind words.flatten := by
  obtain ⟨found, command, sets, path, arguments⟩ := runs
  obtain ⟨trace, library, fields⟩ := clear_of_read read
  rw [plainLaunch_clear entries trace library fields] at sets path arguments
  have bound := (Shell.probe_clear kind other).command command
  have same := sets.flatten.countP_eq kind
  rw [List.countP_append, List.countP_append, same, path, arguments] at bound
  simp only [List.flatten_append, List.flatten_cons, List.flatten_nil, List.countP_append,
    libraryFront, LaunchOptions.outPath] at bound
  simp only [content, List.flatten_cons, List.countP_append]
  omega

private theorem weight_le_load {kind : UInt8 → Bool} {final : Lexer} :
    Shell.weight kind final.words.flatten ≤ final.load kind := by
  rw [Lexer.load, Lexer.spelled, List.flatMap_append, List.countP_append]
  exact Nat.le_add_right _ _

/-- In a text that is read as it is launched the paths and arguments are ordinary. -/
theorem ordinary_of_runs (entries : ∀ entry ∈ opts.env, 0 ∉ entry) {words : List Word}
    (read : shellWords (printOnly opts plugins executable execArgs) = some words)
    (runs : RunsAs (Shell.probe.command words) (plainLaunch opts plugins executable execArgs)) :
    content (fun c => !isOrdinary c) opts (executable :: execArgs.drop 1) = 0 := by
  obtain ⟨final, run, rfl⟩ := shellWords_eq_some read
  have quotes := content_le_weight isQuote rfl entries read runs
  have marks := content_le_weight isMark rfl entries read runs
  have others := content_le_weight (fun c => !isOrdinary c) rfl entries read runs
  have start : ({} : Lexer).Quiet := by simp [Lexer.Quiet]
  have quiet : Lexer.QuietRun {} (printOnly opts plugins executable execArgs) final := by
    apply Lexer.quietRun_of_load start run
    rw [printOnly_quotes]
    exact (Nat.zero_add _).le.trans (quotes.trans weight_le_load)
  rw [printOnly_eq] at quiet
  have name : ∀ c ∈ str "LD_LIBRARY_PATH", isOrdinary c = true := List.all_eq_true.mp rfl
  have ordinary := Lexer.spelled_ordinary name (ordinary_fixedVariables plugins) quiet ?_
  · have none : final.load (fun c => !isOrdinary c) = 0 := by
      rw [Lexer.load, List.countP_eq_zero]
      intro c mem
      simp [ordinary c mem]
    exact Nat.le_zero.mp (none ▸ others.trans weight_le_load)
  · have names : (kTracePathEnvVar ++ str "=").countP isMark = 0 ∧
      (str "LD_LIBRARY_PATH=").countP isMark = 0 := ⟨rfl, rfl⟩
    have kept := marks.trans weight_le_load
    simp only [content, List.flatten_cons, List.countP_append, libraryFront,
      LaunchOptions.outPath] at kept names ⊢
    omega

/-- A shell that sets the variables of the launch has expanded no tilde. -/
theorem untilded_of_sets {inherited : Bytes}
    (sets : ((variableWords opts plugins).map Shell.probe.assignment).Perm
      (fixedVariables plugins ++ [libraryFront opts ++ 0x3a :: inherited, opts.outPath])) :
    (∀ part ∈ opts.libDirectory.splitOn 0x3a, part.head? ≠ some 0x7e) ∧
      ∀ part ∈ opts.tracePath.splitOn 0x3a, part.head? ≠ some 0x7e := by
  have probeClear := Shell.probe_clear (· = 0x7e) (by decide)
  -- without the fixed variables two entries are left, and their names tell them apart
  rw [variableWords, List.map_append, fixedVariables_assignment] at sets
  have pair := (List.perm_append_left_iff _).mp (List.perm_append_comm.trans sets)
  have split : spell (libraryFront opts) ++
      [.plain 0x3a, .parameter (str "LD_LIBRARY_PATH") false] =
      spell (str "LD_LIBRARY_PATH") ++ .plain 0x3d :: (spell opts.libDirectory ++
        [.plain 0x3a, .parameter (str "LD_LIBRARY_PATH") false]) := by
    rw [libraryFront_entry, spell_entry]
    simp
  simp only [List.map_cons, List.map_nil] at pair
  rw [outPath_entry, spell_entry, Shell.assignment_spell name_tracePath, split,
    Shell.assignment_spell name_library, libraryFront_entry, List.append_assoc] at pair
  have traceMem := pair.subset (List.mem_cons_self ..)
  have libraryMem := pair.subset (List.mem_cons_of_mem _ (List.mem_cons_self ..))
  have apart {value other : Bytes} :
      kTracePathEnvVar ++ value ≠ str "LD_LIBRARY_PATH" ++ other := by
    intro same
    have heads := congrArg List.head? same
    simp [kTracePathEnvVar, str] at heads
  have traceSame := (List.mem_pair.mp traceMem).resolve_left apart
  have librarySame := (List.mem_pair.mp libraryMem).resolve_right fun same => apart same.symm
  have traceValue := (List.cons.inj (List.append_cancel_left traceSame)).2
  have libraryValue := (List.cons.inj (List.append_cancel_left librarySame)).2
  refine ⟨fun part mem => ?_, fun part mem => ?_⟩
  · have none : Shell.weight (· = 0x7e)
        [.plain 0x3a, .parameter (str "LD_LIBRARY_PATH") false] = 0 := rfl
    have kept : Shell.weight (· = 0x7e) (spell opts.libDirectory ++
        [.plain 0x3a, .parameter (str "LD_LIBRARY_PATH") false]) ≤
        (opts.libDirectory ++ 0x3a :: inherited).countP (· = 0x7e) := by
      rw [Shell.weight_append, Shell.weight_spell, none, List.countP_append]
      exact Nat.le_add_right _ _
    apply probeClear.untilded (kept.trans_eq (congrArg _ libraryValue.symm))
    rw [List.splitOn_append_cons_self, splitOn_spell]
    exact List.mem_append_left _ (List.mem_map_of_mem mem)
  · apply probeClear.untilded (by rw [traceValue, Shell.weight_spell])
    rw [splitOn_spell]
    exact List.mem_map_of_mem mem

/-- A shell that runs the executable and its arguments has expanded no field and left none out. -/
theorem fields_of_command {found : Command} {fields rest : List Bytes} {assigned : List Word}
    (assigns : ∀ word ∈ assigned, isAssignment word = true)
    (read : rest = visible (executable :: fields))
    (run : Shell.probe.command (assigned ++ rest.map spell) = some found)
    (count : found.assignments.length = assigned.length) (path : found.path = executable)
    (arguments : found.arguments = fields) :
    found.assignments = assigned.map Shell.probe.assignment ∧
      isAssignment (spell executable) = false ∧ ∀ field ∈ executable :: fields,
        field ≠ [] ∧ field.head? ≠ some 0x23 ∧ field.head? ≠ some 0x7e ∧
          hasPattern (field.map (·, true)) = false := by
  have filled : ∀ field ∈ rest, field ≠ [] := by
    intro field mem
    rw [read] at mem
    simpa using (List.mem_filter.mp mem).2
  obtain ⟨entries, named⟩ := Shell.command_assignments assigns run
  rw [entries, List.length_map, List.length_append, Nat.add_eq_left, List.length_eq_zero_iff]
    at count
  cases rest with
  | nil => exact absurd rfl named
  | cons first rest =>
    have other : isAssignment (spell first) = false := by
      by_contra assignment
      rw [List.map_cons, List.takeWhile_cons_of_pos (by simpa using assignment)] at count
      cases count
    obtain ⟨name, single, shows⟩ := Shell.probe_fields (filled first (List.mem_cons_self ..))
    rw [List.map_cons, Shell.command_assigned assigns other single] at run
    obtain ⟨place, found, rfl⟩ := Option.map_eq_some_iff.mp run
    have here : name = executable := by
      split at found
      · exact (Option.some.inj found).trans path
      · cases found
    have behind : ∀ field ∈ rest, field ≠ [] := fun field mem =>
      filled field (List.mem_cons_of_mem _ mem)
    have length : fields.length = rest.length :=
      (congrArg List.length arguments).symm.trans (Shell.probe_fields_length behind)
    have whole : first :: rest = executable :: fields := by
      have inside : (first :: rest).Sublist (executable :: fields) :=
        read ▸ List.filter_sublist.trans (List.takeWhile_sublist _)
      exact inside.eq_of_length (by simp [length])
    obtain ⟨rfl, rfl⟩ := List.cons.inj whole
    have uncommented : ∀ field ∈ first :: rest, field.head? ≠ some 0x23 := by
      intro field mem
      rw [read] at mem
      simpa using List.mem_takeWhile_imp (List.mem_filter.mp mem).1
    have same := Shell.probe_fields_same behind arguments
    refine ⟨rfl, other, fun field mem => ⟨filled field mem, uncommented field mem, ?_⟩⟩
    rcases List.mem_cons.mp mem with rfl | mem
    · exact shows here
    · exact same field mem

/-- A command that loses nothing has nothing to quote. -/
theorem needsNoQuotes_of_runs (entries : ∀ entry ∈ opts.env, 0 ∉ entry)
    (runs : RunsAs (Shell.probe.reads (printOnly opts plugins executable execArgs))
      (plainLaunch opts plugins executable execArgs)) :
    NeedsNoQuotes opts.libDirectory opts.tracePath executable (execArgs.drop 1) := by
  obtain ⟨found, reading, same⟩ := runs
  obtain ⟨words, read, command⟩ := Option.bind_eq_some_iff.mp reading
  have content := ordinary_of_runs entries read ⟨found, command, same⟩
  obtain ⟨traceClear, libraryClear, fieldsClear⟩ := clear_of_read read
  rw [plainLaunch_clear entries traceClear libraryClear fieldsClear] at same
  obtain ⟨sets, path, arguments⟩ := same
  simp only at path arguments
  have slash : 0x2f ∈ executable := path ▸ (Shell.probe_clear (fun _ => false) rfl).path command
  have all {text : Bytes} (none : text.countP (fun c => !isOrdinary c) = 0) :
      ∀ c ∈ text, isOrdinary c = true := by
    intro c mem
    simpa using List.countP_eq_zero.mp none c mem
  rw [Soundness.content] at content
  have trace : ∀ c ∈ opts.tracePath, isOrdinary c = true := all (by omega)
  have library : ∀ c ∈ opts.libDirectory, isOrdinary c = true := all (by omega)
  have ordinary : ∀ field ∈ executable :: execArgs.drop 1, ∀ c ∈ field, isOrdinary c = true := by
    intro field there c mem
    exact all (by omega) c (List.mem_flatten.mpr ⟨field, there, mem⟩)
  have nonempty := List.ne_nil_of_mem slash
  have known := (shellWords_printOnly trace library nonempty ordinary).symm.trans read
  rw [← Option.some.inj known] at command
  have assigns := variableWords_assign opts plugins
  have count : found.assignments.length = (variableWords opts plugins).length := by
    rw [sets.length_eq, variableWords]
    simp only [List.length_append, List.length_cons, List.length_nil, List.length_map]
    omega
  obtain ⟨set, other, fields⟩ := fields_of_command assigns rfl command count path arguments
  obtain ⟨libraryUntilded, traceUntilded⟩ := untilded_of_sets (set ▸ sets)
  have plain : ∀ field ∈ executable :: execArgs.drop 1, PlainField field := by
    intro field mem
    obtain ⟨nonempty, uncommented, untilded, unmatched⟩ := fields field mem
    exact ⟨nonempty, ordinary field mem, uncommented, untilded, unmatched⟩
  exact ⟨⟨library, libraryUntilded⟩, ⟨trace, traceUntilded⟩, plain _ (List.mem_cons_self ..), slash,
    other, fun argument mem => plain argument (List.mem_cons_of_mem _ mem)⟩

end Lost

/-- The printed command is the launched one exactly when there is nothing to quote. -/
theorem printsLaunch_iff (libDirectory tracePath : Bytes) (plugins : Plugins) (executable : Bytes)
    (execArgs : List Bytes) :
    PrintsLaunch libDirectory tracePath plugins executable execArgs ↔
      NeedsNoQuotes libDirectory tracePath executable (execArgs.drop 1) := by
  constructor
  · intro prints
    have entries : ∀ entry ∈ [str "LD_LIBRARY_PATH=x"], 0 ∉ entry := by
      intro entry mem
      rw [List.mem_singleton.mp mem]
      decide
    exact needsNoQuotes_of_runs entries (prints _ Shell.probe entries rfl)
  · exact NeedsNoQuotes.printsLaunch

example : PrintsLaunch (str "/opt/lib") (str "trace") {} (str "./app")
    [str "./app", str "--work-size=1000"] := by
  apply NeedsNoQuotes.printsLaunch
  refine ⟨⟨List.all_eq_true.mp rfl, by decide⟩, ⟨List.all_eq_true.mp rfl, by decide⟩,
    ⟨by decide, List.all_eq_true.mp rfl, by decide, by decide, rfl⟩, by decide, rfl, ?_⟩
  intro argument mem
  rw [List.mem_singleton.mp mem]
  exact ⟨by decide, List.all_eq_true.mp rfl, by decide, by decide, rfl⟩

/-- An argument with a blank in it is printed as two arguments. -/
theorem not_printsLaunch : ¬∀ (libDirectory tracePath : Bytes) (plugins : Plugins)
    (executable : Bytes) (execArgs : List Bytes),
    PrintsLaunch libDirectory tracePath plugins executable execArgs := by
  intro all
  obtain ⟨command, reading, -, -, arguments⟩ :=
    all (str "/opt/lib") (str "trace") {} (str "./app") [str "./app", str "a b"] []
      ⟨fun _ => none, fun _ => [], fun _ => [], fun _ => none⟩ (by simp) rfl
  have read : Shell.reads ⟨fun _ => none, fun _ => [], fun _ => [], fun _ => none⟩
      (printOnly ⟨[], str "/opt/lib", str "trace"⟩ {} (str "./app") [str "./app", str "a b"]) =
      some ⟨[str "DPCPP_TRACE_DATA_PATH=trace", str "LD_LIBRARY_PATH=/opt/lib:",
        str "LD_PRELOAD=libsystem_intercept.so"], str "./app", [str "a", str "b"]⟩ := by
    rfl
  rw [read] at reading
  cases reading
  cases arguments

end DpcppTrace.Soundness
