import DpcppTrace.Model.PackCommand
import DpcppTrace.Model.RecordCommand

/-! # The environment and the files of `replay`

A plain trace is replayed with the environment of `replay` itself, a packed one with the recorded
entries. `LD_LIBRARY_PATH` is taken out of either and put together anew. A program from a packed
trace is shown the copies of the files it opens.
-/

namespace DpcppTrace.Model

open Foundation

/-- The plugins that the configuration of the trace names. -/
structure Plugins where
  hasOpenCL : Bool := false
  hasLevelZero : Bool := false
  hasCUDA : Bool := false
  hasROCm : Bool := false

def allowedEnvVar (var : Bytes) : Bool := !(str "LD_LIBRARY_PATH").isPrefixOf var

/-- A line that the packed replay takes for the recorded library path. -/
def isLibraryPath (line : Bytes) : Bool := (str "LD_LIBRARY_PATH=").isPrefixOf line

/-- `env` and `fullLDPath`. -/
structure ReplayEnvironment where
  env : List Bytes
  fullLDPath : Bytes
deriving DecidableEq

/-- The body of the loop over the lines of the file. -/
def ReplayEnvironment.read (state : ReplayEnvironment) (line : Bytes) : ReplayEnvironment :=
  if isLibraryPath line then { state with fullLDPath := state.fullLDPath ++ line.drop 16 }
  else { state with env := state.env ++ [line] }

/-- The environment before the replay appends its own variables, for a packed trace with this file
`env`. -/
def packedEnvironment (opts : LaunchOptions) (file : Bytes) : ReplayEnvironment :=
  (getlines 0x0a file).foldl ReplayEnvironment.read ⟨[], opts.ldLibraryPath⟩

/-- The same for a trace that is not packed. -/
def plainEnvironment (opts : LaunchOptions) : ReplayEnvironment :=
  ⟨opts.env.filter allowedEnvVar, opts.ldLibraryPath ++ opts.inheritedPath⟩

/-- The variables that `replay` appends. -/
def replayVariables (opts : LaunchOptions) (plugins : Plugins) (fullLDPath : Bytes) : List Bytes :=
  [str "LD_PRELOAD=libsystem_intercept.so"] ++
    (if plugins.hasOpenCL then [str "SYCL_OVERRIDE_PI_OPENCL=libplugin_replay.so"] else []) ++
    (if plugins.hasLevelZero then [str "SYCL_OVERRIDE_PI_LEVEL_ZERO=libplugin_replay.so"] else []) ++
    (if plugins.hasCUDA then [str "SYCL_OVERRIDE_PI_CUDA=libplugin_replay.so"] else []) ++
    (if plugins.hasROCm then [str "SYCL_OVERRIDE_PI_ROCM=libplugin_replay.so"] else []) ++
    [fullLDPath, opts.outPath]

/-- The environment that `replay` launches the program with. -/
def ReplayEnvironment.launch (state : ReplayEnvironment) (opts : LaunchOptions)
    (plugins : Plugins) : List Bytes :=
  state.env ++ replayVariables opts plugins state.fullLDPath

/-! ## Packed traces -/

def kReplayConfigName : Bytes := str "replay_config.json"

def kReplayFileMapConfigName : Bytes := str "replay_file_map.json"

/-- What `replay` launches from a packed directory, apart from the executable. -/
structure PackedLaunch where
  replayConfig : ReplayConfig
  execArgs : List Bytes
  env : List Bytes
  replayFileMap : FileMap

/-- The executable of a packed directory. -/
def packedExecutable (tracePath : Path) : Path := tracePath ++ [kPackedDataPath, str "0"]

/-- `replay` on a directory; none when it throws or when the directory is not packed. A missing file
`env` has no lines. -/
def packedLaunch (parseConfig : Bytes → Option ReplayConfig) (parseMap : Bytes → Option FileMap)
    (opts : LaunchOptions) (fs : FileSystem) (tracePath : Path) : Option PackedLaunch := do
  let replayConfig ← (fs.content (tracePath ++ [kReplayConfigName])).bind parseConfig
  guard ((← replayConfig.recordMode) = kRecordModeFull)
  let command ← replayConfig.command
  let arguments ← replayConfig.arguments
  let plugins : Plugins := {
    hasOpenCL := ← replayConfig.hasOpenCLPlugin
    hasLevelZero := ← replayConfig.hasLevelZeroPlugin
    hasCUDA := ← replayConfig.hasCUDAPlugin
    hasROCm := ← replayConfig.hasROCmPlugin }
  let env := packedEnvironment opts ((fs.content (tracePath ++ [str "env"])).getD [])
  let replayFileMap ← (fs.content (tracePath ++ [kReplayFileMapConfigName])).bind parseMap
  pure ⟨replayConfig, command :: arguments, env.launch opts plugins, replayFileMap⟩

/-- The copy under this name, seen from the pack directory. -/
def packedCopy (basePath name : Bytes) : Bytes := basePath ++ str "/" ++ name

/-- `findSuitableReplacement`; the empty text leaves the name alone. -/
def findSuitableReplacement (basePath : Bytes) (replayFileMap : FileMap) (name : Bytes) : Bytes :=
  if str ".so" <:+: name then
    match replayFileMap.items.find? fun el => filename name <:+: el.1 with
    | some el => packedCopy basePath el.2
    | none => []
  else
    match replayFileMap.find name with
    | some value => packedCopy basePath value
    | none => []

end DpcppTrace.Model
