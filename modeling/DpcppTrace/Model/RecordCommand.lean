import DpcppTrace.Foundation.Lines
import DpcppTrace.Foundation.Variables

/-! # The environment of `record`

`record` keeps a copy of its environment in the file `env` of the trace directory, one entry a line,
and launches the program with the same entries and its own variables behind them.
-/

namespace DpcppTrace.Model

open Foundation

def kTracePathEnvVar : Bytes := str "DPCPP_TRACE_DATA_PATH"

def kSkipMemObjsEnvVar : Bytes := str "DPCPP_TRACE_SKIP_MEM_OBJECTS"

/-- What both commands take from `options`: the environment, the text of
`location() / ".." / "lib"`, and the text of the trace directory. -/
structure LaunchOptions where
  env : List Bytes
  libDirectory : Bytes
  tracePath : Bytes

/-- The bytes written to the file `env`. -/
def envFile (env : List Bytes) : Bytes := putlines 0x0a env

def LaunchOptions.outPath (opts : LaunchOptions) : Bytes :=
  kTracePathEnvVar ++ str "=" ++ opts.tracePath

/-- `ldLibraryPath` in front of an inherited value. -/
def LaunchOptions.ldLibraryPath (opts : LaunchOptions) : Bytes :=
  str "LD_LIBRARY_PATH=" ++ opts.libDirectory ++ str ":"

/-- What is appended of the process's own `LD_LIBRARY_PATH`. -/
def LaunchOptions.inheritedPath (opts : LaunchOptions) : Bytes :=
  (getenv (str "LD_LIBRARY_PATH") opts.env).getD []

/-- The variables that `record` appends. -/
def recordVariables (opts : LaunchOptions) (record_skip_mem_objects : Bool) : List Bytes :=
  [str "XPTI_TRACE_ENABLE=1",
    str "XPTI_FRAMEWORK_DISPATCHER=libxptifw.so",
    str "LD_PRELOAD=libsystem_intercept.so",
    str "XPTI_SUBSCRIBERS=libgraph_dump.so,libplugin_record.so",
    opts.ldLibraryPath ++ opts.inheritedPath,
    opts.outPath] ++
    if record_skip_mem_objects then [kSkipMemObjsEnvVar ++ str "=1"] else []

/-- The environment that `record` launches the program with. -/
def recordEnv (opts : LaunchOptions) (record_skip_mem_objects : Bool) : List Bytes :=
  opts.env ++ recordVariables opts record_skip_mem_objects

end DpcppTrace.Model
