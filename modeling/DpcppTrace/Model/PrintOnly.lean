import DpcppTrace.Foundation.ShellExpansion
import DpcppTrace.Model.ReplayCommand

/-! # `replay --print-only`

A plain trace is replayed by a command that is printed or launched. The printed one is a line for a
shell: the added variables, each on a line of its own that is continued, the executable, and the
arguments without the program name. The launched one passes C strings to `execve`.
-/

namespace DpcppTrace.Model

open Foundation

/-- What `replay` prints with `--print-only`. -/
def printOnly (opts : LaunchOptions) (plugins : Plugins) (executable : Bytes)
    (execArgs : List Bytes) : Bytes :=
  (opts.outPath ++ str " \\\n") ++
    (opts.ldLibraryPath ++ str "$LD_LIBRARY_PATH \\\n") ++
    str "LD_PRELOAD=libsystem_intercept.so \\\n" ++
    (if plugins.hasOpenCL then str "SYCL_OVERRIDE_PI_OPENCL=libplugin_replay.so \\\n" else []) ++
    (if plugins.hasLevelZero then str "SYCL_OVERRIDE_PI_LEVEL_ZERO=libplugin_replay.so \\\n"
      else []) ++
    (if plugins.hasCUDA then str "SYCL_OVERRIDE_PI_CUDA=libplugin_replay.so \\\n" else []) ++
    (if plugins.hasROCm then str "SYCL_OVERRIDE_PI_ROCM=libplugin_replay.so \\\n" else []) ++
    executable ++ ((execArgs.drop 1).flatMap fun arg => str " " ++ arg ++ str " ") ++ str "\n"

/-- What `replay` launches for a trace that is not packed: the added variables, the executable, and
the arguments behind the program name. -/
def plainLaunch (opts : LaunchOptions) (plugins : Plugins) (executable : Bytes)
    (execArgs : List Bytes) : Command where
  assignments :=
    (replayVariables opts plugins (plainEnvironment opts).fullLDPath).map cString
  path := cString executable
  arguments := (execArgs.drop 1).map cString

end DpcppTrace.Model
