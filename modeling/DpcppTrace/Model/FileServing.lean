import DpcppTrace.Model.ReplayCommand
import DpcppTrace.Model.TraceLoop

/-! # The handlers of `record` and `replay`

The handler of `record` keeps the paths that the tracee opens. For a packed trace both handlers of
`replay` look for the copy of a file. If there is one, the register that the call has its path in is
pointed at the name of the copy before the tracee goes on.
-/

namespace DpcppTrace.Model.NativeTracer

open Foundation

/-- The path that `onFileOpen` of `record` pushes to `files`; `record` has no handler for `stat`. -/
def Action.opened : Action → Option Bytes
  | .call .openFile filename => some filename
  | .call .stat _ => none
  | .cont _ => none

/-- `files` of `record`, when the worker has left this log. -/
def recordedFiles (log : List Action) : List Bytes := log.filterMap Action.opened

/-- The pack directory as `replay` names it, and the file map. -/
structure PackedFiles where
  basePath : Bytes
  replayFileMap : FileMap

/-- What ends the serving with an exception: a name that cannot be written to the tracee, or a tracee
that is killed in a stop. -/
inductive ServeError where
  | poke (error : PokeError)
  | killed

/-- The register of a call that its handler is given, as an offset of the user area. -/
def fileNameRegister (call : ℕ) : Option ℕ :=
  if call = NR_stat then some (longSize * RDI)
  else if call = NR_newfstatat then some (longSize * RSI)
  else if call = NR_openat then some (longSize * RSI)
  else none

section Handlers

variable (files : PackedFiles) (words : ℕ)

/-- What `onFileOpen` and `onStat` are given. -/
def PackedFiles.handler (tracee : Tracee) (reg : ℕ) (stale : ℕ → UInt8) (filename : Bytes) :
    Option (Except PokeError Tracee) :=
  let replacement := findSuitableReplacement files.basePath files.replayFileMap filename
  if replacement = [] then some (.ok tracee) else writeString tracee reg replacement stale words

/-- The tracee behind the `switch` over its call. -/
def PackedFiles.atCall (tracee : Tracee) (stale : ℕ → UInt8) : Option (Except PokeError Tracee) :=
  match fileNameRegister (tracee.user (longSize * ORIG_RAX)).toNat with
  | none => some (.ok tracee)
  | some reg => (readString tracee.memory (tracee.user reg) words).bind
      (files.handler words tracee reg stale)

/-- The loop of the worker with these handlers: the tracee as it goes on from each stop of the filter.
The buffer of the writer has its own garbage at each stop. Where the tracee is killed in a stop, its
worker reads a path without end or throws, in a handler or behind it. -/
def PackedFiles.serve (stale : ℕ → ℕ → UInt8) : ℕ → List Report →
    Option (Except ServeError (List Tracee))
  | _, [] => some (.ok [])
  | pass, report :: rest =>
    let res := wait report.change.status
    if res.type ≠ .success then some (.ok [])
    else if !res.isSeccomp then
      match report.killed with
      | some _ => some (.error .killed)
      | none => PackedFiles.serve stale (pass + 1) rest
    else
      match report.killed with
      | some requests =>
        if (killedStop words report.tracee requests).place = .reading then none
        else some (.error .killed)
      | none =>
        match files.atCall words report.tracee (stale pass) with
        | none => none
        | some (.error error) => some (.error (.poke error))
        | some (.ok after) =>
          (PackedFiles.serve stale (pass + 1) rest).map fun result => result.map (after :: ·)

end Handlers

end DpcppTrace.Model.NativeTracer
