import DpcppTrace.Foundation.Dictionary
import DpcppTrace.Foundation.Effects
import DpcppTrace.Foundation.FileSystem

/-! # Packing a trace directory

`pack` creates the directory for the copies first, then reads two configurations, copies the
executable and the recorded files, and at last writes the file map and the changed configuration. An
exception leaves everything done so far in place, and a failed write is not noticed. A JSON text
stands for the value it denotes.
-/

namespace DpcppTrace.Model

open Foundation

/-- Texts have the order of `std::string`. -/
instance : Std.LawfulOrderLT Bytes := inferInstance

/-- A JSON object of texts: the recorded path of each packed file, and the name of its copy. -/
abbrev FileMap := Dictionary Bytes Bytes

/-- The members of `replay_config.json` that the commands read; one that is missing or has another
type is absent. -/
structure ReplayConfig where
  recordMode : Option Bytes := none
  command : Option Bytes := none
  executable : Option Bytes := none
  /-- What a loop over the member reads from it as texts, which is nothing when it is missing. -/
  arguments : Option (List Bytes) := none
  hasOpenCLPlugin : Option Bool := none
  hasLevelZeroPlugin : Option Bool := none
  hasCUDAPlugin : Option Bool := none
  hasROCmPlugin : Option Bool := none
deriving DecidableEq

def kRecordModeFull : Bytes := str "full"

def kPackedDataPath : Bytes := str "pack"

/-- A JSON file, which may be absent: the value that its text denotes, or none when the text is no
JSON, as one is that was cut off. -/
abbrev JsonFile (α : Type) := Option (Option α)

/-- The files of a trace directory that `pack` touches, and the copies in its pack directory by name
and source. An element of the recorded files that is no text is absent. -/
structure TraceDirectory where
  filesConfig : JsonFile (List (Option Bytes))
  replayConfig : JsonFile ReplayConfig
  replayFileMap : JsonFile FileMap
  packed : Option (List (Bytes × Bytes))

/-- What becomes of a text written to a file: all of it is written, the write is cut off, or the
file cannot be opened. -/
inductive WriteResult where
  | complete | truncated | unopened
deriving DecidableEq

/-- What the system lets one run do; `copies` tells for each copy by its number whether it
succeeds. -/
structure PackSystem where
  createsDirectory : Bool
  opensFilesConfig : Bool
  opensReplayConfig : Bool
  /-- `is_regular_file`, which throws when the status cannot be found out. -/
  isRegular : Bytes → Option Bool
  copies : ℕ → Bool
  writesFileMap : WriteResult
  writesReplayConfig : WriteResult

inductive PackFault where
  | alreadyPacked
  | filesystemError
  | parseError
  | typeError
deriving DecidableEq

abbrev PackM := EStateM PackFault TraceDirectory

/-- `get<std::string>()`. -/
def getString : Option Bytes → PackM Bytes
  | some text => pure text
  | none => throw .typeError

/-- `std::filesystem::copy_file` into the pack directory. -/
def copyFile (system : PackSystem) (number : ℕ) (source name : Bytes) : PackM Unit :=
  if system.copies number then
    modify fun dir => { dir with packed := dir.packed.map (· ++ [(name, source)]) }
  else throw .filesystemError

/-- The paths that are not packed. -/
def skipped (candString : Bytes) : Bool :=
  (str "/dev").isPrefixOf candString || (str "/sys").isPrefixOf candString ||
    (str "/proc").isPrefixOf candString

/-- `counter` and `replayMap`. -/
structure PackLoop where
  counter : ℕ
  replayMap : FileMap

/-- The name of the copy of a recorded file. -/
def copyName (counter : ℕ) (candString : Bytes) : Bytes :=
  decimal counter ++ str "_" ++ stem candString

/-- The body of the loop over the recorded files. -/
def packElement (system : PackSystem) (loop : PackLoop) (element : Option Bytes) :
    PackM PackLoop := do
  let candString ← getString element
  if skipped candString then pure loop
  else
    match system.isRegular candString with
    | none => throw .filesystemError
    | some false => pure loop
    | some true => do
      copyFile system loop.counter candString (copyName loop.counter candString)
      pure ⟨loop.counter + 1, loop.replayMap.set candString (copyName loop.counter candString)⟩

/-- Everything between the creation of the directory and the two writes. -/
def packFiles (system : PackSystem) (recordFiles : List (Option Bytes))
    (replayConfig : ReplayConfig) : PackM FileMap := do
  let executable ← getString replayConfig.executable
  copyFile system 0 executable (str "0")
  let loop ← recordFiles.foldlM (packElement system)
    ⟨1, Dictionary.empty.set executable (str "0")⟩
  pure loop.replayMap

/-- `>>` from a file into a JSON value. -/
def readJson {α : Type} (opens : Bool) (file : JsonFile α) : PackM α :=
  match if opens then file else none with
  | some (some value) => pure value
  | _ => throw .parseError

/-- `std::ofstream` given the text of a value; nothing tells that it failed. -/
def writeJson {α : Type} (result : WriteResult) (value : α) (before : JsonFile α) : JsonFile α :=
  match result with
  | .complete => some (some value)
  | .truncated => some none
  | .unopened => before

/-- `pack`, up to the archive. -/
def packDirectory (system : PackSystem) : PackM Unit := do
  let dir ← get
  if dir.packed.isSome then throw .alreadyPacked
  else if system.createsDirectory then do
    set { dir with packed := some [] }
    let recordFiles ← readJson system.opensFilesConfig dir.filesConfig
    let replayConfig ← readJson system.opensReplayConfig dir.replayConfig
    let replayMap ← packFiles system recordFiles replayConfig
    modify fun dir => { dir with
      replayFileMap := writeJson system.writesFileMap replayMap dir.replayFileMap }
    modify fun dir => { dir with
      replayConfig := writeJson system.writesReplayConfig
        { replayConfig with recordMode := some kRecordModeFull } dir.replayConfig }
  else throw .filesystemError

end DpcppTrace.Model
