import DpcppTrace.Model.PackCommand

/-! # The copies of `pack` with their bytes

A recorded path may lead into the directory that the copies go to, by whatever name; what it names
then depends on the copies made so far. Any other path names the same file throughout.
-/

namespace DpcppTrace.Model

open Foundation

/-- The files that paths lead to while `pack` runs. -/
structure CopySystem where
  /-- The entry of the pack directory that a path leads to. -/
  inPack : Bytes → Option Bytes
  /-- The bytes of the regular file that a path outside of that directory names. -/
  elsewhere : Bytes → Option Bytes
  copies : ℕ → Bool

/-- `counter` and `replayMap`, the bytes of the entries of the pack directory, and the entries that
were copied to. -/
structure CopyLoop extends PackLoop where
  entries : Bytes → Option Bytes
  targets : List Bytes

inductive CopyFault where
  | targetExists
  | failed
deriving DecidableEq

/-- The bytes of the regular file that a path names. -/
def CopySystem.content (system : CopySystem) (entries : Bytes → Option Bytes) (path : Bytes) :
    Option Bytes :=
  match system.inPack path with
  | some entry => entries entry
  | none => system.elsewhere path

/-- `std::filesystem::copy_file` into the pack directory, which replaces nothing. -/
def copyInto (system : CopySystem) (number : ℕ) (source name : Bytes) (s : CopyLoop) :
    Except CopyFault CopyLoop :=
  let target := cString name
  if (s.entries target).isSome then .error .targetExists
  else
    match system.content s.entries source with
    | none => .error .failed
    | some bytes =>
      if system.copies number then
        .ok { s with
          entries := Function.update s.entries target (some bytes)
          targets := s.targets ++ [target] }
      else .error .failed

/-- The body of the loop over the recorded files. -/
def copyElement (system : CopySystem) (s : CopyLoop) (candString : Bytes) :
    Except CopyFault CopyLoop :=
  if skipped candString then .ok s
  else if (system.content s.entries candString).isNone then .ok s
  else
    let newFileName := copyName s.counter candString
    (copyInto system s.counter candString newFileName s).map fun copied =>
      { copied with
        counter := s.counter + 1
        replayMap := s.replayMap.set candString newFileName }

/-- The pack directory is new, and the map is empty. -/
def emptyLoop : CopyLoop := ⟨⟨1, Dictionary.empty⟩, fun _ => none, []⟩

/-- The copies of the executable and of the recorded files. -/
def packCopies (system : CopySystem) (executable : Bytes) (recordFiles : List Bytes) :
    Except CopyFault CopyLoop := do
  let copied ← copyInto system 0 executable (str "0") emptyLoop
  recordFiles.foldlM (copyElement system)
    { copied with replayMap := copied.replayMap.set executable (str "0") }

end DpcppTrace.Model
