import DpcppTrace.Foundation.UnlinkedSystem
import DpcppTrace.Soundness.ArchiveConfinement

/-! # Unpacking into either file system

What is proved of archives is proved of file systems with links or of ones without. Where there are no
links, unpacking does the same to both.
-/

namespace DpcppTrace.Soundness

open Foundation Model FileSystem

/-- The cursor and the files, seen as files with links. -/
def linkedState (here : ℕ × FileSystem) : ℕ × LinkedSystem := (here.1, here.2.linked)

section Reader

variable {zstd : Decompressor} {input output : Path} {fs : FileSystem}

private theorem content_linked (valid : ∀ name ∈ input, ValidName name) :
    FileStore.content fs.linked input = FileStore.content fs input := by
  have looked : FileStore.lookup fs.linked input = FileStore.lookup fs input := lookup_linked valid
  rw [FileStore.content, FileStore.content, looked]

private theorem mappingView_linked (valid : ∀ name ∈ input, ValidName name) (mSize : ℕ) :
    mappingView fs.linked input mSize = mappingView fs input mSize := by
  rw [mappingView, mappingView, content_linked valid]

section Pass

variable {mapping : Bytes} {mapIt : ℕ} (valid : ∀ name ∈ output, ValidName name)
  (here : fs.lookup output = some .directory)

include here

private theorem directory_parseEntry {next : ℕ × FileSystem}
    (ran : parseEntry zstd output mapping mapIt fs = .ok next) :
    next.2.lookup output = some .directory := by
  have carried := carryOut_parseEntry ran
  cases found : recordAt mapping mapIt with
  | none =>
    rw [found] at carried
    rwa [show next.2 = fs from carried]
  | some record =>
    rw [found] at carried
    cases record with
    | directory name => exact directory_createDirectory here carried
    | file name size there =>
      simp only [ArchiveRecord.carryOut] at carried
      split at carried
      · rw [← Option.some.inj carried]
        exact directory_writeFile here _ _
      · cases carried

include valid

/-- One pass carries out the same record. -/
theorem parseEntry_linked : parseEntry zstd output mapping mapIt fs.linked =
    (parseEntry zstd output mapping mapIt fs).map linkedState := by
  have made (text : Bytes) : FileStore.createDirectory fs.linked output text =
      (FileStore.createDirectory fs output text).map linked := createDirectory_linked valid here text
  have written (text content : Bytes) : FileStore.writeFile fs.linked output text content =
      (FileStore.writeFile fs output text content).linked := writeFile_linked valid here text content
  simp only [parseEntry, bind, Except.bind, made, written]
  cases readAt mapping mapIt 1 with
  | error fault => rfl
  | ok kind =>
    dsimp only
    split_ifs with directory file
    · cases readSized mapping (mapIt + 1) with
      | error fault => rfl
      | ok path =>
        dsimp only
        cases FileStore.createDirectory fs output path.1 <;> rfl
    · cases readSized mapping (mapIt + 1) with
      | error fault => rfl
      | ok path =>
        dsimp only
        cases readAt mapping path.2 8 with
        | error fault => rfl
        | ok length =>
          dsimp only
          cases uncompress zstd (ofLe length) (mapping.drop (path.2 + 8)) <;> rfl
    · rfl

end Pass

/-- So does the loop. -/
theorem parseLoopV0_linked (validInput : ∀ name ∈ input, ValidName name)
    (validOutput : ∀ name ∈ output, ValidName name) (mSize fuel mapIt : ℕ)
    (here : fs.lookup output = some .directory) :
    parseLoopV0 zstd input output mSize fuel mapIt fs.linked =
      (parseLoopV0 zstd input output mSize fuel mapIt fs).map (Except.map linkedState) := by
  induction fuel generalizing mapIt fs with
  | zero => rfl
  | succ fuel ih =>
    rw [parseLoopV0, parseLoopV0, mappingView_linked validInput, parseEntry_linked validOutput here]
    split_ifs with behind
    · rfl
    cases ran : parseEntry zstd output (mappingView fs input mSize) mapIt fs with
    | error fault => rfl
    | ok next => exact ih next.1 (directory_parseEntry here ran)

end Reader

/-- Unpacking an archive does the same to the same directories and files, whether there could be links
or not. -/
theorem unpack_linked (zstd : Decompressor) (fuel : ℕ) {input output : Path} (fs : FileSystem)
    (validInput : ∀ name ∈ input, ValidName name) (validOutput : ∀ name ∈ output, ValidName name) :
    unpack zstd fuel input output fs.linked =
      (unpack zstd fuel input output fs).map (Except.map linkedState) := by
  have lookedInput : FileStore.lookup fs.linked input = FileStore.lookup fs input :=
    lookup_linked validInput
  have lookedOutput : FileStore.lookup fs.linked output = FileStore.lookup fs output :=
    lookup_linked validOutput
  have made : FileStore.mkdir fs.linked output = (FileStore.mkdir fs output).map linked :=
    mkdir_linked validOutput
  rw [unpack, unpack, lookedInput, lookedOutput, made]
  split_ifs with missing present
  · rfl
  · rfl
  cases opened : FileStore.mkdir fs output with
  | none => rfl
  | some after =>
    have here : after.lookup output = some .directory := by
      rw [adds_of_mkdir (not_not.mp present) opened, if_pos rfl]
    simp only [Option.map_some, content_linked validInput]
    cases FileStore.content after input with
    | none => rfl
    | some mapping =>
      dsimp only
      cases mapping.head? with
      | none => rfl
      | some version =>
        dsimp only
        split_ifs
        · exact parseLoopV0_linked validInput validOutput mapping.length fuel 1 here
        · rfl

end DpcppTrace.Soundness
