import DpcppTrace.Foundation.ByteReader
import DpcppTrace.Foundation.LinkedSystem

/-! # Packing a trace directory into one file, and unpacking it

The writer emits a version byte and then one record for each entry of a recursive listing: the
kind, the length and text of the relative path, and for a file the length and bytes of its zstd
frame. The reader walks a cursor over the mapped archive until it meets the end of the mapping.
It has no entry count; a read that leaves the mapping is a fault of the model. The mapping is shared
with the file: what a record writes to the archive itself is what the reader sees next.
-/

namespace DpcppTrace.Model

open Foundation

/-- What the reader of an archive asks of a file system. -/
class FileStore (φ : Type) where
  lookup : φ → Path → Option Entry
  mkdir : φ → Path → Option φ
  createDirectory : φ → Path → Bytes → Option φ
  writeFile : φ → Path → Bytes → Bytes → φ

instance : FileStore FileSystem where
  lookup := FileSystem.lookup
  mkdir := FileSystem.mkdir
  createDirectory := FileSystem.createDirectory
  writeFile := FileSystem.writeFile

instance : FileStore LinkedSystem where
  lookup := LinkedSystem.lookup
  mkdir := LinkedSystem.mkdir
  createDirectory := LinkedSystem.createDirectory
  writeFile := LinkedSystem.writeFile

@[simp] theorem lookup_files (fs : FileSystem) (path : Path) :
    FileStore.lookup fs path = fs.lookup path := rfl

@[simp] theorem mkdir_files (fs : FileSystem) (path : Path) : FileStore.mkdir fs path = fs.mkdir path := rfl

@[simp] theorem createDirectory_files (fs : FileSystem) (base : Path) (text : Bytes) :
    FileStore.createDirectory fs base text = fs.createDirectory base text := rfl

@[simp] theorem writeFile_files (fs : FileSystem) (base : Path) (text content : Bytes) :
    FileStore.writeFile fs base text content = fs.writeFile base text content := rfl

/-- zstd and the memory that its output needs: the content size that a frame announces, and
decompression into a buffer of a given capacity, which returns a size or the number of an error and
leaves the buffer with some content. Both are handed the place of a frame and its size. -/
structure Decompressor where
  getFrameContentSize : (size : ℕ) → ByteReader ℕ
  decompress : (capacity size : ℕ) → ByteReader (ℕ × Bytes)
  within_getFrameContentSize : ∀ size, (getFrameContentSize size).Within size
  within_decompress : ∀ capacity size, (decompress capacity size).Within size
  serves : ℕ → Bool
  /-- Whether `assert` is compiled in. -/
  asserts : Bool

/-- One-shot compression, and the decompressor of its frames. Inputs are files a 64-bit system can
map. -/
structure Zstd extends Decompressor where
  compress : Bytes → Bytes
  frameContentSize_compress : ∀ content, content.length < 2 ^ 63 →
    (getFrameContentSize (compress content).length).run (compress content) = some content.length
  decompress_compress : ∀ content, content.length < 2 ^ 63 →
    (decompress content.length (compress content).length).run (compress content) =
      some (content.length, content)
  compress_sized : ∀ content, content.length < 2 ^ 63 → (compress content).length < 2 ^ 64
  serves_content : ∀ content : Bytes, content.length < 2 ^ 63 → serves content.length = true

instance : Coe Zstd Decompressor := ⟨Zstd.toDecompressor⟩

inductive UnpackFault where
  | pathDoesNotExist
  | pathExists
  | cannotCreateDirectory
  | cannotMap
  | outOfBounds
  | unknownVersion (version : UInt8)
  | badAlloc
  | assertion
deriving DecidableEq, Repr

/-- `Compression::uncompress` of a frame of this size, with the bytes that are there from its place on.
The buffer is allocated from the announced size. What the decompressor returns is asserted only. -/
def uncompress (zstd : Decompressor) (size : ℕ) (there : Bytes) : Except UnpackFault Bytes :=
  match (zstd.getFrameContentSize size).run there with
  | none => .error .outOfBounds
  | some maxSize =>
    if maxSize ≥ 2 ^ 63 ∨ zstd.serves maxSize = false then .error .badAlloc
    else
      match (zstd.decompress maxSize size).run there with
      | none => .error .outOfBounds
      | some (decSize, buf) =>
        if zstd.asserts = true ∧ maxSize ≠ decSize then .error .assertion else .ok buf

theorem uncompress_compress (zstd : Zstd) {content : Bytes} (sized : content.length < 2 ^ 63)
    (after : Bytes) :
    uncompress zstd (zstd.compress content).length (zstd.compress content ++ after) =
      .ok content := by
  have announced := ByteReader.run_append (zstd.frameContentSize_compress content sized) after
  have restored := ByteReader.run_append (zstd.decompress_compress content sized) after
  have served : ¬(content.length ≥ 2 ^ 63 ∨ zstd.serves content.length = false) :=
    not_or.mpr ⟨Nat.not_le.mpr sized, by simp [zstd.serves_content content sized]⟩
  simp only [uncompress, announced, restored, if_neg served, ne_eq, not_true_eq_false, and_false,
    if_false]

/-- The length and the text of a path, as both kinds of record hold them. -/
def packPath (rel : Path) : Bytes :=
  let pathStr := joinPath rel
  leBytes 8 pathStr.length ++ pathStr

/-- One pass of the writer's loop: the record of the entry at `rel` below `input`. -/
def packEntry (zstd : Zstd) (fs : FileSystem) (input rel : Path) : Bytes :=
  match fs.lookup (input ++ rel) with
  | some .directory => 0 :: packPath rel
  | some (.file content) =>
    let compBuf := zstd.compress content
    1 :: (packPath rel ++ (leBytes 8 compBuf.length ++ compBuf))
  | none => []

/-- The archive `pack` writes when `recursive_directory_iterator` yields `listing`. -/
def pack (zstd : Zstd) (fs : FileSystem) (input : Path) (listing : List Path) : Bytes :=
  0 :: listing.flatMap (packEntry zstd fs input)

/-- `count` bytes of the mapping from the cursor on. -/
def readAt (mapping : Bytes) (mapIt count : ℕ) : Except UnpackFault Bytes :=
  if mapIt + count ≤ mapping.length then .ok ((mapping.drop mapIt).take count)
  else .error .outOfBounds

theorem readAt_append (before chunk after : Bytes) :
    readAt (before ++ (chunk ++ after)) before.length chunk.length = .ok chunk := by
  have inside : before.length + chunk.length ≤ (before ++ (chunk ++ after)).length := by
    simp only [List.length_append]; omega
  rw [readAt, if_pos inside, List.drop_left, List.take_left]

/-- A 64-bit length, the text it announces, and the cursor behind both. -/
def readSized (mapping : Bytes) (mapIt : ℕ) : Except UnpackFault (Bytes × ℕ) := do
  let size := ofLe (← readAt mapping mapIt 8)
  let text ← readAt mapping (mapIt + 8) size
  pure (text, mapIt + 8 + size)

theorem readSized_append (before chunk after : Bytes) (sized : chunk.length < 2 ^ 64) :
    readSized (before ++ (leBytes 8 chunk.length ++ (chunk ++ after))) before.length =
      .ok (chunk, before.length + 8 + chunk.length) := by
  have length := readAt_append before (leBytes 8 chunk.length) (chunk ++ after)
  have text := readAt_append (before ++ leBytes 8 chunk.length) chunk after
  rw [leBytes_length] at length
  rw [List.length_append, leBytes_length, List.append_assoc] at text
  have size : ofLe (leBytes 8 chunk.length) = chunk.length :=
    ofLe_leBytes_of_lt (by norm_num; omega)
  simp only [readSized, length, size, text, bind, Except.bind, pure, Except.pure]

section Reader

variable {φ : Type} [FileStore φ]

/-- What can be read from a path. -/
def FileStore.content (fs : φ) (path : Path) : Option Bytes :=
  match FileStore.lookup fs path with
  | some (.file text) => some text
  | _ => none

/-- What the mapping of a file shows: of the bytes that the file has by now, those that were mapped. -/
def mappingView (fs : φ) (input : Path) (mSize : ℕ) : Bytes :=
  ((FileStore.content fs input).getD []).take mSize

/-- One pass of the loop of `parseV0`: the record at the cursor is carried out below `output`. The
cursor is moved behind a path before this is used, but behind a frame after it was decompressed. -/
def parseEntry (zstd : Decompressor) (output : Path) (mapping : Bytes) (mapIt : ℕ) (fs : φ) :
    Except UnpackFault (ℕ × φ) := do
  let kind ← readAt mapping mapIt 1
  let mapIt := mapIt + 1
  if kind = [0] then
    let (path, mapIt) ← readSized mapping mapIt
    match FileStore.createDirectory fs output path with
    | some fs => pure (mapIt, fs)
    | none => throw .cannotCreateDirectory
  else if kind = [1] then
    let (path, mapIt) ← readSized mapping mapIt
    let length := ofLe (← readAt mapping mapIt 8)
    let mapIt := mapIt + 8
    let buf ← uncompress zstd length (mapping.drop mapIt)
    pure (mapIt + length, FileStore.writeFile fs output path buf)
  else pure (mapIt, fs)

/-- The loop of `parseV0`, bounded by `fuel` passes; `none` when they do not suffice. -/
def parseLoopV0 (zstd : Decompressor) (input output : Path) (mSize : ℕ) :
    ℕ → ℕ → φ → Option (Except UnpackFault (ℕ × φ))
  | 0, _, _ => none
  | fuel + 1, mapIt, fs =>
    if mapIt = mSize then some (.ok (mapIt, fs))
    else
      match parseEntry zstd output (mappingView fs input mSize) mapIt fs with
      | .ok (mapIt, fs) => parseLoopV0 zstd input output mSize fuel mapIt fs
      | .error fault => some (.error fault)

/-- `parseV0`: the cursor it stops at and the files it leaves. -/
def parseV0 (zstd : Decompressor) (fuel : ℕ) (input output : Path) (mSize : ℕ) (fs : φ) :
    Option (Except UnpackFault (ℕ × φ)) :=
  parseLoopV0 zstd input output mSize fuel 1 fs

/-- `unpack` for options that resolve to `input` and `output`, with the cursor `parseV0` stopped
at. -/
def unpack (zstd : Decompressor) (fuel : ℕ) (input output : Path) (fs : φ) :
    Option (Except UnpackFault (ℕ × φ)) :=
  if FileStore.lookup fs input = none then some (.error .pathDoesNotExist)
  else if FileStore.lookup fs output ≠ none then some (.error .pathExists)
  else
    match FileStore.mkdir fs output with
    | none => some (.error .cannotCreateDirectory)
    | some fs =>
      match FileStore.content fs input with
      | some mapping =>
        match mapping.head? with
        | none => some (.error .outOfBounds)
        | some version =>
          if version = 0 then parseV0 zstd fuel input output mapping.length fs
          else some (.error (.unknownVersion version))
      | none => some (.error .cannotMap)

end Reader

/-- `unpack` on files that have execute bits. It creates files through `std::ofstream` only and sets
no bits. -/
def unpackDisk (zstd : Decompressor) (fuel : ℕ) (input output : Path) (disk : Disk) :
    Option (Except UnpackFault (ℕ × Disk)) :=
  (unpack zstd fuel input output disk.files).map fun result =>
    result.map fun (mapIt, files) => (mapIt, disk.written files)

end DpcppTrace.Model
