import DpcppTrace.Model.Archive

/-! # Unpacking restores the packed tree

After each record of the archive the reader's cursor stands at the end of that record, and what
lies below the output directory is exactly what the records so far describe. A listing that visits
directories before their contents keeps every new entry inside a directory that already exists, so
no record fails and the cursor meets the end of the mapping after the last one.
-/

namespace DpcppTrace.Soundness

open Foundation Model

/-- `fs` holds the entries `done` below `output`, and is `initial` everywhere else. -/
structure Restored (initial : FileSystem) (output : Path) (done : List (Path × Entry))
    (fs : FileSystem) : Prop where
  directory : fs.lookup output = some .directory
  content : ∀ path, path ≠ [] → ∀ entry, fs.lookup (output ++ path) = some entry ↔ (path, entry) ∈ done
  frame : ∀ query, ¬output <+: query → fs.lookup query = initial.lookup query

namespace Restored

/-- A fresh output directory holds nothing. -/
theorem start {initial fs : FileSystem} {output : Path} (absent : initial.lookup output = none)
    (adds : initial.Adds fs output .directory) : Restored initial output [] fs where
  directory := by rw [adds output, if_pos rfl]
  content := by
    intro path nonempty entry
    have other : output ++ path ≠ output := by simpa using nonempty
    have missing : initial.lookup (output ++ path) = none := by
      by_contra present
      obtain ⟨first, rest, rfl⟩ := List.exists_cons_of_ne_nil nonempty
      have inside := initial.directory_of_present output first rest present
      rw [absent] at inside
      contradiction
    rw [adds, if_neg other, missing]
    simp
  frame := by
    intro query outside
    have other : query ≠ output := fun same => outside (same ▸ List.prefix_refl query)
    rw [adds, if_neg other]

theorem add {initial fs after : FileSystem} {output path : Path} {done : List (Path × Entry)}
    {entry : Entry} (restored : Restored initial output done fs) (nonempty : path ≠ [])
    (new : path ∉ done.map Prod.fst) (adds : fs.Adds after (output ++ path) entry) :
    Restored initial output (done ++ [(path, entry)]) after where
  directory := by
    have other : output ≠ output ++ path := by simpa using nonempty
    rw [adds, if_neg other, restored.directory]
  content := by
    intro query queryNonempty found
    rw [adds, List.mem_append, List.mem_singleton, Prod.mk.injEq]
    by_cases same : query = path
    · subst same
      have unseen : (query, found) ∉ done := fun member =>
        new (List.mem_map.mpr ⟨(query, found), member, rfl⟩)
      simp only [if_true, Option.some.injEq, unseen, false_or, true_and, eq_comm]
    · have other : output ++ query ≠ output ++ path := fun eq => same (List.append_cancel_left eq)
      rw [if_neg other, restored.content query queryNonempty found]
      simp only [same, false_and, or_false]
  frame := by
    intro query outside
    have other : query ≠ output ++ path := fun same => outside (same ▸ List.prefix_append output path)
    rw [adds, if_neg other, restored.frame query outside]

/-- What has not been restored yet is absent. -/
theorem fresh {initial fs : FileSystem} {output path : Path} {done : List (Path × Entry)}
    (restored : Restored initial output done fs) (nonempty : path ≠ [])
    (new : path ∉ done.map Prod.fst) : fs.lookup (output ++ path) = none := by
  rcases found : fs.lookup (output ++ path) with _ | entry
  · rfl
  · have member := (restored.content path nonempty entry).mp found
    exact absurd (List.mem_map.mpr ⟨(path, entry), member, rfl⟩) new

theorem put {initial fs : FileSystem} {output path : Path} {done : List (Path × Entry)}
    (restored : Restored initial output done fs) (nonempty : path ≠ [])
    (new : path ∉ done.map Prod.fst) (entry : Entry)
    (parent : fs.lookup (output ++ path).dropLast = some .directory) :
    Restored initial output (done ++ [(path, entry)]) (fs.put (output ++ path) entry) := by
  have absent : fs.lookup (output ++ path) ≠ some .directory := by
    rw [restored.fresh nonempty new]
    exact nofun
  apply restored.add nonempty new
  exact FileSystem.lookup_put (List.append_ne_nil_of_right_ne_nil _ nonempty) parent absent

/-- The parent of an entry is present once the listing has passed it. -/
theorem parent {initial fs : FileSystem} {output path : Path} {done : List (Path × Entry)}
    (restored : Restored initial output done fs)
    (listed : path.dropLast ≠ [] → (path.dropLast, Entry.directory) ∈ done) :
    fs.lookup (output ++ path.dropLast) = some .directory := by
  by_cases top : path.dropLast = []
  · rw [top, List.append_nil, restored.directory]
  · exact (restored.content _ top _).mpr (listed top)

/-- The archive of an output directory that is new lies outside of it. -/
theorem archive_outside {initial : FileSystem} {output archive : Path} {bytes : Bytes}
    (stored : initial.lookup archive = some (.file bytes)) (absent : initial.lookup output = none) :
    ¬output <+: archive := by
  rintro ⟨rest, rfl⟩
  have directory : initial.lookup output ≠ none := by
    cases rest with
    | nil =>
      rw [List.append_nil] at stored
      simp [stored]
    | cons name below =>
      rw [initial.directory_of_present output name below (by simp [stored])]
      exact Option.some_ne_none _
  exact directory absent

/-- What the reader restores leaves the archive as it is. -/
theorem shown {initial fs : FileSystem} {output archive : Path} {bytes : Bytes}
    {done : List (Path × Entry)} (restored : Restored initial output done fs)
    (stored : initial.lookup archive = some (.file bytes)) (absent : initial.lookup output = none) :
    mappingView fs archive bytes.length = bytes := by
  have same : FileStore.lookup fs archive = some (.file bytes) :=
    (restored.frame archive (archive_outside stored absent)).trans stored
  rw [mappingView, FileStore.content, same]
  exact List.take_length

end Restored

section Records

variable (zstd : Zstd) (source fs : FileSystem) (input output : Path) {rel : Path}
  (nonempty : rel ≠ []) (valid : ∀ name ∈ rel, ValidName name)
  (pathSized : (joinPath rel).length < 2 ^ 64)
  (parent : fs.lookup (output ++ rel.dropLast) = some .directory)
  (fresh : fs.lookup (output ++ rel) = none) (before after : Bytes)

include nonempty valid pathSized parent fresh

/-- The reader carries out a directory record and stops right behind it. -/
theorem parseEntry_directory (listed : source.lookup (input ++ rel) = some .directory) :
    ∃ next, parseEntry zstd output (before ++ (packEntry zstd source input rel ++ after))
        before.length fs = .ok (before.length + (packEntry zstd source input rel).length, next) ∧
      fs.Adds next (output ++ rel) .directory := by
  obtain ⟨next, created, adds⟩ := fs.createDirectory_adds output nonempty valid parent fresh
  refine ⟨next, ?_, adds⟩
  simp only [packEntry, listed, packPath]
  generalize archive : before ++ (0 :: (leBytes 8 (joinPath rel).length ++ joinPath rel) ++ after) =
    mapping
  have kind : readAt mapping before.length 1 = .ok [0] := by
    rw [← archive]
    exact readAt_append before [0] _
  have path : readSized mapping (before.length + 1) =
      .ok (joinPath rel, before.length + 1 + 8 + (joinPath rel).length) := by
    have split : mapping =
        before ++ [0] ++ (leBytes 8 (joinPath rel).length ++ (joinPath rel ++ after)) := by
      simp [← archive]
    have cursor : before.length + 1 = (before ++ [0]).length := by simp
    rw [split, cursor]
    exact readSized_append _ _ _ pathSized
  simp only [parseEntry, kind, path, createDirectory_files, created, bind, Except.bind, pure,
    Except.pure, if_true, List.length_cons, List.length_append, leBytes_length]
  congr 2
  omega

/-- The reader carries out a file record and stops right behind it. -/
theorem parseEntry_file {content : Bytes} (fileSized : content.length < 2 ^ 63)
    (listed : source.lookup (input ++ rel) = some (.file content)) :
    ∃ next, parseEntry zstd output (before ++ (packEntry zstd source input rel ++ after))
        before.length fs = .ok (before.length + (packEntry zstd source input rel).length, next) ∧
      fs.Adds next (output ++ rel) (.file content) := by
  refine ⟨_, ?_, fs.writeFile_adds output nonempty valid parent fresh content⟩
  have compressed := zstd.compress_sized content fileSized
  have restored := uncompress_compress zstd fileSized
  simp only [packEntry, listed, packPath]
  generalize zstd.compress content = compBuf at compressed restored
  generalize archive : before ++ (1 :: (leBytes 8 (joinPath rel).length ++ joinPath rel ++
    (leBytes 8 compBuf.length ++ compBuf)) ++ after) = mapping
  have kind : readAt mapping before.length 1 = .ok [1] := by
    rw [← archive]
    exact readAt_append before [1] _
  have path : readSized mapping (before.length + 1) =
      .ok (joinPath rel, before.length + 1 + 8 + (joinPath rel).length) := by
    have split : mapping = before ++ [1] ++ (leBytes 8 (joinPath rel).length ++
        (joinPath rel ++ (leBytes 8 compBuf.length ++ (compBuf ++ after)))) := by
      simp [← archive]
    have cursor : before.length + 1 = (before ++ [1]).length := by simp
    rw [split, cursor]
    exact readSized_append _ _ _ pathSized
  have split : mapping = before ++ [1] ++ leBytes 8 (joinPath rel).length ++ joinPath rel ++
      (leBytes 8 compBuf.length ++ (compBuf ++ after)) := by
    simp [← archive]
  have cursor : before.length + 1 + 8 + (joinPath rel).length =
      (before ++ [1] ++ leBytes 8 (joinPath rel).length ++ joinPath rel).length := by
    simp only [List.length_append, leBytes_length, List.length_singleton]
  have length : readAt mapping (before.length + 1 + 8 + (joinPath rel).length) 8 =
      .ok (leBytes 8 compBuf.length) := by
    have eight := readAt_append (before ++ [1] ++ leBytes 8 (joinPath rel).length ++ joinPath rel)
      (leBytes 8 compBuf.length) (compBuf ++ after)
    rwa [leBytes_length, ← split, ← cursor] at eight
  have there : mapping.drop (before.length + 1 + 8 + (joinPath rel).length + 8) =
      compBuf ++ after := by
    have behind : before.length + 1 + 8 + (joinPath rel).length + 8 = (before ++ [1] ++
        leBytes 8 (joinPath rel).length ++ joinPath rel ++ leBytes 8 compBuf.length).length := by
      simp only [List.length_append, leBytes_length, List.length_singleton]
    rw [split, behind, ← List.append_assoc, List.drop_left]
  have size : ofLe (leBytes 8 compBuf.length) = compBuf.length :=
    ofLe_leBytes_of_lt (Nat.lt_of_lt_of_eq compressed (by norm_num))
  have different : ([1] : Bytes) ≠ [0] := by decide
  simp only [parseEntry, kind, path, length, size, there, restored after, bind, Except.bind, pure,
    Except.pure, if_neg different, if_true, List.length_cons, List.length_append, leBytes_length]
  congr 2
  omega

end Records

/-- The reader's loop on a listing: every record is carried out and the cursor meets the end. -/
theorem parseLoopV0_listing (zstd : Zstd) (source initial : FileSystem) (input output : Path)
    (tree : Tree) (below : tree.Below source input) (listing : tree.Listing)
    (done rest : List (Path × Entry)) (listed : listing.items = done ++ rest) (before : Bytes)
    {mapping : Bytes} {archive : Path} (stored : initial.lookup archive = some (.file mapping))
    (absent : initial.lookup output = none)
    (split : mapping = before ++ (rest.map Prod.fst).flatMap (packEntry zstd source input))
    (fs : FileSystem) (restored : Restored initial output done fs) (fuel : ℕ)
    (enough : rest.length < fuel) :
    ∃ final, parseLoopV0 zstd archive output mapping.length fuel before.length fs =
      some (.ok (mapping.length, final)) ∧ Restored initial output listing.items final := by
  obtain ⟨fuel, rfl⟩ := Nat.exists_eq_succ_of_ne_zero (Nat.ne_zero_of_lt enough)
  induction rest generalizing done before fs fuel with
  | nil =>
    refine ⟨fs, by simp [parseLoopV0, split], ?_⟩
    rw [listed, List.append_nil]
    exact restored
  | cons item rest ih =>
    obtain ⟨rel, entry⟩ := item
    obtain ⟨fuel, rfl⟩ : ∃ previous, fuel = previous + 1 :=
      Nat.exists_eq_succ_of_ne_zero (by simp only [List.length_cons] at enough; omega)
    have member : (rel, entry) ∈ tree.entries :=
      listing.complete.mem_iff.mp (by rw [listed]; simp)
    have nonempty := tree.nonempty _ member
    have new : rel ∉ done.map Prod.fst := by
      have distinct := (listing.complete.map Prod.fst).nodup_iff.mpr tree.distinct
      rw [listed, List.map_append, List.map_cons, List.nodup_append] at distinct
      exact fun again => distinct.2.2 rel again rel (List.mem_cons_self ..) rfl
    have parent := restored.parent (listing.parent_mem listed)
    have found := (below.2 rel nonempty entry).mpr member
    rw [List.map_cons, List.flatMap_cons] at split
    obtain ⟨next, parsed, adds⟩ : ∃ next, parseEntry zstd output mapping before.length fs =
        .ok (before.length + (packEntry zstd source input rel).length, next) ∧
        fs.Adds next (output ++ rel) entry := by
      rw [split]
      cases entry with
      | directory =>
        exact parseEntry_directory zstd source fs input output nonempty (tree.valid _ member)
          (tree.pathSized _ member) parent (restored.fresh nonempty new) before _ found
      | file content =>
        exact parseEntry_file zstd source fs input output nonempty (tree.valid _ member)
          (tree.pathSized _ member) parent (restored.fresh nonempty new) before _
          (tree.fileSized _ member content rfl) found
    obtain ⟨final, rest_parsed, complete⟩ := ih (done ++ [(rel, entry)]) (by rw [listed]; simp)
      (before ++ packEntry zstd source input rel) (by rw [split, List.append_assoc]) next
      (restored.add nonempty new adds) fuel (by simpa using enough)
    refine ⟨final, ?_, complete⟩
    have written : packEntry zstd source input rel ≠ [] := by
      rw [packEntry, found]
      cases entry <;> exact List.cons_ne_nil _ _
    have inside : before.length ≠ mapping.length := by
      have positive := List.length_pos_iff.mpr written
      rw [split]
      simp only [List.length_append]
      omega
    rw [parseLoopV0, if_neg inside, restored.shown stored absent, parsed]
    rwa [List.length_append] at rest_parsed

/-- What is left of unpacking once the output directory is there. -/
theorem unpack_opened {φ : Type} [FileStore φ] {zstd : Decompressor} {input output : Path}
    {fs opened : φ} {mapping : Bytes} (present : FileStore.lookup fs input ≠ none)
    (absent : FileStore.lookup fs output = none) (made : FileStore.mkdir fs output = some opened)
    (stored : FileStore.content opened input = some mapping) (fuel : ℕ) :
    unpack zstd fuel input output fs = match mapping.head? with
      | none => some (.error .outOfBounds)
      | some version =>
        if version = 0 then parseV0 zstd fuel input output mapping.length opened
        else some (.error (.unknownVersion version)) := by
  rw [unpack, if_neg present, if_neg (by simp [absent]), made]
  cases first : mapping.head? with
  | none => simp only [stored, first]
  | some version => simp only [stored, first]

/-- Making the output directory leaves the archive where it is. -/
theorem content_opened {input output : Path} {fs opened : FileSystem} {mapping : Bytes}
    (stored : fs.lookup input = some (.file mapping)) (absent : fs.lookup output = none)
    (made : fs.mkdir output = some opened) : FileStore.content opened input = some mapping := by
  have other : input ≠ output := by
    rintro rfl
    rw [stored] at absent
    cases absent
  have same : FileStore.lookup opened input = some (.file mapping) := by
    change opened.lookup input = _
    rw [FileSystem.adds_of_mkdir absent made, if_neg other, stored]
  rw [FileStore.content, same]

/-- The whole reader on the archive of a tree. -/
theorem unpack_archive (zstd : Zstd) (tree : Tree) (source : FileSystem) (input : Path)
    (below : tree.Below source input) (listing : tree.Listing) (fs : FileSystem)
    (archive output : Path)
    (stored : fs.lookup archive =
      some (.file (pack zstd source input (listing.items.map Prod.fst))))
    (absent : fs.lookup output = none) (parent : fs.lookup output.dropLast = some .directory)
    (fuel : ℕ) (enough : tree.entries.length < fuel) :
    ∃ final, unpack zstd fuel archive output fs =
        some (.ok ((pack zstd source input (listing.items.map Prod.fst)).length, final)) ∧
      Restored fs output listing.items final := by
  obtain ⟨opened, created, adds⟩ := fs.mkdir_adds parent absent
  have enough : listing.items.length < fuel := by rw [listing.complete.length_eq]; exact enough
  obtain ⟨final, parsed, restored⟩ := parseLoopV0_listing zstd source fs input output tree below
    listing [] listing.items rfl [0] stored absent rfl opened (Restored.start absent adds) fuel enough
  have present : FileStore.lookup fs archive ≠ none := by
    change fs.lookup archive ≠ none
    simp [stored]
  refine ⟨final, ?_, restored⟩
  rw [unpack_opened present absent created (content_opened stored absent created)]
  exact parsed

theorem Restored.below {initial fs : FileSystem} {output : Path} {tree : Tree}
    {listing : tree.Listing} (restored : Restored initial output listing.items fs) :
    tree.Below fs output := by
  refine ⟨restored.directory, fun path nonempty entry => ?_⟩
  rw [restored.content path nonempty entry, listing.complete.mem_iff]

/-- Whatever tree lies below the packed directory, unpacking its archive into an absent directory
consumes the archive exactly, recreates the tree there and changes nothing else. -/
theorem unpack_pack (zstd : Zstd) (tree : Tree) (source : FileSystem) (input : Path)
    (below : tree.Below source input) (listing : tree.Listing) (fs : FileSystem)
    (archive output : Path)
    (stored : fs.lookup archive =
      some (.file (pack zstd source input (listing.items.map Prod.fst))))
    (absent : fs.lookup output = none) (parent : fs.lookup output.dropLast = some .directory)
    (fuel : ℕ) (enough : tree.entries.length < fuel) :
    ∃ final, unpack zstd fuel archive output fs =
        some (.ok ((pack zstd source input (listing.items.map Prod.fst)).length, final)) ∧
      tree.Below final output ∧
      ∀ query, ¬output <+: query → final.lookup query = fs.lookup query := by
  obtain ⟨final, unpacked, restored⟩ := unpack_archive zstd tree source input below listing fs
    archive output stored absent parent fuel enough
  exact ⟨final, unpacked, restored.below, restored.frame⟩

/-- A frame as zstd makes it of short incompressible input: a single segment with its content size and
one raw block. Longer input gets an eight-byte content size. -/
def storedFrame (content : Bytes) : Bytes :=
  if content.length < 256 then
    [0x28, 0xb5, 0x2f, 0xfd, 0x20, UInt8.ofNat content.length] ++
      (leBytes 3 (content.length * 8 + 1) ++ content)
  else
    [0x28, 0xb5, 0x2f, 0xfd, 0xe0] ++
      (leBytes 8 content.length ++ (leBytes 3 (content.length * 8 + 1) ++ content))

/-- What such a frame announces, and an error for others. -/
def storedSize (size : ℕ) : ByteReader ℕ :=
  if size < 6 then .done (2 ^ 64 - 2)
  else .read 4 fun descriptor =>
    if descriptor = 0x20 then .read 5 fun length => .done length.toNat
    else if descriptor = 0xe0 ∧ 13 ≤ size then
      (ByteReader.bytes 5 8).bind fun length => .done (ofLe length)
    else .done (2 ^ 64 - 2)

/-- What lies behind a header of this length, if there is room for it, and an error otherwise. -/
def storedBlock (capacity size header : ℕ) : ByteReader (ℕ × Bytes) :=
  if header ≤ size ∧ size - header ≤ capacity then
    (ByteReader.bytes header (size - header)).bind fun content =>
      .done (content.length, content ++ List.replicate (capacity - content.length) 0)
  else .done (2 ^ 64 - 1, List.replicate capacity 0)

def storedContent (capacity size : ℕ) : ByteReader (ℕ × Bytes) :=
  if size < 9 then .done (2 ^ 64 - 1, List.replicate capacity 0)
  else .read 4 fun descriptor => storedBlock capacity size (if descriptor = 0x20 then 9 else 16)

private theorem storedFrame_length (content : Bytes) :
    (storedFrame content).length = content.length + if content.length < 256 then 9 else 16 := by
  rw [storedFrame]
  split <;> simp <;> omega

private theorem within_storedSize (size : ℕ) : (storedSize size).Within size := by
  rw [storedSize]
  split
  · trivial
  · refine ⟨by omega, fun descriptor => ?_⟩
    dsimp only
    split
    · exact ⟨by omega, fun _ => trivial⟩
    · split
      · exact (ByteReader.within_bytes (by omega)).bind fun _ => trivial
      · trivial

private theorem within_storedBlock (capacity size header : ℕ) :
    (storedBlock capacity size header).Within size := by
  rw [storedBlock]
  split
  · rename_i fits
    have inside : header + (size - header) ≤ size := by omega
    exact (ByteReader.within_bytes inside).bind fun _ => trivial
  · trivial

private theorem within_storedContent (capacity size : ℕ) : (storedContent capacity size).Within size := by
  rw [storedContent]
  split
  · trivial
  · exact ⟨by omega, fun descriptor => within_storedBlock _ _ _⟩

private theorem run_storedSize {content : Bytes} (sized : content.length < 2 ^ 63) :
    (storedSize (storedFrame content).length).run (storedFrame content) = some content.length := by
  have long : ¬(storedFrame content).length < 6 := by
    rw [storedFrame_length]
    split <;> omega
  rw [storedSize, if_neg long]
  by_cases short : content.length < 256
  · simp [storedFrame, short, ByteReader.run, Nat.mod_eq_of_lt short]
  · have fits : content.length < 256 ^ 8 := by norm_num; omega
    have wide : 13 ≤ (storedFrame content).length := by
      rw [storedFrame_length, if_neg short]
      omega
    have inside : 5 + 8 ≤ (storedFrame content).length := wide
    have descriptor : (storedFrame content)[4]? = some 0xe0 := by simp [storedFrame, short]
    have length : ((storedFrame content).drop 5).take 8 = leBytes 8 content.length := by
      simp [storedFrame, short, List.take_left' (leBytes_length 8 content.length)]
    have other : ¬((0xe0 : UInt8) = 0x20) := by decide
    simp only [ByteReader.run, descriptor, if_neg other, wide, and_self, if_true,
      ByteReader.run_bind, ByteReader.run_bytes inside, length, Option.bind_some,
      ofLe_leBytes_of_lt fits]

private theorem run_storedBlock {content frame : Bytes} {header : ℕ}
    (size : frame.length = content.length + header) (behind : frame.drop header = content) :
    (storedBlock content.length frame.length header).run frame =
      some (content.length, content) := by
  have fits : header ≤ frame.length ∧ frame.length - header ≤ content.length := by omega
  have inside : header + (frame.length - header) ≤ frame.length := by omega
  have all : content.take (frame.length - header) = content := List.take_of_length_le (by omega)
  rw [storedBlock, if_pos fits]
  simp [ByteReader.run_bind, ByteReader.run_bytes inside, behind, all, ByteReader.run]

private theorem run_storedContent (content : Bytes) :
    (storedContent content.length (storedFrame content).length).run (storedFrame content) =
      some (content.length, content) := by
  have size := storedFrame_length content
  have long : ¬(storedFrame content).length < 9 := by
    rw [size]
    split <;> omega
  rw [storedContent, if_neg long]
  by_cases short : content.length < 256
  · rw [if_pos short] at size
    have descriptor : (storedFrame content)[4]? = some 0x20 := by simp [storedFrame, short]
    have behind : (storedFrame content).drop 9 = content := by
      simp [storedFrame, short, List.drop_left' (leBytes_length 3 (content.length * 8 + 1))]
    simp only [ByteReader.run, descriptor, if_true]
    exact run_storedBlock size behind
  · rw [if_neg short] at size
    have descriptor : (storedFrame content)[4]? = some 0xe0 := by simp [storedFrame, short]
    have header : (leBytes 8 content.length ++ leBytes 3 (content.length * 8 + 1)).length = 11 := by
      simp
    have rest : (leBytes 8 content.length ++ leBytes 3 (content.length * 8 + 1) ++ content).drop 11 =
        content := List.drop_left' header
    rw [List.append_assoc] at rest
    have behind : (storedFrame content).drop 16 = content := by simp [storedFrame, short, rest]
    have other : ¬((0xe0 : UInt8) = 0x20) := by decide
    simp only [ByteReader.run, descriptor, if_neg other]
    exact run_storedBlock size behind

/-- zstd as it treats these frames, on a machine with memory for everything, asserts compiled in. -/
def storedFrames : Zstd where
  compress := storedFrame
  getFrameContentSize := storedSize
  decompress := storedContent
  within_getFrameContentSize := within_storedSize
  within_decompress := within_storedContent
  serves _ := true
  asserts := true
  frameContentSize_compress _ sized := run_storedSize sized
  decompress_compress content _ := run_storedContent content
  serves_content _ _ := rfl
  compress_sized content sized := by
    rw [storedFrame_length]
    split <;> omega

/-- The file system with nothing but its root. -/
def rootOnly : FileSystem where
  lookup path := if path = [] then some .directory else none
  root := rfl
  closed := by
    intro parent name present
    simp at present

/-- A directory, a file in it, and an empty file. -/
def sampleTree : Tree where
  entries := [([str "lib"], .directory), ([str "lib", str "a.so"], .file (str "hi")),
    ([str "empty"], .file [])]
  distinct := by decide
  nonempty := by decide
  valid := by decide
  parents := by decide
  pathSized := by decide
  fileSized := by
    intro item member content isFile
    simp only [List.mem_cons, List.not_mem_nil, or_false] at member
    rcases member with rfl | rfl | rfl <;> cases isFile <;> decide

def sampleListing : sampleTree.Listing where
  items := sampleTree.entries
  complete := List.Perm.refl _
  parentsFirst := by decide

/-- The sample tree in the directory `/trace`. -/
def sampleSource : FileSystem :=
  (((rootOnly.put [str "trace"] .directory).put [str "trace", str "lib"] .directory).put
    [str "trace", str "lib", str "a.so"] (.file (str "hi"))).put
    [str "trace", str "empty"] (.file [])

theorem sampleTree_below : sampleTree.Below sampleSource [str "trace"] := by
  have opened : Restored rootOnly [str "trace"] [] (rootOnly.put [str "trace"] .directory) :=
    .start (by decide) (FileSystem.lookup_put (by decide) (by decide) (by decide))
  have lib : Restored rootOnly [str "trace"] [([str "lib"], .directory)] _ :=
    opened.put (by decide) (by decide) _ (by decide)
  have library : Restored rootOnly [str "trace"]
      [([str "lib"], .directory), ([str "lib", str "a.so"], .file (str "hi"))] _ :=
    lib.put (by decide) (by decide) _ (by decide)
  have empty : Restored rootOnly [str "trace"] sampleTree.entries sampleSource :=
    library.put (by decide) (by decide) _ (by decide)
  exact ⟨empty.directory, empty.content⟩

/-- The sample archive, stored as `/t.pack` and unpacked into `/out`. -/
theorem unpack_pack_sample :
    ∃ final, unpack storedFrames 4 [str "t.pack"] [str "out"]
        (rootOnly.put [str "t.pack"] (.file (pack storedFrames sampleSource [str "trace"]
          (sampleListing.items.map Prod.fst)))) =
        some (.ok (80, final)) ∧
      final.lookup [str "out", str "lib", str "a.so"] = some (.file (str "hi")) := by
  obtain ⟨final, unpacked, below, _⟩ := unpack_pack storedFrames sampleTree sampleSource
    [str "trace"] sampleTree_below sampleListing
    (rootOnly.put [str "t.pack"] (.file (pack storedFrames sampleSource [str "trace"]
      (sampleListing.items.map Prod.fst)))) [str "t.pack"] [str "out"] (by decide) (by decide)
    (by decide) 4 (by decide)
  have length : (pack storedFrames sampleSource [str "trace"]
    (sampleListing.items.map Prod.fst)).length = 80 := by decide
  rw [length] at unpacked
  exact ⟨final, unpacked, (below.2 [str "lib", str "a.so"] (by decide) _).mpr (by decide)⟩

end DpcppTrace.Soundness
