import DpcppTrace.Soundness.ArchiveBounds

/-! # Unpacking a part of an archive

An archive has no count of its records and no sum, so a reader of its first bytes cannot tell that more
belonged to it. Where the bytes end with a record, what they hold is restored as if it were all; anywhere
else the reader leaves the mapping.
-/

namespace DpcppTrace.Soundness

open Foundation Model

/-! ## A record that is cut -/

section Cuts

variable {zstd : Decompressor} {mapping front text after : Bytes} {mSize count cursor : ℕ}

/-- The length in front of a text, as far as the mapping holds it. -/
theorem sizeAt_take (sized : text.length < 2 ^ 64)
    (split : mapping = front ++ (leBytes 8 text.length ++ (text ++ after)).take count)
    (here : cursor = front.length) (length : 8 ≤ count) : sizeAt mapping cursor = text.length := by
  rw [sizeAt, split, here, List.drop_left, List.take_take, Nat.min_eq_left length,
    List.take_left' (leBytes_length 8 _)]
  apply ofLe_leBytes_of_lt
  exact Nat.lt_of_lt_of_eq sized (by norm_num)

private theorem length_split
    (split : mapping = front ++ (leBytes 8 text.length ++ (text ++ after)).take count) (here : cursor = front.length) :
    mapping.length = cursor + min count (8 + (text.length + after.length)) := by
  rw [split, here]
  simp

/-- A mapping that holds a length and all that it announces holds the text behind it. -/
theorem SizedWhole.text_le (sized : text.length < 2 ^ 64)
    (split : mapping = front ++ (leBytes 8 text.length ++ (text ++ after)).take count)
    (here : cursor = front.length) (whole : SizedWhole mapping cursor) : 8 + text.length ≤ count := by
  obtain ⟨length, inside⟩ := whole
  have bytes := length_split split here
  have eight : 8 ≤ count := by omega
  rw [sizeAt_take sized split here eight] at inside
  omega

theorem RecordInside.directory {rest : Bytes} (same : mapping = front ++ 0 :: rest)
    (inside : RecordInside zstd mSize mapping front.length) :
    SizedWhole mapping (front.length + 1) := by
  have kind : mapping[front.length]? = some 0 := by simp [same]
  rw [RecordInside, kind] at inside
  exact inside

theorem RecordInside.file {rest : Bytes} (same : mapping = front ++ 1 :: rest)
    (inside : RecordInside zstd mSize mapping front.length) :
    SizedWhole mapping (front.length + 1) ∧
      FrameInside zstd mSize mapping (front.length + 1 + 8 + sizeAt mapping (front.length + 1)) := by
  have kind : mapping[front.length]? = some 1 := by simp [same]
  rw [RecordInside, kind] at inside
  exact inside

/-- zstd does not refuse the first bytes of a frame: it reads behind them, or they were enough. -/
theorem not_refused_prefix (zstd : Zstd) {content early : Bytes} (sized : content.length < 2 ^ 63)
    (short : early <+: zstd.compress content) :
    ¬FrameRefused zstd (zstd.compress content).length early := by
  rintro ⟨maxSize, announced, refuses⟩
  have served := zstd.serves_content content sized
  rcases ByteReader.run_prefix short (zstd.frameContentSize_compress content sized) with none_ | same
  · rw [none_] at announced
    cases announced
  · obtain rfl := Option.some.inj (announced.symm.trans same)
    rcases refuses with (large | unserved) | ⟨-, decSize, buf, decoded, other⟩
    · omega
    · rw [served] at unserved
      cases unserved
    · rcases ByteReader.run_prefix short (zstd.decompress_compress content sized) with none_ | same
      · rw [none_] at decoded
        cases decoded
      · obtain ⟨rfl, -⟩ := Prod.mk.inj (Option.some.inj (decoded.symm.trans same))
        exact other rfl

/-- The first bytes of a frame do not keep the reader inside. -/
theorem frame_cut (zstd : Zstd) {content : Bytes} (sized : content.length < 2 ^ 63)
    (split : mapping = front ++
      (leBytes 8 (zstd.compress content).length ++ zstd.compress content).take count)
    (here : cursor = front.length) (cut : count < 8 + (zstd.compress content).length) :
    ¬FrameInside zstd mapping.length mapping cursor := by
  have frameSized := zstd.compress_sized content sized
  have split' : mapping = front ++ (leBytes 8 (zstd.compress content).length ++
      (zstd.compress content ++ [])).take count := by rw [split, List.append_nil]
  have bytes := length_split split' here
  intro inside
  have sizeAt_eq (length : cursor + 8 ≤ mapping.length) :
      sizeAt mapping cursor = (zstd.compress content).length :=
    sizeAt_take frameSized split' here (by omega)
  cases inside with
  | whole whole =>
    have text := SizedWhole.text_le frameSized split' here whole
    omega
  | refused length refuses =>
    have early : mapping.drop (cursor + 8) = (zstd.compress content).take (count - 8) := by
      rw [split, here, List.drop_length_add_append, List.drop_take,
        List.drop_left' (leBytes_length 8 _)]
    rw [sizeAt_eq length, early] at refuses
    exact not_refused_prefix zstd sized (List.take_prefix _ _) refuses
  | decoded length _ ends =>
    rw [sizeAt_eq length] at ends
    simp only [List.length_nil] at bytes
    omega

end Cuts

section Records

variable {zstd : Zstd} {source : FileSystem} {input rel : Path}

private theorem directory_cut (pathSized : (joinPath rel).length < 2 ^ 64) {before mapping : Bytes}
    {count : ℕ} (split : mapping = before ++ 0 :: (packPath rel).take count)
    (cut : count < 8 + (joinPath rel).length) :
    ¬RecordInside zstd mapping.length mapping before.length := by
  intro inside
  have behind : mapping = (before ++ [0]) ++
      (leBytes 8 (joinPath rel).length ++ (joinPath rel ++ [])).take count := by
    simp [split, packPath]
  have text := SizedWhole.text_le pathSized behind (by simp) (inside.directory split)
  omega

private theorem file_cut (pathSized : (joinPath rel).length < 2 ^ 64) {content : Bytes}
    (sized : content.length < 2 ^ 63) {before mapping : Bytes} {count : ℕ}
    (split : mapping = before ++ 1 :: (packPath rel ++
      (leBytes 8 (zstd.compress content).length ++ zstd.compress content)).take count)
    (cut : count < 8 + (joinPath rel).length + (8 + (zstd.compress content).length)) :
    ¬RecordInside zstd mapping.length mapping before.length := by
  intro inside
  obtain ⟨path, data⟩ := inside.file split
  have text : mapping = (before ++ [1]) ++ (leBytes 8 (joinPath rel).length ++ (joinPath rel ++
      (leBytes 8 (zstd.compress content).length ++ zstd.compress content))).take count := by
    simp [split, packPath]
  have whole := SizedWhole.text_le pathSized text (by simp) path
  rw [sizeAt_take pathSized text (by simp) (by omega)] at data
  have width : (packPath rel).length = 8 + (joinPath rel).length := by simp [packPath]
  have behind : mapping = (before ++ [1] ++ packPath rel) ++
      (leBytes 8 (zstd.compress content).length ++ zstd.compress content).take
        (count - (8 + (joinPath rel).length)) := by
    rw [split, List.take_append, width, List.take_of_length_le (by omega)]
    simp
  refine frame_cut zstd sized behind ?_ (by omega) data
  rw [List.length_append, List.length_append, List.length_singleton, width]
  omega

/-- The first bytes of a record do not keep the reader inside. -/
theorem record_cut (pathSized : (joinPath rel).length < 2 ^ 64)
    (fileSized : ∀ content, source.lookup (input ++ rel) = some (.file content) → content.length < 2 ^ 63)
    {before mapping : Bytes} {count : ℕ}
    (split : mapping = before ++ (packEntry zstd source input rel).take count)
    (cut : count < (packEntry zstd source input rel).length) :
    ¬RecordInside zstd mapping.length mapping before.length := by
  cases count with
  | zero => simp [split, RecordInside]
  | succ count =>
    cases found : source.lookup (input ++ rel) with
    | none =>
      rw [packEntry, found] at cut
      cases cut
    | some entry =>
      cases entry with
      | directory =>
        simp only [packEntry, found, List.take_succ_cons, packPath, List.length_cons,
          List.length_append, leBytes_length] at split cut
        exact directory_cut pathSized split (by omega)
      | file content =>
        simp only [packEntry, found, List.take_succ_cons] at split
        simp only [packEntry, found, packPath, List.length_cons, List.length_append,
          leBytes_length] at cut
        exact file_cut pathSized (fileSized content found) split (by omega)

end Records

/-! ## The loop -/

/-- The records of a part of the listing. -/
def records (zstd : Zstd) (source : FileSystem) (input : Path) (items : List (Path × Entry)) : Bytes :=
  (items.map Prod.fst).flatMap (packEntry zstd source input)

private theorem records_cons (zstd : Zstd) (source : FileSystem) (input : Path) (item : Path × Entry)
    (items : List (Path × Entry)) : records zstd source input (item :: items) =
      packEntry zstd source input item.1 ++ records zstd source input items := List.flatMap_cons

section Loop

variable (zstd : Zstd) {source initial : FileSystem} {input output archive : Path} {mapping : Bytes}
  {tree : Tree} (below : tree.Below source input) (listing : tree.Listing)

/-- The reader comes to the end of so many of the records that are left, where their bytes end, and
restores them; and if the bytes end between records of the listing, it does not. -/
def RestoresFront (zstd : Zstd) (source initial : FileSystem) (input output archive : Path) (mSize : ℕ)
    (done rest : List (Path × Entry)) (fuel start count : ℕ) (fs : FileSystem) : Prop :=
  ∃ front back final, rest = front ++ back ∧ count = (records zstd source input front).length ∧
    parseLoopV0 zstd archive output mSize fuel start fs = some (.ok (start + count, final)) ∧
    Restored initial output (done ++ front) final

/-- The bytes end within a record, and the reader leaves the mapping. -/
def LeavesMapping (zstd : Zstd) (source : FileSystem) (input output archive : Path) (mSize : ℕ)
    (rest : List (Path × Entry)) (fuel start count : ℕ) (fs : FileSystem) : Prop :=
  (∀ front back, rest = front ++ back → count ≠ (records zstd source input front).length) ∧
    parseLoopV0 zstd archive output mSize fuel start fs = some (.error .outOfBounds)

include below listing

/-- The reader carries out the next record of a listing. -/
theorem parseEntry_listed {done rest : List (Path × Entry)} {item : Path × Entry}
    (listed : listing.items = done ++ item :: rest) {fs : FileSystem}
    (restored : Restored initial output done fs) (before after : Bytes) :
    ∃ next, parseEntry zstd output (before ++ (packEntry zstd source input item.1 ++ after))
        before.length fs = .ok (before.length + (packEntry zstd source input item.1).length, next) ∧
      Restored initial output (done ++ [item]) next := by
  obtain ⟨rel, entry⟩ := item
  have member : (rel, entry) ∈ tree.entries := listing.complete.mem_iff.mp (by rw [listed]; simp)
  have nonempty := tree.nonempty _ member
  have new : rel ∉ done.map Prod.fst := by
    have distinct := (listing.complete.map Prod.fst).nodup_iff.mpr tree.distinct
    rw [listed, List.map_append, List.map_cons, List.nodup_append] at distinct
    exact fun again => distinct.2.2 rel again rel (List.mem_cons_self ..) rfl
  have parent := restored.parent (listing.parent_mem listed)
  have found := (below.2 rel nonempty entry).mpr member
  cases entry with
  | directory =>
    obtain ⟨next, parsed, adds⟩ := parseEntry_directory zstd source fs input output nonempty
      (tree.valid _ member) (tree.pathSized _ member) parent (restored.fresh nonempty new) before after
      found
    exact ⟨next, parsed, restored.add nonempty new adds⟩
  | file content =>
    obtain ⟨next, parsed, adds⟩ := parseEntry_file zstd source fs input output nonempty
      (tree.valid _ member) (tree.pathSized _ member) parent (restored.fresh nonempty new) before after
      (tree.fileSized _ member content rfl) found
    exact ⟨next, parsed, restored.add nonempty new adds⟩

/-- A listed entry has a record, and its sizes are those of the tree. -/
theorem listed_sized {done rest : List (Path × Entry)} {item : Path × Entry}
    (listed : listing.items = done ++ item :: rest) :
    0 < (packEntry zstd source input item.1).length ∧ (joinPath item.1).length < 2 ^ 64 ∧
      ∀ content, source.lookup (input ++ item.1) = some (.file content) → content.length < 2 ^ 63 := by
  have member : item ∈ tree.entries := listing.complete.mem_iff.mp (by rw [listed]; simp)
  have found := (below.2 item.1 (tree.nonempty _ member) item.2).mpr member
  refine ⟨?_, tree.pathSized _ member, fun content file =>
    tree.fileSized _ member content (Option.some.inj (found.symm.trans file))⟩
  rw [packEntry, found]
  cases item.2 <;> exact Nat.succ_pos _

variable (stored : initial.lookup archive = some (.file mapping))
  (absent : initial.lookup output = none)

include stored absent

/-- Where the bytes end within the next record, the reader leaves the mapping. -/
theorem leavesMapping_of_cut {done rest : List (Path × Entry)} {item : Path × Entry}
    (listed : listing.items = done ++ item :: rest) {before : Bytes} {fs : FileSystem}
    (restored : Restored initial output done fs) {count : ℕ} (some_ : 0 < count)
    (cut : count < (packEntry zstd source input item.1).length)
    (split : mapping = before ++ (packEntry zstd source input item.1).take count) (fuel : ℕ) :
    LeavesMapping zstd source input output archive mapping.length (item :: rest) (fuel + 2) before.length
      count fs := by
  obtain ⟨-, pathSized, fileSized⟩ := listed_sized zstd below listing listed
  refine ⟨fun front back parts same => ?_, ?_⟩
  · cases front with
    | nil => exact absurd same (Nat.ne_of_gt some_)
    | cons other front =>
      obtain ⟨rfl, -⟩ := List.cons.inj parts
      rw [records_cons, List.length_append] at same
      omega
  · have outside := record_cut pathSized fileSized split cut
    have going : before.length ≠ mapping.length := by
      rw [split, List.length_append, List.length_take]
      omega
    apply parseLoopV0_outside (before.length, fs) going
    rwa [restored.shown stored absent]

omit below listing stored absent in
/-- Where no bytes are left, the cursor stands at the end. -/
theorem restores_nothing {done rest : List (Path × Entry)} {before : Bytes} {fs : FileSystem}
    (restored : Restored initial output done fs) (split : mapping = before) (fuel : ℕ) :
    RestoresFront zstd source initial input output archive mapping.length done rest (fuel + 1)
      before.length 0 fs := by
  refine ⟨[], rest, fs, rfl, rfl, ?_, by rwa [List.append_nil]⟩
  rw [parseLoopV0, if_pos (by rw [split]), Nat.add_zero]

/-- A record that is whole is carried out, and what becomes of the rest is decided behind it. -/
theorem parseLoopV0_whole {done rest : List (Path × Entry)} {item : Path × Entry}
    (listed : listing.items = done ++ item :: rest) {before : Bytes} {fs : FileSystem}
    (restored : Restored initial output done fs) {after : Bytes}
    (split : mapping = before ++ (packEntry zstd source input item.1 ++ after)) (fuel : ℕ) :
    ∃ next, Restored initial output (done ++ [item]) next ∧
      parseLoopV0 zstd archive output mapping.length (fuel + 1) before.length fs =
        parseLoopV0 zstd archive output mapping.length fuel
          (before ++ packEntry zstd source input item.1).length next := by
  obtain ⟨written, -⟩ := listed_sized zstd below listing listed
  obtain ⟨next, parsed, carried⟩ :=
    parseEntry_listed zstd below listing listed restored before after
  have going : before.length ≠ mapping.length := by
    rw [split]
    simp only [List.length_append]
    omega
  refine ⟨next, carried, ?_⟩
  rw [← split] at parsed
  rw [parseLoopV0, if_neg going, restored.shown stored absent, parsed, List.length_append]

/-- What becomes of the first bytes of the records that are left: those that end with a record are
carried out, others take the reader out of the mapping. -/
theorem parseLoopV0_take {done rest : List (Path × Entry)} (listed : listing.items = done ++ rest)
    (before : Bytes) {fs : FileSystem} (restored : Restored initial output done fs) {count : ℕ}
    (short : count ≤ (records zstd source input rest).length)
    (split : mapping = before ++ (records zstd source input rest).take count) {fuel : ℕ}
    (enough : rest.length < fuel) :
    RestoresFront zstd source initial input output archive mapping.length done rest fuel before.length count
        fs ∨
      LeavesMapping zstd source input output archive mapping.length rest fuel before.length count fs := by
  obtain ⟨fuel, rfl⟩ := Nat.exists_eq_succ_of_ne_zero (Nat.ne_zero_of_lt enough)
  induction rest generalizing done before fs count fuel with
  | nil =>
    obtain rfl : count = 0 := Nat.le_zero.mp short
    exact .inl (restores_nothing zstd restored (by simpa using split) fuel)
  | cons item rest ih =>
    obtain ⟨fuel, rfl⟩ : ∃ previous, fuel = previous + 1 :=
      Nat.exists_eq_succ_of_ne_zero (by simp only [List.length_cons] at enough; omega)
    rw [records_cons] at split short
    rcases Nat.eq_zero_or_pos count with rfl | some_
    · exact .inl (restores_nothing zstd restored (by simpa using split) _)
    rcases Nat.lt_or_ge count (packEntry zstd source input item.1).length with cut | whole
    · rw [List.take_append_of_le_length (Nat.le_of_lt cut)] at split
      exact .inr (leavesMapping_of_cut zstd below listing stored absent listed restored some_ cut split fuel)
    obtain ⟨left, rfl⟩ := Nat.exists_eq_add_of_le whole
    rw [List.take_append, List.take_of_length_le (Nat.le_add_right _ _), Nat.add_sub_cancel_left] at split
    rw [List.length_append] at short
    obtain ⟨next, carried, step⟩ := parseLoopV0_whole zstd below listing stored absent listed restored
      split (fuel + 1)
    have cursor : before.length + ((packEntry zstd source input item.1).length + left) =
        (before ++ packEntry zstd source input item.1).length + left := by
      rw [List.length_append, Nat.add_assoc]
    have later := ih (by rw [listed]; simp : listing.items = (done ++ [item]) ++ rest)
      (before ++ packEntry zstd source input item.1) carried (Nat.le_of_add_le_add_left short)
      (by rw [split, List.append_assoc]) fuel (by simpa using enough)
    rcases later with ⟨front, back, final, parts, same, ran, held⟩ | ⟨between, ran⟩
    · refine .inl ⟨item :: front, back, final, by rw [parts]; rfl, ?_, ?_, by simpa using held⟩
      · rw [records_cons, List.length_append, same]
      · rw [step, cursor]
        exact ran
    · refine .inr ⟨fun front back parts same => ?_, step.trans ran⟩
      cases front with
      | nil => exact absurd same (Nat.ne_of_gt some_)
      | cons other front =>
        obtain ⟨rfl, others⟩ := List.cons.inj parts
        rw [records_cons, List.length_append] at same
        exact between front back others (Nat.add_left_cancel same)

end Loop

/-- The first bytes of an archive are unpacked without complaint exactly where they end with a record:
then the entries up to there are restored, and only they, whatever was to follow. Everywhere else, and
where there are no bytes at all, the reader leaves the mapping. -/
theorem unpack_truncated (zstd : Zstd) (tree : Tree) (source : FileSystem) (input : Path)
    (below : tree.Below source input) (listing : tree.Listing) (fs : FileSystem)
    (archive output : Path) (count : ℕ)
    (short : count ≤ (pack zstd source input (listing.items.map Prod.fst)).length)
    (stored : fs.lookup archive =
      some (.file ((pack zstd source input (listing.items.map Prod.fst)).take count)))
    (absent : fs.lookup output = none) (parent : fs.lookup output.dropLast = some .directory)
    (fuel : ℕ) (enough : tree.entries.length < fuel) :
    (∃ entries final,
        count = (pack zstd source input ((listing.items.take entries).map Prod.fst)).length ∧
        unpack zstd fuel archive output fs = some (.ok (count, final)) ∧
        Restored fs output (listing.items.take entries) final) ∨
      ((∀ entries,
          count ≠ (pack zstd source input ((listing.items.take entries).map Prod.fst)).length) ∧
        unpack zstd fuel archive output fs = some (.error .outOfBounds)) := by
  obtain ⟨opened, created, adds⟩ := fs.mkdir_adds parent absent
  have enough : listing.items.length < fuel := by rwa [listing.complete.length_eq]
  have packed (items : List (Path × Entry)) : pack zstd source input (items.map Prod.fst) =
      0 :: records zstd source input items := rfl
  have present : FileStore.lookup fs archive ≠ none := by simp [stored]
  rw [unpack_opened present absent created (content_opened stored absent created)]
  simp only [packed, List.length_cons] at short stored ⊢
  cases count with
  | zero => exact .inr ⟨fun entries => Nat.zero_ne_add_one _, rfl⟩
  | succ count =>
    have all : listing.items = [] ++ listing.items := rfl
    have ran := parseLoopV0_take zstd below listing stored absent all [0]
      (Restored.start absent adds) (Nat.le_of_succ_le_succ short) (List.take_succ_cons) enough
    have length : (List.take (count + 1) (0 :: records zstd source input listing.items)).length =
        count + 1 := by
      rw [List.length_take, List.length_cons]
      omega
    simp only [List.take_succ_cons, List.head?_cons, if_true, parseV0] at ran length ⊢
    rcases ran with ⟨front, back, final, split, same, ran, held⟩ | ⟨between, ran⟩
    · have taken : listing.items.take front.length = front := by rw [split, List.take_left]
      refine .inl ⟨front.length, final, ?_, ?_, ?_⟩
      · rw [taken, same]
      · rw [Nat.add_comm count 1]
        exact ran
      · rwa [taken]
    · refine .inr ⟨fun entries same => ?_, ran⟩
      apply between (listing.items.take entries) (listing.items.drop entries)
        (List.take_append_drop _ _).symm
      omega

/-- The file system with the first bytes of the sample archive. -/
def sampleFront (count : ℕ) : FileSystem :=
  rootOnly.put [str "t.pack"] (.file ((pack storedFrames sampleSource [str "trace"]
    (sampleListing.items.map Prod.fst)).take count))

/-- Thirteen bytes hold the first directory; its file and the other file are not missed. -/
theorem unpack_truncated_sample :
    ∃ final, unpack storedFrames 4 [str "t.pack"] [str "out"] (sampleFront 13) =
        some (.ok (13, final)) ∧
      final.lookup [str "out", str "lib"] = some .directory := by
  have ended : (pack storedFrames sampleSource [str "trace"]
      ((sampleListing.items.take 1).map Prod.fst)).length = 13 := by decide
  rcases unpack_truncated storedFrames sampleTree sampleSource [str "trace"] sampleTree_below sampleListing
    (sampleFront 13) [str "t.pack"] [str "out"] 13 (by decide) (by decide) (by decide) (by decide) 4
    (by decide) with ⟨entries, final, same, unpacked, restored⟩ | ⟨between, -⟩
  · refine ⟨final, unpacked, ?_⟩
    apply (restored.content [str "lib"] (List.cons_ne_nil _ _) _).mpr
    cases entries with
    | zero => exact absurd same (by decide)
    | succ entries => exact List.mem_cons_self
  · exact absurd ended.symm (between 1)

end DpcppTrace.Soundness
