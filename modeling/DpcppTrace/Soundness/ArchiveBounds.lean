import DpcppTrace.Soundness.Archive
import Mathlib.Logic.Relation

/-! # Unpacking arbitrary bytes

The reader of an archive trusts it: an empty archive has no version byte, and the loop ends only where
the cursor meets the end of the mapping exactly, while lengths from the archive advance it. A record
that is not whole takes a read, or the cursor, out of the mapping, unless zstd refuses its frame first.
-/

namespace DpcppTrace.Soundness

open Foundation Model

variable {φ : Type} [FileStore φ] {zstd : Decompressor} {input output : Path} {mapping : Bytes}
  {mSize : ℕ} {fs : φ}

/-! ## Records that keep the reader inside -/

/-- The length at this place. -/
def sizeAt (mapping : Bytes) (mapIt : ℕ) : ℕ := ofLe ((mapping.drop mapIt).take 8)

/-- A length at this place, and as many bytes behind it, lie inside the mapping. -/
def SizedWhole (mapping : Bytes) (mapIt : ℕ) : Prop :=
  mapIt + 8 ≤ mapping.length ∧ mapIt + 8 + sizeAt mapping mapIt ≤ mapping.length

/-- A content size for which there is no buffer. -/
def Unserved (zstd : Decompressor) (maxSize : ℕ) : Prop :=
  maxSize ≥ 2 ^ 63 ∨ zstd.serves maxSize = false

/-- From the bytes that are there zstd reads a content size for which there is no buffer; or, if that is
asserted, finds another size than the announced one. -/
def FrameRefused (zstd : Decompressor) (size : ℕ) (there : Bytes) : Prop :=
  ∃ maxSize, (zstd.getFrameContentSize size).run there = some maxSize ∧
    (Unserved zstd maxSize ∨ zstd.asserts = true ∧ ∃ decSize buf,
      (zstd.decompress maxSize size).run there = some (decSize, buf) ∧ maxSize ≠ decSize)

/-- The frame with its length at this place is whole; or zstd refuses it on the bytes that are there; or
they are enough for zstd and the frame ends in the mapping, which matters where the archive was
overwritten with fewer bytes than were mapped. -/
inductive FrameInside (zstd : Decompressor) (mSize : ℕ) (mapping : Bytes) (mapIt : ℕ) : Prop
  | whole (sized : SizedWhole mapping mapIt)
  | refused (length : mapIt + 8 ≤ mapping.length)
      (refuses : FrameRefused zstd (sizeAt mapping mapIt) (mapping.drop (mapIt + 8)))
  | decoded (length : mapIt + 8 ≤ mapping.length) {buf : Bytes}
      (decodes : uncompress zstd (sizeAt mapping mapIt) (mapping.drop (mapIt + 8)) = .ok buf)
      (ends : mapIt + 8 + sizeAt mapping mapIt ≤ mSize)

/-- The record at this place keeps the reader inside the mapping; one of an unknown kind is its kind
only. -/
def RecordInside (zstd : Decompressor) (mSize : ℕ) (mapping : Bytes) (mapIt : ℕ) : Prop :=
  match mapping[mapIt]? with
  | none => False
  | some kind =>
    if kind = 0 then SizedWhole mapping (mapIt + 1)
    else if kind = 1 then
      SizedWhole mapping (mapIt + 1) ∧
        FrameInside zstd mSize mapping (mapIt + 1 + 8 + sizeAt mapping (mapIt + 1))
    else True

private theorem readSized_whole {mapIt : ℕ} (whole : SizedWhole mapping mapIt) :
    ∃ text, readSized mapping mapIt = .ok (text, mapIt + 8 + sizeAt mapping mapIt) := by
  obtain ⟨length, text⟩ := whole
  rw [sizeAt] at text ⊢
  simp only [readSized, readAt, if_pos length, bind, Except.bind, if_pos text]
  exact ⟨_, rfl⟩

private theorem readSized_cut {mapIt : ℕ} (cut : ¬SizedWhole mapping mapIt) :
    readSized mapping mapIt = .error .outOfBounds := by
  simp only [readSized, readAt, bind, Except.bind]
  by_cases length : mapIt + 8 ≤ mapping.length
  · have text : ¬mapIt + 8 + ofLe ((mapping.drop mapIt).take 8) ≤ mapping.length :=
      fun text => cut ⟨length, text⟩
    simp only [if_pos length, if_neg text]
  · simp only [if_neg length]

private theorem readAt_kind {mapIt : ℕ} {kind : UInt8} (here : mapping[mapIt]? = some kind) :
    readAt mapping mapIt 1 = .ok [kind] := by
  obtain ⟨inside, same⟩ := List.getElem?_eq_some_iff.mp here
  rw [readAt, if_pos (by omega), List.drop_eq_getElem_cons inside, same]
  rfl

theorem readAt_outside {mapIt count : ℕ} (outside : mapping.length < mapIt + count) :
    readAt mapping mapIt count = .error .outOfBounds := by
  rw [readAt, if_neg (by omega)]

/-- A frame is refused, or read outside of what is there, or decoded. -/
theorem refused_iff {size : ℕ} {there : Bytes} :
    FrameRefused zstd size there ↔
      ∃ fault, uncompress zstd size there = .error fault ∧ fault ≠ .outOfBounds := by
  rw [FrameRefused, uncompress]
  cases (zstd.getFrameContentSize size).run there with
  | none => simp
  | some maxSize =>
    simp only [Option.some.injEq, exists_eq_left', Unserved]
    by_cases unserved : maxSize ≥ 2 ^ 63 ∨ zstd.serves maxSize = false
    · rw [if_pos unserved]
      exact iff_of_true (.inl unserved) ⟨_, rfl, by simp⟩
    · rw [if_neg unserved]
      cases (zstd.decompress maxSize size).run there with
      | none =>
        refine iff_of_false ?_ (by simp)
        rintro (unserved' | ⟨-, _, _, same, -⟩)
        · exact unserved unserved'
        · cases same
      | some result =>
        obtain ⟨decSize, buf⟩ := result
        by_cases asserted : zstd.asserts = true ∧ maxSize ≠ decSize
        · simp only [if_pos asserted]
          exact iff_of_true (.inr ⟨asserted.1, decSize, buf, rfl, asserted.2⟩) ⟨_, rfl, by simp⟩
        · simp only [if_neg asserted]
          refine iff_of_false ?_ (by simp)
          rintro (unserved' | ⟨asserts, decSize', buf', same, different⟩)
          · exact unserved unserved'
          · obtain ⟨rfl, -⟩ := Prod.mk.inj (Option.some.inj same)
            exact asserted ⟨asserts, different⟩

/-- zstd does not read outside of a frame that is there. -/
theorem uncompress_whole {size : ℕ} {there : Bytes} (whole : size ≤ there.length) :
    uncompress zstd size there ≠ .error .outOfBounds := by
  obtain ⟨maxSize, announced⟩ := (zstd.within_getFrameContentSize size).returns whole
  obtain ⟨result, decoded⟩ := (zstd.within_decompress maxSize size).returns whole
  simp only [uncompress, announced, decoded]
  repeat' split
  all_goals simp

/-- So much for the file records: what zstd makes of the frame, and where the cursor goes. -/
theorem parseEntry_file_eq (zstd : Decompressor) (output : Path) (fs : φ) {mapIt : ℕ}
    (here : mapping[mapIt]? = some 1) (path : SizedWhole mapping (mapIt + 1)) :
    ∃ text, parseEntry zstd output mapping mapIt fs =
      if mapIt + 1 + 8 + sizeAt mapping (mapIt + 1) + 8 ≤ mapping.length then
        (uncompress zstd (sizeAt mapping (mapIt + 1 + 8 + sizeAt mapping (mapIt + 1)))
          (mapping.drop (mapIt + 1 + 8 + sizeAt mapping (mapIt + 1) + 8))).map fun buf =>
            (mapIt + 1 + 8 + sizeAt mapping (mapIt + 1) + 8 +
              sizeAt mapping (mapIt + 1 + 8 + sizeAt mapping (mapIt + 1)),
              FileStore.writeFile fs output text buf)
      else .error .outOfBounds := by
  obtain ⟨text, read⟩ := readSized_whole path
  refine ⟨text, ?_⟩
  have different : ¬([1] : Bytes) = [0] := by decide
  simp only [parseEntry, readAt_kind here, bind, Except.bind, if_neg different, if_true, read]
  generalize mapIt + 1 + 8 + sizeAt mapping (mapIt + 1) = cursor
  by_cases length : cursor + 8 ≤ mapping.length
  · have announced : ofLe ((mapping.drop cursor).take 8) = sizeAt mapping cursor := rfl
    simp only [readAt, if_pos length, announced]
    cases uncompress zstd (sizeAt mapping cursor) (mapping.drop (cursor + 8)) <;> rfl
  · simp only [readAt, if_neg length]

/-- A frame that does not keep the reader inside takes a read, or the cursor, out of the mapping. -/
private theorem file_outside (output : Path) (fs : φ) {mapIt : ℕ} (here : mapping[mapIt]? = some 1)
    (path : SizedWhole mapping (mapIt + 1))
    (outside : ¬FrameInside zstd mSize mapping (mapIt + 1 + 8 + sizeAt mapping (mapIt + 1))) :
    parseEntry zstd output mapping mapIt fs = .error .outOfBounds ∨
      ∃ next, parseEntry zstd output mapping mapIt fs = .ok next ∧ mSize < next.1 := by
  obtain ⟨text, ran⟩ := parseEntry_file_eq zstd output fs here path
  rw [ran]
  generalize mapIt + 1 + 8 + sizeAt mapping (mapIt + 1) = cursor at outside
  split
  · rename_i length
    cases decoded : uncompress zstd (sizeAt mapping cursor) (mapping.drop (cursor + 8)) with
    | error fault =>
      by_cases escapes : fault = .outOfBounds
      · exact .inl (by rw [escapes]; rfl)
      · exact absurd (.refused length (refused_iff.mpr ⟨fault, decoded, escapes⟩)) outside
    | ok buf =>
      refine .inr ⟨_, rfl, ?_⟩
      by_contra inside
      exact outside (.decoded length decoded (not_lt.mp inside))
  · exact .inl rfl

/-- A record that does not keep the reader inside takes a read, or the cursor, out of the mapping. -/
theorem parseEntry_outside (output : Path) (fs : φ) {mapIt : ℕ}
    (outside : ¬RecordInside zstd mSize mapping mapIt) :
    parseEntry zstd output mapping mapIt fs = .error .outOfBounds ∨
      ∃ next, parseEntry zstd output mapping mapIt fs = .ok next ∧ mSize < next.1 := by
  rw [RecordInside] at outside
  split at outside
  · rename_i past
    have behind := List.getElem?_eq_none_iff.mp past
    left
    simp only [parseEntry, readAt_outside (by omega : mapping.length < mapIt + 1), bind, Except.bind]
  rename_i kind here
  split at outside
  · rename_i directory
    subst directory
    left
    simp only [parseEntry, readAt_kind here, bind, Except.bind, if_true, readSized_cut outside]
  split at outside
  · rename_i file
    subst file
    by_cases path : SizedWhole mapping (mapIt + 1)
    · exact file_outside output fs here path fun frame => outside ⟨path, frame⟩
    · left
      have different : ¬([1] : Bytes) = [0] := by decide
      simp only [parseEntry, readAt_kind here, bind, Except.bind, if_neg different, if_true,
        readSized_cut path]
  · exact absurd trivial outside

theorem FrameInside.length {mapIt : ℕ} (frame : FrameInside zstd mSize mapping mapIt) :
    mapIt + 8 ≤ mapping.length := by
  cases frame with
  | whole sized => exact sized.1
  | refused length => exact length
  | decoded length => exact length

/-- zstd does not read outside for such a frame. -/
theorem FrameInside.quiet {mapIt : ℕ} (frame : FrameInside zstd mSize mapping mapIt) :
    uncompress zstd (sizeAt mapping mapIt) (mapping.drop (mapIt + 8)) ≠ .error .outOfBounds := by
  intro escapes
  cases frame with
  | whole sized =>
    have there : sizeAt mapping mapIt ≤ (mapping.drop (mapIt + 8)).length := by
      have ends := sized.2
      rw [List.length_drop]
      omega
    exact uncompress_whole there escapes
  | refused _ refuses =>
    obtain ⟨fault, same, other⟩ := refused_iff.mp refuses
    rw [escapes] at same
    exact other (Except.error.inj same).symm
  | decoded _ decodes =>
    rw [escapes] at decodes
    cases decodes

/-- A frame that is decoded ends in the mapping. -/
theorem FrameInside.ends {mapIt : ℕ} {buf : Bytes} (bounded : mapping.length ≤ mSize)
    (frame : FrameInside zstd mSize mapping mapIt)
    (decodes : uncompress zstd (sizeAt mapping mapIt) (mapping.drop (mapIt + 8)) = .ok buf) :
    mapIt + 8 + sizeAt mapping mapIt ≤ mSize := by
  cases frame with
  | whole sized => exact sized.2.trans bounded
  | refused _ refuses =>
    obtain ⟨fault, same, -⟩ := refused_iff.mp refuses
    rw [decodes] at same
    cases same
  | decoded _ _ ends => exact ends

private theorem file_inside {mapIt : ℕ} (bounded : mapping.length ≤ mSize)
    (here : mapping[mapIt]? = some 1) (path : SizedWhole mapping (mapIt + 1))
    (frame : FrameInside zstd mSize mapping (mapIt + 1 + 8 + sizeAt mapping (mapIt + 1))) :
    parseEntry zstd output mapping mapIt fs ≠ .error .outOfBounds ∧
      ∀ next, parseEntry zstd output mapping mapIt fs = .ok next → mapIt < next.1 ∧ next.1 ≤ mSize := by
  obtain ⟨text, ran⟩ := parseEntry_file_eq zstd output fs here path
  rw [ran]
  have forward : mapIt < mapIt + 1 + 8 + sizeAt mapping (mapIt + 1) := by omega
  generalize mapIt + 1 + 8 + sizeAt mapping (mapIt + 1) = cursor at frame forward
  rw [if_pos frame.length]
  cases decoded : uncompress zstd (sizeAt mapping cursor) (mapping.drop (cursor + 8)) with
  | error fault =>
    refine ⟨fun escapes => ?_, by simp [Except.map]⟩
    obtain rfl : fault = .outOfBounds := by simpa [Except.map] using escapes
    exact frame.quiet decoded
  | ok buf =>
    refine ⟨by simp [Except.map], fun next reached => ?_⟩
    obtain rfl := Except.ok.inj reached
    exact ⟨by simp only; omega, frame.ends bounded decoded⟩

/-- A record that does keeps the cursor inside, and takes it forward. -/
theorem parseEntry_inside {mapIt : ℕ} (bounded : mapping.length ≤ mSize)
    (inside : RecordInside zstd mSize mapping mapIt) :
    parseEntry zstd output mapping mapIt fs ≠ .error .outOfBounds ∧
      ∀ next, parseEntry zstd output mapping mapIt fs = .ok next → mapIt < next.1 ∧ next.1 ≤ mSize := by
  rw [RecordInside] at inside
  split at inside
  · cases inside
  rename_i kind here
  have present := (List.getElem?_eq_some_iff.mp here).1
  split at inside
  · rename_i directory
    subst directory
    obtain ⟨text, read⟩ := readSized_whole inside
    have ends := inside.2
    simp only [parseEntry, readAt_kind here, bind, Except.bind, if_true, read]
    cases FileStore.createDirectory fs output text with
    | none =>
      simp only [throw, throwThe, MonadExceptOf.throw]
      exact ⟨by simp, by simp⟩
    | some created =>
      refine ⟨by simp [pure, Except.pure], fun next reached => ?_⟩
      obtain rfl := Except.ok.inj reached
      exact ⟨by simp only; omega, by simp only; omega⟩
  rename_i other
  split at inside
  · rename_i file
    subst file
    exact file_inside bounded here inside.1 inside.2
  · rename_i unknown
    have notDirectory : ¬([kind] : Bytes) = [0] := by simpa using other
    have notFile : ¬([kind] : Bytes) = [1] := by simpa using unknown
    simp only [parseEntry, readAt_kind here, bind, Except.bind, if_neg notDirectory, if_neg notFile]
    refine ⟨by simp [pure, Except.pure], fun next reached => ?_⟩
    obtain rfl := Except.ok.inj reached
    exact ⟨Nat.lt_succ_self mapIt, by simp only; omega⟩

/-! ## The loop -/

theorem mappingView_length (fs : φ) (input : Path) (mSize : ℕ) :
    (mappingView fs input mSize).length ≤ mSize :=
  List.length_take_le _ _

/-- One pass of the loop that goes on: the cursor and the files before and behind it. -/
def Pass (zstd : Decompressor) (input output : Path) (mSize : ℕ) (here next : ℕ × φ) : Prop :=
  here.1 ≠ mSize ∧ parseEntry zstd output (mappingView here.2 input mSize) here.1 here.2 = .ok next

/-- The loop ends, at the end of the mapping or with a fault that is no step out of it. -/
def LoopInside (zstd : Decompressor) (input output : Path) (mSize fuel : ℕ) (here : ℕ × φ) : Prop :=
  ∃ result, parseLoopV0 zstd input output mSize fuel here.1 here.2 = some result ∧
    result ≠ .error .outOfBounds

/-- A cursor behind the end is not noticed before the next read. -/
theorem parseLoopV0_behind {here : ℕ × φ} (behind : mSize < here.1) (fuel : ℕ) :
    parseLoopV0 zstd input output mSize (fuel + 1) here.1 here.2 = some (.error .outOfBounds) := by
  have shorter := mappingView_length here.2 input mSize
  rw [parseLoopV0, if_neg behind.ne']
  simp only [parseEntry, readAt_outside (by omega : (mappingView here.2 input mSize).length < here.1 + 1),
    bind, Except.bind]

/-- A record that does not keep the reader inside ends the loop outside. -/
theorem parseLoopV0_outside (here : ℕ × φ) (going : here.1 ≠ mSize)
    (outside : ¬RecordInside zstd mSize (mappingView here.2 input mSize) here.1) (fuel : ℕ) :
    parseLoopV0 zstd input output mSize (fuel + 2) here.1 here.2 = some (.error .outOfBounds) := by
  rw [parseLoopV0, if_neg going]
  rcases parseEntry_outside output here.2 outside with ran | ⟨next, ran, behind⟩
  · rw [ran]
  · rw [ran]
    exact parseLoopV0_behind behind fuel

/-- From a cursor inside the mapping the loop ends, without leaving it, exactly if every record it
reaches keeps it inside. -/
theorem loopInside_iff {fuel : ℕ} {here : ℕ × φ} (inside : here.1 ≤ mSize)
    (enough : mSize < here.1 + fuel) :
    LoopInside zstd input output mSize fuel here ↔
      ∀ there, Relation.ReflTransGen (Pass zstd input output mSize) here there →
        there.1 ≠ mSize → RecordInside zstd mSize (mappingView there.2 input mSize) there.1 := by
  induction fuel generalizing here with
  | zero => omega
  | succ fuel ih =>
    by_cases ended : here.1 = mSize
    · rw [LoopInside, parseLoopV0, if_pos ended]
      refine iff_of_true ⟨_, rfl, by simp⟩ fun there reached going => ?_
      rcases reached.cases_head with rfl | ⟨next, pass, -⟩
      · exact absurd ended going
      · exact absurd ended pass.1
    by_cases whole : RecordInside zstd mSize (mappingView here.2 input mSize) here.1
    · rw [LoopInside, parseLoopV0, if_neg ended]
      obtain ⟨quiet, forward⟩ :
          parseEntry zstd output (mappingView here.2 input mSize) here.1 here.2 ≠ .error .outOfBounds ∧ _ :=
        parseEntry_inside (mappingView_length here.2 input mSize) whole
      cases ran : parseEntry zstd output (mappingView here.2 input mSize) here.1 here.2 with
      | error fault =>
        rw [ran] at quiet
        refine iff_of_true ⟨_, rfl, by simpa using quiet⟩ fun there reached _ => ?_
        rcases reached.cases_head with rfl | ⟨next, pass, -⟩
        · exact whole
        · rw [pass.2] at ran
          cases ran
      | ok next =>
        obtain ⟨later, within⟩ := forward next ran
        refine (ih within (by omega)).trans ⟨fun rest there reached going => ?_,
          fun all there reached => all there (.head ⟨ended, ran⟩ reached)⟩
        rcases reached.cases_head with rfl | ⟨other, pass, onward⟩
        · exact whole
        · obtain rfl := Except.ok.inj (pass.2.symm.trans ran)
          exact rest there onward going
    · obtain ⟨fuel, rfl⟩ : ∃ previous, fuel = previous + 1 :=
        Nat.exists_eq_succ_of_ne_zero (by omega)
      rw [LoopInside, parseLoopV0_outside here ended whole]
      refine iff_of_false ?_ fun all => whole (all here .refl ended)
      rintro ⟨_, same, quiet⟩
      obtain rfl := Option.some.inj same
      exact quiet rfl

/-- A cursor that the loop reaches over such records is inside the mapping. -/
theorem reached_inside {start there : ℕ × φ} (inside : start.1 ≤ mSize)
    (reached : Relation.ReflTransGen (Pass zstd input output mSize) start there)
    (whole : ∀ here, Relation.ReflTransGen (Pass zstd input output mSize) start here →
      here.1 ≠ mSize → RecordInside zstd mSize (mappingView here.2 input mSize) here.1) :
    there.1 ≤ mSize := by
  induction reached with
  | refl => exact inside
  | tail before pass _ =>
    exact ((parseEntry_inside (mappingView_length _ _ _) (whole _ before pass.1)).2 _ pass.2).2

/-! ## The whole reader -/

/-- Unpacking ends after finitely many records, one for each byte at most, reads only bytes of the
archive, and keeps its cursor inside. -/
structure UnpackInside (zstd : Decompressor) (input output : Path) (fs opened : φ) (mapping : Bytes) :
    Prop where
  ends : ∀ fuel, mapping.length < fuel → ∃ result, unpack zstd fuel input output fs = some result ∧
    result ≠ .error .outOfBounds
  inside : ∀ there : ℕ × φ, mapping.head? = some 0 →
    Relation.ReflTransGen (Pass zstd input output mapping.length) (1, opened) there →
      there.1 ≤ mapping.length

/-- The archive has a version, and if that is zero, every record that is reached keeps the reader
inside. -/
structure ArchiveInside (zstd : Decompressor) (input output : Path) (opened : φ) (mapping : Bytes) :
    Prop where
  nonempty : mapping ≠ []
  records : mapping.head? = some 0 → ∀ there : ℕ × φ,
    Relation.ReflTransGen (Pass zstd input output mapping.length) (1, opened) there →
      there.1 ≠ mapping.length →
        RecordInside zstd mapping.length (mappingView there.2 input mapping.length) there.1

/-- What `pack` writes of a tree keeps the reader inside. -/
theorem archiveInside_pack (zstd : Zstd) (tree : Tree) {source fs opened : FileSystem}
    {tracePath archive output : Path} (below : tree.Below source tracePath) (listing : tree.Listing)
    (stored : fs.lookup archive =
      some (.file (pack zstd source tracePath (listing.items.map Prod.fst))))
    (absent : fs.lookup output = none) (made : fs.mkdir output = some opened) :
    ArchiveInside zstd archive output opened
      (pack zstd source tracePath (listing.items.map Prod.fst)) where
  nonempty := List.cons_ne_nil _ _
  records := by
    intro _
    have restored : Restored fs output [] opened :=
      Restored.start absent (FileSystem.adds_of_mkdir absent made)
    have within : 1 ≤ (pack zstd source tracePath (listing.items.map Prod.fst)).length := by
      rw [pack, List.length_cons]
      omega
    obtain ⟨final, parsed, -⟩ := parseLoopV0_listing zstd source fs tracePath output tree below listing
      [] listing.items rfl [0] stored absent rfl opened restored
      ((pack zstd source tracePath (listing.items.map Prod.fst)).length + listing.items.length + 1)
      (by omega)
    exact (loopInside_iff within (by simp only; omega)).mp ⟨_, parsed, by simp⟩

/-- Unpacking any bytes stays inside them and ends exactly if there is a version byte, and under
version zero every record that is reached keeps the reader inside. -/
theorem unpack_inside_iff (zstd : Decompressor) (input output : Path) (fs opened : φ)
    (mapping : Bytes) (present : FileStore.lookup fs input ≠ none)
    (absent : FileStore.lookup fs output = none) (made : FileStore.mkdir fs output = some opened)
    (stored : FileStore.content opened input = some mapping) :
    UnpackInside zstd input output fs opened mapping ↔
      ArchiveInside zstd input output opened mapping := by
  have opens fuel : unpack zstd fuel input output fs = _ :=
    unpack_opened present absent made stored fuel
  cases first : mapping.head? with
  | none =>
    have empty : mapping = [] := List.head?_eq_none_iff.mp first
    simp only [first] at opens
    refine iff_of_false (fun run => ?_) fun good => good.nonempty empty
    obtain ⟨_, same, quiet⟩ := run.ends (mapping.length + 1) (Nat.lt_succ_self _)
    rw [opens] at same
    obtain rfl := Option.some.inj same
    exact quiet rfl
  | some version =>
    have nonempty : mapping ≠ [] := by
      rintro rfl
      cases first
    simp only [first] at opens
    by_cases known : version = 0
    · subst known
      have within : 1 ≤ mapping.length := List.length_pos_of_ne_nil nonempty
      simp only [if_true, parseV0] at opens
      constructor
      · intro run
        refine ⟨nonempty, fun _ => ?_⟩
        obtain ⟨result, same, quiet⟩ := run.ends (mapping.length + 1) (Nat.lt_succ_self _)
        rw [opens] at same
        exact (loopInside_iff within (by simp only; omega)).mp ⟨result, same, quiet⟩
      · intro good
        refine ⟨fun fuel enough => ?_, fun there _ reached =>
          reached_inside within reached (good.records first)⟩
        have loop : LoopInside zstd input output mapping.length fuel (1, opened) :=
          (loopInside_iff within (by simp only; omega)).mpr (good.records first)
        obtain ⟨result, same, quiet⟩ := loop
        exact ⟨result, (opens fuel).trans same, quiet⟩
    · have other : mapping.head? ≠ some 0 := by
        rw [first]
        exact fun same => known (Option.some.inj same)
      simp only [if_neg known] at opens
      refine iff_of_true ⟨fun fuel _ => ⟨_, opens fuel, by simp⟩, fun _ zero => absurd zero other⟩
        ⟨nonempty, fun zero => absurd zero other⟩

/-- A disk with one archive on it, and the same once the output directory is there. -/
def archived (mapping : Bytes) : FileSystem := rootOnly.put [str "a.pack"] (.file mapping)

def outputMade (mapping : Bytes) : FileSystem := (archived mapping).put [str "out"] .directory

private theorem archived_stored (mapping : Bytes) :
    (archived mapping).lookup [str "a.pack"] = some (.file mapping) := by
  rw [archived, FileSystem.lookup_put (by simp) rfl (by simp [rootOnly]), if_pos rfl]

private theorem archived_absent (mapping : Bytes) : (archived mapping).lookup [str "out"] = none := by
  rw [archived, FileSystem.lookup_put (by simp) rfl (by simp [rootOnly]), if_neg (by decide)]
  rfl

private theorem archived_made (mapping : Bytes) :
    (archived mapping).mkdir [str "out"] = some (outputMade mapping) := by
  simp only [FileSystem.mkdir, archived_absent, outputMade]
  exact if_pos (archived mapping).root

private theorem archived_present (mapping : Bytes) :
    FileStore.lookup (archived mapping) [str "a.pack"] ≠ none := by
  rw [lookup_files, archived_stored]
  exact Option.some_ne_none _

private theorem archived_content (mapping : Bytes) :
    FileStore.content (outputMade mapping) [str "a.pack"] = some mapping :=
  content_opened (archived_stored mapping) (archived_absent mapping) (archived_made mapping)

/-- The file `a` with a frame of 100 bytes, of which 18 are there; they are no frame. -/
def refusedArchive : Bytes :=
  [0, 1] ++ leBytes 8 1 ++ str "a" ++ leBytes 8 100 ++ List.replicate 18 0

/-- zstd refuses the frame before the cursor is moved. -/
theorem refusedArchive_inside : ArchiveInside storedFrames [str "a.pack"] [str "out"]
    (outputMade refusedArchive) refusedArchive where
  nonempty := by decide
  records := by
    intro _ there reached going
    have stops : parseEntry storedFrames [str "out"]
        (mappingView (outputMade refusedArchive) [str "a.pack"] refusedArchive.length) 1
        (outputMade refusedArchive) = .error .badAlloc := by rfl
    rcases reached.cases_head with rfl | ⟨next, pass, -⟩
    · have all : mappingView (outputMade refusedArchive) [str "a.pack"] refusedArchive.length =
          refusedArchive := by rfl
      rw [all]
      refine ⟨⟨by decide, by decide⟩, .refused (by decide) ⟨2 ^ 64 - 2, by rfl, .inl (.inl ?_)⟩⟩
      norm_num
    · cases stops.symm.trans pass.2

/-- The archive of the sample tree, and one that ends within a frame. -/
theorem unpack_inside_iff_refused :
    (∃ archive opened, UnpackInside storedFrames [str "t.pack"] [str "out"]
      (rootOnly.put [str "t.pack"] (.file archive)) opened archive ∧ archive.length = 80) ∧
    UnpackInside storedFrames [str "a.pack"] [str "out"] (archived refusedArchive)
      (outputMade refusedArchive) refusedArchive := by
  constructor
  · generalize packed : pack storedFrames sampleSource [str "trace"]
      (sampleListing.items.map Prod.fst) = archive
    have stored : (rootOnly.put [str "t.pack"] (.file archive)).lookup [str "t.pack"] =
        some (.file archive) := by
      rw [FileSystem.lookup_put (by decide) (by decide) (by decide), if_pos rfl]
    have absent : (rootOnly.put [str "t.pack"] (.file archive)).lookup [str "out"] = none := by
      rw [FileSystem.lookup_put (by decide) (by decide) (by decide), if_neg (by decide)]
      rfl
    obtain ⟨opened, made, -⟩ := (rootOnly.put [str "t.pack"] (.file archive)).mkdir_adds
      (FileSystem.root _) absent
    refine ⟨archive, opened, ?_, by rw [← packed]; decide⟩
    refine (unpack_inside_iff storedFrames _ _ _ opened archive (by simp [stored]) absent made
      (content_opened stored absent made)).mpr ?_
    subst packed
    exact archiveInside_pack storedFrames sampleTree sampleTree_below sampleListing stored absent made
  · exact (unpack_inside_iff storedFrames _ _ _ _ _ (archived_present _) (archived_absent _)
      (archived_made _) (archived_content _)).mpr refusedArchive_inside

/-- No byte at all, and the kind of a directory with no length behind it. -/
theorem not_unpack_inside :
    ¬UnpackInside storedFrames [str "a.pack"] [str "out"] (archived []) (outputMade []) [] ∧
      ¬UnpackInside storedFrames [str "a.pack"] [str "out"] (archived [0, 0]) (outputMade [0, 0]) [0, 0] := by
  constructor
  · intro run
    obtain ⟨result, same, quiet⟩ := run.ends 1 (by decide)
    rw [unpack_opened (archived_present _) (archived_absent _) (archived_made _)
      (archived_content _)] at same
    obtain rfl := Option.some.inj same
    exact quiet rfl
  · intro run
    obtain ⟨result, same, quiet⟩ := run.ends 3 (by decide)
    rw [unpack_opened (archived_present _) (archived_absent _) (archived_made _)
      (archived_content _)] at same
    obtain rfl := Option.some.inj same
    exact quiet rfl

end DpcppTrace.Soundness
