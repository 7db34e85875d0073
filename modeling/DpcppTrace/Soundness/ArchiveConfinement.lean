import DpcppTrace.Soundness.ArchiveBounds

/-! # Where unpacking writes

The writer stores names relative to the directory it packs. The reader joins each name with the
output directory and checks none of them: an absolute name replaces the output directory, `..` leaves
it, and links outside of it are followed. A record that takes effect does so where its name leads.
-/

namespace DpcppTrace.Soundness

open Foundation Model

/-! ## The effect of one record -/

/-- A record by its name, and for a file the size of its frame and the bytes from there on. -/
inductive ArchiveRecord where
  | directory (name : Bytes)
  | file (name : Bytes) (size : ℕ) (there : Bytes)

def ArchiveRecord.name : ArchiveRecord → Bytes
  | .directory name => name
  | .file name _ _ => name

/-- The record at a cursor, if it is of a known kind. -/
def recordAt (mapping : Bytes) (mapIt : ℕ) : Option ArchiveRecord :=
  match readAt mapping mapIt 1 with
  | .error _ => none
  | .ok kind =>
    if kind = [0] then
      match readSized mapping (mapIt + 1) with
      | .error _ => none
      | .ok (path, _) => some (.directory path)
    else if kind = [1] then
      match readSized mapping (mapIt + 1) with
      | .error _ => none
      | .ok (path, mapIt) =>
        match readAt mapping mapIt 8 with
        | .error _ => none
        | .ok length => some (.file path (ofLe length) (mapping.drop (mapIt + 8)))
    else none

section Carrying

variable {φ : Type} [FileStore φ] {zstd : Decompressor} {output : Path} {mapping : Bytes}

/-- The files after a record was carried out; `none` where that aborts the reader. -/
def ArchiveRecord.carryOut (zstd : Decompressor) (output : Path) (fs : φ) : ArchiveRecord → Option φ
  | .directory name => FileStore.createDirectory fs output name
  | .file name size there =>
    match uncompress zstd size there with
    | .ok buf => some (FileStore.writeFile fs output name buf)
    | .error _ => none

/-- A pass carries out the record at its cursor. -/
theorem carryOut_parseEntry {mapIt : ℕ} {fs : φ} {next : ℕ × φ}
    (ran : parseEntry zstd output mapping mapIt fs = .ok next) :
    match recordAt mapping mapIt with
    | some record => record.carryOut zstd output fs = some next.2
    | none => next.2 = fs := by
  simp only [parseEntry, bind, Except.bind] at ran
  rw [recordAt]
  cases byte : readAt mapping mapIt 1 with
  | error fault => simp [byte] at ran
  | ok kind =>
    simp only [byte] at ran ⊢
    by_cases directory : kind = [0]
    · simp only [if_pos directory] at ran ⊢
      cases path : readSized mapping (mapIt + 1) with
      | error fault => simp [path] at ran
      | ok name =>
        simp only [path, ArchiveRecord.carryOut] at ran ⊢
        cases made : FileStore.createDirectory fs output name.1 with
        | none => simp [made, throw, throwThe, MonadExceptOf.throw] at ran
        | some after =>
          simp only [made] at ran
          rw [← Except.ok.inj ran]
    · by_cases file : kind = [1]
      · simp only [if_neg directory, if_pos file] at ran ⊢
        cases path : readSized mapping (mapIt + 1) with
        | error fault => simp [path] at ran
        | ok name =>
          simp only [path] at ran ⊢
          cases length : readAt mapping name.2 8 with
          | error fault => simp [length] at ran
          | ok bytes =>
            simp only [length, ArchiveRecord.carryOut] at ran ⊢
            cases content : uncompress zstd (ofLe bytes) (mapping.drop (name.2 + 8)) with
            | error fault => simp [content] at ran
            | ok buf =>
              simp only [content] at ran ⊢
              rw [← Except.ok.inj ran]
      · simp only [if_neg directory, if_neg file] at ran ⊢
        rw [← Except.ok.inj ran]

end Carrying

/-! ## Where the effect is -/

variable {zstd : Decompressor} {input output home : Path} {mSize : ℕ}

/-- The components of a record's name behind the output directory; those of a file's name end in a dot
if the name ends in a slash. -/
def ArchiveRecord.names (output : Path) : ArchiveRecord → List Bytes
  | .directory name => behind output name (components (cString name))
  | .file name _ _ => behind output name (linkNames (cString name))

/-- The place that a record creates or overwrites, and what it puts there. -/
def ArchiveRecord.touched (zstd : Decompressor) (output : Path) (fs : LinkedSystem)
    (record : ArchiveRecord) : Option (Path × Node) :=
  match record with
  | .directory name => (fs.created name (record.names output)).map fun place => (place, .directory)
  | .file name size there =>
    match uncompress zstd size there with
    | .ok buf => (fs.opened name (record.names output)).map fun place => (place, .file buf)
    | .error _ => none

/-- A record changes the one place that it touches. -/
theorem ArchiveRecord.node_carryOut {record : ArchiveRecord} {fs after : LinkedSystem}
    (carried : record.carryOut zstd output fs = some after) (query : Path) :
    after.node query = match record.touched zstd output fs with
      | some (place, node) => if place = query then some node else fs.node query
      | none => fs.node query := by
  cases record with
  | directory name =>
    rw [LinkedSystem.node_makeDirectory carried, touched, names]
    cases fs.created name (behind output name (components (cString name))) <;> simp
  | file name size there =>
    simp only [carryOut, touched, names] at carried ⊢
    cases content : uncompress zstd size there with
    | error fault => simp [content] at carried
    | ok buf =>
      simp only [content, Option.some.injEq] at carried ⊢
      rw [← carried]
      change (fs.writeFile output name buf).node query = _
      rw [LinkedSystem.node_writeFile]
      cases fs.opened name (behind output name (linkNames (cString name))) <;> simp

/-- Carrying out the record creates or overwrites something: the directories that its name passes
through, over links, are there; behind them is nothing, or for a file whose frame zstd decompresses, no
directory; and the system does not refuse it. -/
def ArchiveRecord.TakesEffect (zstd : Decompressor) (output : Path) (fs : LinkedSystem)
    (record : ArchiveRecord) : Prop :=
  match record with
  | .directory name => ∃ parent last,
      fs.namei false maxLinks [] (record.names output) = some (.named parent last) ∧
        fs.refuses fs.node name (parent ++ [last]) = false ∧ fs.node (parent ++ [last]) = none
  | .file name size there => (∃ buf, uncompress zstd size there = .ok buf) ∧
      ∃ parent last, fs.namei true maxLinks [] (record.names output) = some (.named parent last) ∧
        fs.refuses fs.node name (parent ++ [last]) = false

theorem ArchiveRecord.takesEffect_iff {record : ArchiveRecord} {fs : LinkedSystem} :
    record.TakesEffect zstd output fs ↔
      ∃ place node, record.touched zstd output fs = some (place, node) := by
  cases record with
  | directory name =>
    simp only [TakesEffect, touched, Option.map_eq_some_iff, LinkedSystem.created_eq_some_iff]
    constructor
    · rintro ⟨parent, last, came, refused, absent⟩
      exact ⟨_, _, _, ⟨parent, last, came, ⟨refused, absent⟩, rfl⟩, rfl⟩
    · rintro ⟨-, -, place, ⟨parent, last, came, ⟨refused, absent⟩, -⟩, -⟩
      exact ⟨parent, last, came, refused, absent⟩
  | file name size there =>
    simp only [TakesEffect, touched]
    cases uncompress zstd size there with
    | error fault => simp
    | ok buf =>
      simp only [Option.map_eq_some_iff, LinkedSystem.opened_eq_some_iff]
      constructor
      · rintro ⟨-, parent, last, came, refused⟩
        exact ⟨_, _, _, ⟨parent, last, came, refused, rfl⟩, rfl⟩
      · rintro ⟨-, -, place, ⟨parent, last, came, refused, -⟩, -⟩
        exact ⟨⟨buf, rfl⟩, parent, last, came, refused⟩

/-- What a record touches is where its name leads. -/
theorem ArchiveRecord.leads_of_touched {record : ArchiveRecord} {fs : LinkedSystem} {place : Path}
    {node : Node} (touches : record.touched zstd output fs = some (place, node)) :
    fs.Leads [] (record.names output) place := by
  cases record with
  | directory name =>
    obtain ⟨other, makes, same⟩ := Option.map_eq_some_iff.mp touches
    obtain rfl := (Prod.mk.inj same).1
    exact LinkedSystem.leads_created makes
  | file name size there =>
    simp only [touched] at touches
    split at touches
    · obtain ⟨other, opens, same⟩ := Option.map_eq_some_iff.mp touches
      obtain rfl := (Prod.mk.inj same).1
      exact LinkedSystem.leads_opened opens
    · cases touches

/-! ## All passes -/

def Inside (home place : Path) : Prop := home <+: place ∧ place ≠ home

/-- The record at the cursor. -/
def recordOf (input : Path) (mSize : ℕ) (here : ℕ × LinkedSystem) : Option ArchiveRecord :=
  recordAt (mappingView here.2 input mSize) here.1

/-- The record at the cursor touches nothing outside the output directory. -/
def TouchesInside (zstd : Decompressor) (input output home : Path) (mSize : ℕ)
    (here : ℕ × LinkedSystem) : Prop :=
  ∀ record, recordOf input mSize here = some record → ∀ place node,
    record.touched zstd output here.2 = some (place, node) → Inside home place

/-- If the record at the cursor takes effect, its name does not lead out of the output directory. -/
def NameInside (zstd : Decompressor) (input output home : Path) (mSize : ℕ)
    (here : ℕ × LinkedSystem) : Prop :=
  ∀ record, recordOf input mSize here = some record → record.TakesEffect zstd output here.2 →
    ∀ place, here.2.Leads [] (record.names output) place → Inside home place

private theorem touchesInside_iff {here : ℕ × LinkedSystem} :
    TouchesInside zstd input output home mSize here ↔
      NameInside zstd input output home mSize here := by
  refine forall_congr' fun record => imp_congr_right fun _ => ⟨fun touches effect place leads => ?_,
    fun name place node touched => ?_⟩
  · obtain ⟨other, node, touched⟩ := ArchiveRecord.takesEffect_iff.mp effect
    obtain rfl := (ArchiveRecord.leads_of_touched touched).unique leads
    exact touches _ node touched
  · exact name (ArchiveRecord.takesEffect_iff.mpr ⟨place, node, touched⟩) place
      (ArchiveRecord.leads_of_touched touched)

/-- A pass that touches nothing outside changes nothing outside. -/
theorem pass_frame {here next : ℕ × LinkedSystem} (pass : Pass zstd input output mSize here next)
    (touches : TouchesInside zstd input output home mSize here) {query : Path}
    (outside : ¬home <+: query) : next.2.node query = here.2.node query := by
  have carried := carryOut_parseEntry pass.2
  cases found : recordOf input mSize here with
  | none =>
    rw [recordOf] at found
    simp only [found] at carried
    rw [carried]
  | some record =>
    have same := found
    rw [recordOf] at same
    simp only [same] at carried
    rw [ArchiveRecord.node_carryOut carried]
    cases changed : record.touched zstd output here.2 with
    | none => rfl
    | some touched =>
      have other : touched.1 ≠ query := by
        rintro rfl
        exact outside (touches record found _ _ changed).1
      simp only [if_neg other]

private theorem reached_frame {start there : ℕ × LinkedSystem}
    (reached : Relation.ReflTransGen (Pass zstd input output mSize) start there)
    (touches : ∀ here, Relation.ReflTransGen (Pass zstd input output mSize) start here →
      TouchesInside zstd input output home mSize here) {query : Path} (outside : ¬home <+: query) :
    there.2.node query = start.2.node query := by
  induction reached with
  | refl => rfl
  | tail before pass ih => exact (pass_frame pass (touches _ before) outside).trans ih

/-- Where the loop ends it has come by its passes. -/
theorem reached_of_parseLoopV0 {fuel : ℕ} {here final : ℕ × LinkedSystem}
    (ended : parseLoopV0 zstd input output mSize fuel here.1 here.2 = some (.ok final)) :
    Relation.ReflTransGen (Pass zstd input output mSize) here final := by
  induction fuel generalizing here with
  | zero => cases ended
  | succ fuel ih =>
    rw [parseLoopV0] at ended
    split at ended
    · obtain rfl := Except.ok.inj (Option.some.inj ended)
      exact .refl
    · rename_i going
      split at ended
      · rename_i mapIt fs ran
        exact .head ⟨going, ran⟩ (ih ended)
      · cases ended

/-- Each record touches only what is inside the output directory, and after the last one nothing
outside has changed. -/
structure UnpackConfined (zstd : Decompressor) (input output home : Path) (fs opened : LinkedSystem)
    (mapping : Bytes) : Prop where
  touched : mapping.head? = some 0 → ∀ there,
    Relation.ReflTransGen (Pass zstd input output mapping.length) (1, opened) there →
      TouchesInside zstd input output home mapping.length there
  unchanged : ∀ fuel mapIt after, unpack zstd fuel input output fs = some (.ok (mapIt, after)) →
    ∀ query, ¬home <+: query → after.node query = fs.node query

/-- No name of a record that is reached and takes effect leads out of the output directory. -/
def NamesConfined (zstd : Decompressor) (input output home : Path) (opened : LinkedSystem)
    (mapping : Bytes) : Prop :=
  mapping.head? = some 0 → ∀ there,
    Relation.ReflTransGen (Pass zstd input output mapping.length) (1, opened) there →
      NameInside zstd input output home mapping.length there

/-- The directory that is made for the output is where the output leads. -/
theorem created_home {fs opened : LinkedSystem} (absent : fs.lookup output = none)
    (made : fs.mkdir output = some opened) (leads : opened.Leads [] output home) :
    fs.created (joinPath output) output = some home := by
  obtain ⟨place, makes⟩ := LinkedSystem.created_of_makeDirectory absent made
  have onward := (LinkedSystem.leads_created makes).sameLinks (LinkedSystem.sameLinks_makeDirectory made)
  rw [makes, onward.unique leads]

/-- Unpacking stays in the output directory exactly if the names do, where they take effect. -/
theorem unpack_confined_iff (zstd : Decompressor) (input output home : Path)
    (fs opened : LinkedSystem) (mapping : Bytes) (present : fs.lookup input ≠ none)
    (absent : fs.lookup output = none) (made : fs.mkdir output = some opened)
    (leads : opened.Leads [] output home) (stored : FileStore.content opened input = some mapping) :
    UnpackConfined zstd input output home fs opened mapping ↔
      NamesConfined zstd input output home opened mapping := by
  constructor
  · intro confined version there reached
    exact touchesInside_iff.mp (confined.touched version there reached)
  · intro names
    have touches (version : mapping.head? = some 0) there
        (reached : Relation.ReflTransGen (Pass zstd input output mapping.length) (1, opened) there) :
        TouchesInside zstd input output home mapping.length there :=
      touchesInside_iff.mpr (names version there reached)
    refine ⟨touches, fun fuel mapIt after ended query outside => ?_⟩
    rw [unpack_opened present absent made stored] at ended
    split at ended
    · cases ended
    · rename_i version first
      split at ended
      · rename_i zero
        subst zero
        have reached : Relation.ReflTransGen (Pass zstd input output mapping.length) (1, opened)
            (mapIt, after) := reached_of_parseLoopV0 ended
        have other : home ≠ query := fun same => outside (same ▸ List.prefix_rfl)
        rw [reached_frame reached (touches first) outside, LinkedSystem.node_makeDirectory made,
          created_home absent made leads, if_neg (by simpa using other)]
      · cases ended

/-! ## Names that stay inside -/

/-- The name consists of ordinary components below where it starts, as `pack` stores names. -/
def Ordinary (name : Bytes) : Prop :=
  ∃ rel, rel ≠ [] ∧ (∀ part ∈ rel, ValidName part) ∧ name = joinPath rel

/-- No record makes a link or replaces one. -/
theorem ArchiveRecord.sameLinks_carryOut {record : ArchiveRecord} {fs after : LinkedSystem}
    (carried : record.carryOut zstd output fs = some after) : fs.SameLinks after := by
  cases record with
  | directory name => exact LinkedSystem.sameLinks_makeDirectory carried
  | file name size there =>
    rw [carryOut] at carried
    split at carried
    · rw [← Option.some.inj carried]
      exact fs.sameLinks_writeFile output name _
    · cases carried

private theorem reached_sameLinks {start there : ℕ × LinkedSystem}
    (reached : Relation.ReflTransGen (Pass zstd input output mSize) start there) :
    start.2.SameLinks there.2 := by
  induction reached with
  | refl => exact fun _ _ => Iff.rfl
  | tail before pass ih =>
    apply ih.trans
    have carried := carryOut_parseEntry pass.2
    split at carried
    · exact ArchiveRecord.sameLinks_carryOut carried
    · rw [carried]
      exact fun _ _ => Iff.rfl

theorem ArchiveRecord.names_ordinary {record : ArchiveRecord} {rel : Path} (nonempty : rel ≠ [])
    (valid : ∀ part ∈ rel, ValidName part) (ordinary : record.name = joinPath rel) :
    record.names output = output ++ rel := by
  have relative : (cString (joinPath rel)).head? ≠ some slash := by
    rw [cString_joinPath valid]
    exact head?_joinPath valid
  cases record with
  | directory name =>
    rw [ArchiveRecord.name] at ordinary
    rw [names, ordinary, behind, if_neg relative, cString_joinPath valid,
      components_joinPath nonempty valid]
  | file name size there =>
    rw [ArchiveRecord.name] at ordinary
    rw [names, ordinary, behind, if_neg relative, cString_joinPath valid, linkNames,
      components_joinPath nonempty valid, if_neg (getLast?_joinPath valid), List.append_nil]

/-- Names such as `pack` stores stay inside, whatever links there are elsewhere: there are none below a
directory that was just made, and unpacking makes none. -/
theorem namesConfined_of_ordinary {fs opened : LinkedSystem} {mapping : Bytes}
    (absent : fs.lookup output = none) (made : fs.mkdir output = some opened)
    (leads : opened.Leads [] output home)
    (ordinary : ∀ there, Relation.ReflTransGen (Pass zstd input output mapping.length) (1, opened) there →
      ∀ record, recordOf input mapping.length there = some record → Ordinary record.name) :
    NamesConfined zstd input output home opened mapping := by
  intro _ there reached record found _ place reaches
  obtain ⟨rel, nonempty, valid, named⟩ := ordinary there reached record found
  have same := (LinkedSystem.sameLinks_makeDirectory made).trans (reached_sameLinks reached)
  have new := LinkedSystem.node_created (created_home absent made leads)
  have plain : ∀ below text, there.2.node (home ++ below) ≠ some (.link text) := by
    intro below text linked
    cases (fs.node_below new below).symm.trans ((same _ text).mp linked)
  rw [ArchiveRecord.names_ordinary nonempty valid named] at reaches
  obtain rfl := reaches.unique
    ((leads.sameLinks (reached_sameLinks reached)).append (LinkedSystem.leads_plain valid plain))
  exact ⟨List.prefix_append home rel, by simpa using nonempty⟩

/-- Nothing but the root. -/
def bare : LinkedSystem where
  node path := if path = [] then some .directory else none
  refuses _ _ _ := false
  root := rfl
  closed := by
    intro parent name present
    simp at present

/-- A disk with one archive on it, with `/bin` a link into `/usr`, and with `/usr/out`. -/
def merged (archive : Bytes) : LinkedSystem :=
  ((((bare.put [str "a.pack"] (.file archive)).put [str "usr"] .directory).put
    [str "usr", str "bin"] .directory).put [str "usr", str "out"] .directory).put
      [str "bin"] (.link (str "usr/bin"))

/-- The same once the output directory is there. -/
def mergedOut (archive : Bytes) : LinkedSystem := (merged archive).put [str "out"] .directory

/-- A file record with the text `hi`. -/
def fileRecord (name : Bytes) : Bytes :=
  let frame := storedFrame (str "hi")
  [1] ++ leBytes 8 name.length ++ name ++ leBytes 8 frame.length ++ frame

/-- The directory `d` and the file `f` in it. -/
def nestedArchive : Bytes := [0, 0] ++ leBytes 8 1 ++ str "d" ++ fileRecord (str "d/f")

/-- The names that the reader comes to are `d` and `d/f`. -/
theorem nestedArchive_ordinary {there : ℕ × LinkedSystem} (reached : Relation.ReflTransGen
    (Pass storedFrames [str "a.pack"] [str "out"] nestedArchive.length)
      (1, mergedOut nestedArchive) there) {record : ArchiveRecord}
    (found : recordOf [str "a.pack"] nestedArchive.length there = some record) :
    Ordinary record.name := by
  rcases reached.cases_head with rfl | ⟨second, ⟨-, pass⟩, onward⟩
  · have first : recordOf [str "a.pack"] nestedArchive.length (1, mergedOut nestedArchive) =
        some (.directory (str "d")) := by rfl
    obtain rfl := Option.some.inj (first.symm.trans found)
    exact ⟨[str "d"], by decide, by decide, by decide⟩
  have early : parseEntry storedFrames [str "out"]
      (mappingView (mergedOut nestedArchive) [str "a.pack"] nestedArchive.length) 1
        (mergedOut nestedArchive) =
      .ok (11, (mergedOut nestedArchive).put [str "out", str "d"] .directory) := by rfl
  obtain rfl := Except.ok.inj (early.symm.trans pass)
  rcases onward.cases_head with rfl | ⟨third, ⟨-, pass⟩, onward⟩
  · have next : recordOf [str "a.pack"] nestedArchive.length
        (11, (mergedOut nestedArchive).put [str "out", str "d"] .directory) =
        some (.file (str "d/f") (storedFrame (str "hi")).length (storedFrame (str "hi"))) := by rfl
    obtain rfl := Option.some.inj (next.symm.trans found)
    exact ⟨[str "d", str "f"], by decide, by decide, by decide⟩
  have late : (parseEntry storedFrames [str "out"]
      (mappingView ((mergedOut nestedArchive).put [str "out", str "d"] .directory) [str "a.pack"]
        nestedArchive.length) 11 ((mergedOut nestedArchive).put [str "out", str "d"] .directory)).map
          Prod.fst = .ok nestedArchive.length := by rfl
  rw [pass] at late
  have ended : third.1 = nestedArchive.length := Except.ok.inj late
  rcases onward.cases_head with rfl | ⟨fourth, pass, -⟩
  · have behind : (mappingView third.2 [str "a.pack"] nestedArchive.length).length < third.1 + 1 :=
      Nat.lt_succ_of_le (ended ▸ mappingView_length third.2 _ _)
    simp only [recordOf, recordAt, readAt_outside behind] at found
    cases found
  · exact absurd ended pass.1

/-- A directory and a file in it, on a disk with links elsewhere. -/
theorem unpack_confined_iff_nested :
    UnpackConfined storedFrames [str "a.pack"] [str "out"] [str "out"] (merged nestedArchive)
      (mergedOut nestedArchive) nestedArchive := by
  have absent : (merged nestedArchive).lookup [str "out"] = none := by decide
  have made : (merged nestedArchive).mkdir [str "out"] = some (mergedOut nestedArchive) := by rfl
  have leads : (mergedOut nestedArchive).Leads [] [str "out"] [str "out"] := by
    have node : (mergedOut nestedArchive).node [str "out"] = some .directory := by rfl
    exact .down (by decide) (by decide) (by simp [node]) .here
  exact (unpack_confined_iff storedFrames _ _ _ _ _ _ (by decide) absent made leads (by rfl)).mpr
    (namesConfined_of_ordinary absent made leads fun _ reached _ => nestedArchive_ordinary reached)

/-- A directory record for `../x`, and a file record that goes over the link `/bin` to `/usr/out`. -/
def climbingArchive : Bytes := [0, 0] ++ leBytes 8 4 ++ str "../x"

def linkedArchive : Bytes := [0] ++ fileRecord (str "/bin/../out/f")

theorem not_unpack_confined :
    ¬UnpackConfined storedFrames [str "a.pack"] [str "out"] [str "out"] (merged climbingArchive)
        (mergedOut climbingArchive) climbingArchive ∧
      ¬UnpackConfined storedFrames [str "a.pack"] [str "out"] [str "out"] (merged linkedArchive)
        (mergedOut linkedArchive) linkedArchive := by
  constructor
  · intro confined
    have record : recordOf [str "a.pack"] climbingArchive.length (1, mergedOut climbingArchive) =
      some (.directory (str "../x")) := by rfl
    have touches : (ArchiveRecord.directory (str "../x")).touched storedFrames [str "out"]
        (mergedOut climbingArchive) = some ([str "x"], .directory) := by rfl
    have inside := confined.touched rfl (1, mergedOut climbingArchive) .refl _ record _ _ touches
    exact absurd inside.1 (by decide)
  · intro confined
    let record := ArchiveRecord.file (str "/bin/../out/f") (storedFrame (str "hi")).length
      (storedFrame (str "hi"))
    have found : recordOf [str "a.pack"] linkedArchive.length (1, mergedOut linkedArchive) =
      some record := by rfl
    have content : uncompress storedFrames.toDecompressor (storedFrame (str "hi")).length
      (storedFrame (str "hi")) = .ok (str "hi") := by rfl
    have named : record.names [str "out"] = [str "bin", str "..", str "out", str "f"] := by decide
    have opens : (mergedOut linkedArchive).opened (str "/bin/../out/f")
      [str "bin", str "..", str "out", str "f"] = some [str "usr", str "out", str "f"] := by decide
    have touches : record.touched storedFrames [str "out"] (mergedOut linkedArchive) =
        some ([str "usr", str "out", str "f"], .file (str "hi")) := by
      simp only [ArchiveRecord.touched, record, content, named, opens, Option.map_some]
    have inside := confined.touched rfl (1, mergedOut linkedArchive) .refl _ found _ _ touches
    exact absurd inside.1 (by decide)

end DpcppTrace.Soundness
