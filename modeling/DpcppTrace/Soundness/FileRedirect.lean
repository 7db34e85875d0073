import DpcppTrace.Foundation.Naming
import DpcppTrace.Model.ReplayCommand

/-! # Showing the packed files to the program

Different recorded files have different copies. A path without `.so` in it is looked up in the file
map; any other is replaced by the copy of the first key, in byte order, that contains its file name,
whether or not the path itself is a key.
-/

namespace DpcppTrace.Soundness

open Foundation Model

/-! ## The maps that `pack` makes -/

/-- The map of a run of `pack` that reached the writes. -/
def Produced (map : FileMap) : Prop :=
  ∃ system recordFiles config dir final,
    (packFiles system recordFiles config).run dir = .ok map final

/-- No two keys share a copy. -/
def DistinctCopies (map : FileMap) : Prop :=
  ∀ first ∈ map.items, ∀ second ∈ map.items, first.2 = second.2 → first = second

/-- The number in front of the first underscore of a name is the only one there. -/
theorem number_unique {first second : ℕ} {left right : Bytes}
    (same : decimal first ++ str "_" ++ left = decimal second ++ str "_" ++ right) :
    first = second := by
  have digits (n : ℕ) (rest : Bytes) :
      (decimal n ++ str "_" ++ rest).takeWhile (· != 0x5f) = decimal n := by
    have underscore : str "_" = [0x5f] := by decide
    rw [underscore, List.append_assoc, List.takeWhile_append_of_pos, List.singleton_append,
      List.takeWhile_cons_of_neg (by simp), List.append_nil]
    intro c member
    have digit := digit_of_mem_decimal member
    simp only [bne_iff_ne]
    rintro rfl
    exact absurd digit.2 (by decide)
  apply decimal_injective
  rw [← digits first left, same, digits]

private theorem copyName_counter {first second : ℕ} {left right : Bytes}
    (same : copyName first left = copyName second right) : first = second :=
  number_unique same

private theorem copyName_ne (n : ℕ) (file : Bytes) : copyName n file ≠ str "0" := by
  intro same
  have underscore : (0x5f : UInt8) ∈ copyName n file := by
    have text : str "_" = [0x5f] := by decide
    simp [copyName, text]
  rw [same] at underscore
  exact absurd underscore (by decide)

/-- Every copy was named by a smaller counter, and no two keys share one. -/
structure Counted (loop : PackLoop) : Prop where
  named : ∀ item ∈ loop.replayMap.items,
    item.2 = str "0" ∨ ∃ n < loop.counter, item.2 = copyName n item.1
  distinct : DistinctCopies loop.replayMap

/-- A copy under a name that no key has keeps the copies distinct. -/
theorem DistinctCopies.set {map : FileMap} (distinct : DistinctCopies map) {key name : Bytes}
    (fresh : ∀ item ∈ map.items, item.2 ≠ name) : DistinctCopies (map.set key name) := by
  intro first firstIn second secondIn same
  rcases Dictionary.mem_set.mp firstIn with rfl | ⟨-, firstIn⟩ <;>
    rcases Dictionary.mem_set.mp secondIn with rfl | ⟨-, secondIn⟩
  · rfl
  · exact absurd same.symm (fresh second secondIn)
  · exact absurd same (fresh first firstIn)
  · exact distinct first firstIn second secondIn same

theorem Counted.set {loop : PackLoop} (counted : Counted loop) (cand : Bytes) :
    Counted ⟨loop.counter + 1, loop.replayMap.set cand (copyName loop.counter cand)⟩ where
  named item member := by
    rcases Dictionary.mem_set.mp member with rfl | ⟨-, earlier⟩
    · exact .inr ⟨loop.counter, Nat.lt_succ_self _, rfl⟩
    · rcases counted.named item earlier with zero | ⟨n, below, name⟩
      · exact .inl zero
      · exact .inr ⟨n, Nat.lt_succ_of_lt below, name⟩
  distinct := by
    apply counted.distinct.set
    intro item member same
    rcases counted.named item member with zero | ⟨n, below, name⟩
    · exact copyName_ne _ _ (same.symm.trans zero)
    · have equal := copyName_counter (name.symm.trans same)
      omega

private theorem gives_packElement {system : PackSystem} {loop : PackLoop} (element : Option Bytes)
    (counted : Counted loop) : Gives Counted (packElement system loop element) := by
  rw [packElement]
  refine (gives_true _).bind fun cand _ => ?_
  split
  · exact gives_pure counted
  · split
    · exact gives_throw _
    · exact gives_pure counted
    · exact (gives_true _).bind fun _ _ => gives_pure (counted.set cand)

theorem Produced.distinctCopies {map : FileMap} (produced : Produced map) : DistinctCopies map := by
  obtain ⟨system, recordFiles, config, dir, final, ran⟩ := produced
  have gives : Gives DistinctCopies (packFiles system recordFiles config) := by
    rw [packFiles]
    refine (gives_true _).bind fun executable _ => (gives_true _).bind fun _ _ => ?_
    refine (gives_foldlM (fun loop element counted => gives_packElement element counted) recordFiles
      (?_ : Counted ⟨1, Dictionary.empty.set executable (str "0")⟩)).bind
        fun loop counted => gives_pure counted.distinct
    have single : ∀ item ∈ (Dictionary.empty.set executable (str "0") : FileMap).items,
        item = (executable, str "0") := by
      intro item member
      rcases Dictionary.mem_set.mp member with same | ⟨-, nowhere⟩
      · exact same
      · cases nowhere
    refine ⟨fun item member => .inl (by rw [single item member]), ?_⟩
    intro first firstIn second secondIn _
    rw [single first firstIn, single second secondIn]
  exact gives dir map final ran

/-! ## The replacement of a path -/

/-- The path names a shared library, with or without a version. -/
def NamesLibrary (name : Bytes) : Prop :=
  str ".so" <:+ filename name ∨ str ".so." <:+: filename name

/-- The replacement is the packed copy of this key. -/
def CopyOf (basePath : Bytes) (map : FileMap) (key replacement : Bytes) : Prop :=
  ∃ value, map.find key = some value ∧ replacement = packedCopy basePath value

/-- A key is replaced by its own copy; any other path is left alone, or names a shared library and
is replaced by the copy of one with the same file name. -/
def Redirects (basePath : Bytes) (map : FileMap) (name replacement : Bytes) : Prop :=
  (map.find name ≠ none → CopyOf basePath map name replacement) ∧
    (map.find name = none → replacement = [] ∨
      NamesLibrary name ∧ ∃ key, filename key = filename name ∧ CopyOf basePath map key replacement)

/-- If there is `.so` in the path, then among the keys that contain its file name the path itself
comes first when it is a key, and otherwise one with just that file name, the path being one of a
library. -/
def Unambiguous (map : FileMap) (name : Bytes) : Prop :=
  str ".so" <:+: name → ∀ item ∈ map.items, filename name <:+: item.1 →
    (map.find name ≠ none → name ≤ item.1) ∧
      (map.find name = none → NamesLibrary name ∧
        ∃ other ∈ map.items, filename other.1 = filename name ∧ other.1 ≤ item.1)

section Replacement

variable {basePath : Bytes} {map : FileMap} {name : Bytes}

theorem packedCopy_ne_nil (basePath name : Bytes) : packedCopy basePath name ≠ [] := by
  have separator : str "/" = [0x2f] := by decide
  simp [packedCopy, separator]

private theorem packedCopy_inj {first second : Bytes} :
    packedCopy basePath first = packedCopy basePath second ↔ first = second := by
  rw [packedCopy, packedCopy, List.append_cancel_left_eq]

private theorem filename_of_mem {item : Bytes × Bytes} (same : filename item.1 = filename name) :
    filename name <:+: item.1 := by
  rw [← same]
  exact (filename_suffix item.1).isInfix

/-- A path without `.so` is looked up. -/
theorem redirects_of_plain (plain : ¬str ".so" <:+: name) :
    Redirects basePath map name (findSuitableReplacement basePath map name) := by
  rw [findSuitableReplacement, if_neg plain]
  rcases found : map.find name with _ | value
  · exact ⟨fun key => absurd found key, fun _ => .inl rfl⟩
  · exact ⟨fun _ => ⟨value, found, rfl⟩, fun missing => absurd (found.symm.trans missing) nofun⟩

/-- The first key that contains the file name decides. -/
theorem redirects_iff_of_first (distinct : DistinctCopies map) {hit : Bytes × Bytes}
    (found : map.items.find? (fun el => filename name <:+: el.1) = some hit) :
    Redirects basePath map name (packedCopy basePath hit.2) ↔
      (map.find name ≠ none → hit.1 = name) ∧
        (map.find name = none → NamesLibrary name ∧ filename hit.1 = filename name) := by
  have hitIn : hit ∈ map.items := List.mem_of_find?_eq_some found
  have copies {key : Bytes} : CopyOf basePath map key (packedCopy basePath hit.2) ↔ hit.1 = key := by
    constructor
    · rintro ⟨value, listed, same⟩
      have equal := distinct hit hitIn (key, value) (Dictionary.find_eq_some.mp listed)
        (packedCopy_inj.mp same)
      rw [equal]
    · rintro rfl
      exact ⟨hit.2, Dictionary.find_eq_some.mpr hitIn, rfl⟩
  refine and_congr (imp_congr_right fun _ => copies) (imp_congr_right fun _ => ?_)
  constructor
  · rintro (nothing | ⟨library, key, same, copy⟩)
    · exact absurd nothing (packedCopy_ne_nil _ _)
    · rw [← copies.mp copy] at same
      exact ⟨library, same⟩
  · rintro ⟨library, same⟩
    exact .inr ⟨library, hit.1, same, copies.mpr rfl⟩

/-- The replacement is right exactly if the path is unambiguous in the file map. -/
theorem redirects_iff (produced : Produced map) (basePath name : Bytes) :
    Redirects basePath map name (findSuitableReplacement basePath map name) ↔
      Unambiguous map name := by
  by_cases library : str ".so" <:+: name
  swap
  · exact iff_of_true (redirects_of_plain library) fun contains => absurd contains library
  rw [findSuitableReplacement, if_pos library]
  rcases found : map.items.find? (fun el => filename name <:+: el.1) with _ | hit
  · have nowhere : ∀ item ∈ map.items, ¬filename name <:+: item.1 := by
      simpa using found
    simp only [found]
    refine iff_of_true ⟨fun key => ?_, fun _ => .inl rfl⟩ fun _ item member inside =>
      absurd inside (nowhere item member)
    obtain ⟨value, listed⟩ := Option.ne_none_iff_exists'.mp key
    exact absurd (filename_suffix name).isInfix
      (nowhere (name, value) (Dictionary.find_eq_some.mp listed))
  · have hitIn : hit ∈ map.items := List.mem_of_find?_eq_some found
    have hitFits : filename name <:+: hit.1 := by simpa using List.find?_some found
    have first {item : Bytes × Bytes} (member : item ∈ map.items)
        (inside : filename name <:+: item.1) : hit.1 ≤ item.1 :=
      Dictionary.le_of_find?_eq_some found member (by simpa using inside)
    simp only [found]
    rw [redirects_iff_of_first produced.distinctCopies found]
    constructor
    · rintro ⟨own, other⟩ _ item member inside
      refine ⟨fun key => own key ▸ first member inside, fun missing => ?_⟩
      exact ⟨(other missing).1, hit, hitIn, (other missing).2, first member inside⟩
    · intro unambiguous
      obtain ⟨own, other⟩ := unambiguous library hit hitIn hitFits
      constructor
      · intro key
        obtain ⟨value, listed⟩ := Option.ne_none_iff_exists'.mp key
        have below := first (Dictionary.find_eq_some.mp listed) (filename_suffix name).isInfix
        exact Std.le_antisymm below (own key)
      · intro missing
        obtain ⟨names, item, member, same, below⟩ := other missing
        have equal := Std.le_antisymm below (first member (filename_of_mem same))
        exact ⟨names, by rw [← equal, same]⟩

end Replacement

/-! ## A library with a version -/

/-- A run of `pack` that nothing stops. -/
def smoothSystem : PackSystem where
  createsDirectory := true
  opensFilesConfig := true
  opensReplayConfig := true
  isRegular _ := some true
  copies _ := true
  writesFileMap := .complete
  writesReplayConfig := .complete

/-- The map for `/bin/app` and two files of a library. -/
def libraryMap : FileMap :=
  ((Dictionary.empty.set (str "/bin/app") (str "0")).set (str "/lib/libx.so.1")
    (copyName 1 (str "/lib/libx.so.1"))).set (str "/usr/libx.so") (copyName 2 (str "/usr/libx.so"))

private theorem produced_libraryMap : Produced libraryMap :=
  ⟨smoothSystem, [some (str "/lib/libx.so.1"), some (str "/usr/libx.so")],
    { executable := some (str "/bin/app") }, ⟨none, none, none, some []⟩,
    ⟨none, none, none, some [(str "0", str "/bin/app"),
      (copyName 1 (str "/lib/libx.so.1"), str "/lib/libx.so.1"),
      (copyName 2 (str "/usr/libx.so"), str "/usr/libx.so")]⟩, rfl⟩

/-- A directory that was not recorded is searched for a recorded library. -/
theorem redirects_iff_version :
    Redirects (str "/t/pack") libraryMap (str "/opt/libx.so.1") (str "/t/pack/1_libx.so") := by
  have replaced : findSuitableReplacement (str "/t/pack") libraryMap (str "/opt/libx.so.1") =
      str "/t/pack/1_libx.so" := by
    decide
  rw [← replaced]
  apply (redirects_iff produced_libraryMap _ _).mpr
  intro _ item member inside
  have only : item.1 = str "/lib/libx.so.1" := by
    have all : ∀ item ∈ libraryMap.items,
        filename (str "/opt/libx.so.1") <:+: item.1 → item.1 = str "/lib/libx.so.1" := by
      decide
    exact all item member inside
  refine ⟨fun key => absurd (by decide) key, fun _ => ?_⟩
  refine ⟨.inr (by decide), item, member, ?_, Std.le_refl _⟩
  rw [only]
  decide

/-- A recorded library is replaced by the copy of another version of it. -/
theorem not_redirects :
    ¬∀ map, Produced map → ∀ basePath name : Bytes,
      Redirects basePath map name (findSuitableReplacement basePath map name) := by
  intro always
  obtain ⟨value, listed, copy⟩ := (always libraryMap produced_libraryMap (str "/t/pack")
    (str "/usr/libx.so")).1 (by decide)
  have own : libraryMap.find (str "/usr/libx.so") = some (str "2_libx") := by decide
  rw [← Option.some.inj (own.symm.trans listed)] at copy
  exact absurd copy (by decide)

end DpcppTrace.Soundness
