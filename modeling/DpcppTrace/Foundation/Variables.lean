import DpcppTrace.Foundation.Bytes

/-! # Environment lists

An environment is a list of `NAME=VALUE` texts. A name is looked up from the front, as `getenv` does,
so of two definitions the first counts: what is appended to a list only adds names that the list
does not define.
-/

namespace DpcppTrace.Foundation

/-- The text `NAME=VALUE`. -/
def entry (name value : Bytes) : Bytes := name ++ 0x3d :: value

/-- The value that an entry gives to a name, if it is an entry for that name. -/
def valueFor (name : Bytes) (text : Bytes) : Option Bytes :=
  if (name ++ [0x3d]).isPrefixOf text then some (text.drop (name.length + 1)) else none

/-- The value of the first entry for the name. -/
def getenv (name : Bytes) (entries : List Bytes) : Option Bytes := entries.findSome? (valueFor name)

/-- A name that an entry can define. -/
def IsName (name : Bytes) : Prop := 0x3d ∉ name

theorem valueFor_eq_some {name text value : Bytes} :
    valueFor name text = some value ↔ text = entry name value := by
  rw [valueFor]
  constructor
  · intro found
    split at found
    · rename_i starts
      obtain ⟨rest, rfl⟩ := List.isPrefixOf_iff_prefix.mp starts
      rw [← Option.some.inj found, entry]
      simp
    · cases found
  · rintro rfl
    rw [if_pos (List.isPrefixOf_iff_prefix.mpr ⟨value, by simp [entry]⟩)]
    simp [entry]

/-- An entry is an entry for one name only. -/
theorem entry_name_inj {name other value another : Bytes} (isName : IsName name)
    (otherIsName : IsName other) (same : entry name value = entry other another) :
    name = other := by
  have front {name value : Bytes} (isName : IsName name) :
      (entry name value).takeWhile (· != 0x3d) = name := by
    rw [entry, List.takeWhile_append_of_pos, List.takeWhile_cons_of_neg (by simp), List.append_nil]
    intro c member
    simp only [bne_iff_ne]
    rintro rfl
    exact isName member
  rw [← front isName, same, front otherIsName]

/-- An entry starts like its name. -/
theorem prefix_entry_iff {front name value : Bytes} (isName : IsName front) :
    front <+: entry name value ↔ front <+: name := by
  constructor
  · rintro ⟨rest, same⟩
    rw [entry, List.append_eq_append_iff] at same
    rcases same with ⟨middle, rfl, -⟩ | ⟨middle, rfl, tail⟩
    · exact List.prefix_append _ _
    · cases middle with
      | nil => exact ⟨[], by rw [List.append_nil, List.append_nil]⟩
      | cons c middle =>
        rw [List.cons_append, List.cons.injEq] at tail
        exact absurd (by rw [tail.1]; simp) isName
  · exact fun starts => starts.trans (List.prefix_append _ _)

theorem valueFor_entry_self (name value : Bytes) : valueFor name (entry name value) = some value :=
  valueFor_eq_some.mpr rfl

theorem valueFor_entry_other {name other : Bytes} (isName : IsName name)
    (otherIsName : IsName other) (differs : name ≠ other) (value : Bytes) :
    valueFor name (entry other value) = none := by
  by_contra found
  obtain ⟨another, found⟩ := Option.ne_none_iff_exists'.mp found
  exact differs (entry_name_inj isName otherIsName (valueFor_eq_some.mp found).symm)

/-- The entries behind a list count only for the names that it does not define. -/
theorem getenv_append (name : Bytes) (front rest : List Bytes) :
    getenv name (front ++ rest) = (getenv name front).or (getenv name rest) :=
  List.findSome?_append

/-- Leaving out entries that are not for the name does not change its value. -/
theorem getenv_filter {name : Bytes} {keeps : Bytes → Bool} {entries : List Bytes}
    (kept : ∀ text ∈ entries, keeps text = false → valueFor name text = none) :
    getenv name (entries.filter keeps) = getenv name entries := by
  induction entries with
  | nil => rfl
  | cons text entries ih =>
    have rest := ih fun other member => kept other (List.mem_cons_of_mem _ member)
    rw [getenv] at rest
    rw [getenv, getenv, List.findSome?_cons, List.filter_cons]
    split
    · rw [List.findSome?_cons, rest, getenv]
    · rename_i dropped
      rw [kept text List.mem_cons_self (Bool.eq_false_of_not_eq_true dropped), rest, getenv]

/-- Leaving out all entries for a name leaves it undefined. -/
theorem getenv_filter_none {name : Bytes} {keeps : Bytes → Bool} {entries : List Bytes}
    (dropped : ∀ text value, valueFor name text = some value → keeps text = false) :
    getenv name (entries.filter keeps) = none := by
  rw [getenv, List.findSome?_eq_none_iff]
  intro text member
  by_contra found
  obtain ⟨value, found⟩ := Option.ne_none_iff_exists'.mp found
  have kept := (List.mem_filter.mp member).2
  rw [dropped text value found] at kept
  exact Bool.false_ne_true kept

/-! ## Settings behind an inherited list -/

/-- The entries of the settings. -/
def entries (settings : List (Bytes × Bytes)) : List Bytes :=
  settings.map fun setting => entry setting.1 setting.2

theorem entries_append (first second : List (Bytes × Bytes)) :
    entries (first ++ second) = entries first ++ entries second :=
  List.map_append

theorem entries_cons (setting : Bytes × Bytes) (settings : List (Bytes × Bytes)) :
    entries (setting :: settings) = entry setting.1 setting.2 :: entries settings := rfl

theorem entries_ite (wanted : Bool) (setting : Bytes × Bytes) :
    entries (if wanted then [setting] else []) =
      if wanted then [entry setting.1 setting.2] else [] := by
  cases wanted <;> rfl

/-- Every setting has its value, and every other name the value it has in the source. -/
structure Resolves (settings : List (Bytes × Bytes)) (source env : List Bytes) : Prop where
  own : ∀ setting ∈ settings, getenv setting.1 env = some setting.2
  others : ∀ name, IsName name → name ∉ settings.map Prod.fst → getenv name env = getenv name source

/-- Settings have names, each its own. -/
structure Named (settings : List (Bytes × Bytes)) : Prop where
  isName : ∀ name ∈ settings.map Prod.fst, IsName name
  distinct : (settings.map Prod.fst).Nodup

variable {settings : List (Bytes × Bytes)}

theorem getenv_entries_other (named : Named settings) {name : Bytes} (isName : IsName name)
    (other : name ∉ settings.map Prod.fst) : getenv name (entries settings) = none := by
  rw [getenv, List.findSome?_eq_none_iff]
  intro text member
  obtain ⟨setting, listed, rfl⟩ := List.mem_map.mp member
  have here : setting.1 ∈ settings.map Prod.fst := List.mem_map_of_mem listed
  exact valueFor_entry_other isName (named.isName _ here) (fun same => other (same ▸ here)) _

theorem getenv_entries_self (named : Named settings) {setting : Bytes × Bytes}
    (member : setting ∈ settings) : getenv setting.1 (entries settings) = some setting.2 := by
  obtain ⟨before, after, rfl⟩ := List.append_of_mem member
  have distinct := named.distinct
  rw [List.map_append, List.map_cons, List.nodup_append] at distinct
  have earlier : Named before :=
    ⟨fun name inside => named.isName name (by rw [List.map_append]; exact List.mem_append_left _ inside),
      distinct.1⟩
  have fresh : setting.1 ∉ before.map Prod.fst := fun inside =>
    distinct.2.2 _ inside _ List.mem_cons_self rfl
  have isName : IsName setting.1 := named.isName _ (List.mem_map_of_mem member)
  rw [entries, List.map_append, getenv_append, ← entries, getenv_entries_other earlier isName fresh,
    Option.none_or, List.map_cons, getenv, List.findSome?_cons, valueFor_entry_self]

/-- Appended settings are found exactly if the list in front of them does not say otherwise. -/
theorem resolves_append_iff (named : Named settings) {source inherited : List Bytes} :
    Resolves settings source (inherited ++ entries settings) ↔
      (∀ setting ∈ settings,
        getenv setting.1 inherited = none ∨ getenv setting.1 inherited = some setting.2) ∧
      ∀ name, IsName name → name ∉ settings.map Prod.fst →
        getenv name inherited = getenv name source := by
  have ownIff {setting : Bytes × Bytes} (member : setting ∈ settings) :
      getenv setting.1 (inherited ++ entries settings) = some setting.2 ↔
        getenv setting.1 inherited = none ∨ getenv setting.1 inherited = some setting.2 := by
    rw [getenv_append, getenv_entries_self named member]
    cases getenv setting.1 inherited <;> simp
  have othersEq {name : Bytes} (isName : IsName name) (other : name ∉ settings.map Prod.fst) :
      getenv name (inherited ++ entries settings) = getenv name inherited := by
    rw [getenv_append, getenv_entries_other named isName other, Option.or_none]
  constructor
  · rintro ⟨own, others⟩
    refine ⟨fun setting member => (ownIff member).mp (own setting member), fun name isName other => ?_⟩
    rw [← othersEq isName other, others name isName other]
  · rintro ⟨own, others⟩
    refine ⟨fun setting member => (ownIff member).mpr (own setting member), fun name isName other => ?_⟩
    rw [othersEq isName other, others name isName other]

end DpcppTrace.Foundation
