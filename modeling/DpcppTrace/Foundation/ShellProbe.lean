import DpcppTrace.Foundation.ShellExpansion
import Mathlib.Data.List.Flatten

/-! # What expansions take away

The words of a line bound what its command spells, apart from what the shell looks up. A shell that
knows one byte only shows every word that is expanded.
-/

namespace DpcppTrace.Foundation

/-! ## What an expansion adds -/

namespace Shell

/-- What the shell looks up has no bytes of this kind, and it finds no commands. -/
structure Clear (shell : Shell) (kind : UInt8 → Bool) : Prop where
  value : ∀ name, (shell.value name).countP kind = 0
  home : ∀ login, (shell.home login).countP kind = 0
  glob : ∀ field, (shell.glob field).flatten.countP kind = 0
  search : ∀ name, shell.search name = none

/-- How many bytes of a kind a word spells. -/
def weight (kind : UInt8 → Bool) (word : Word) : ℕ := (word.flatMap Piece.literal).countP kind

variable (kind : UInt8 → Bool) {shell : Shell}

@[simp] theorem weight_append (front rest : Word) :
    weight kind (front ++ rest) = weight kind front + weight kind rest := by
  rw [weight, List.flatMap_append, List.countP_append, weight, weight]

private theorem weight_take_drop (n : ℕ) (word : Word) :
    weight kind (word.take n) + weight kind (word.drop n) = weight kind word := by
  rw [← weight_append, List.take_append_drop]

private theorem weight_quoted (text : Bytes) : weight kind (text.map .quoted) = text.countP kind := by
  rw [weight, List.flatMap_map]
  exact congrArg _ (List.flatMap_singleton' text)

private theorem weight_intercalate {expand : Word → Bytes}
    (less : ∀ part, (expand part).countP kind ≤ weight kind part) (parts : List Word) :
    ([0x3a].intercalate (parts.map expand)).countP kind ≤
      weight kind ([.plain 0x3a].intercalate parts) := by
  induction parts with
  | nil => exact le_rfl
  | cons part parts ih =>
    cases parts with
    | nil => simpa using less part
    | cons next parts =>
      rw [List.map_cons, List.map_cons, List.intercalate_cons_cons, List.intercalate_cons_cons,
        weight_append, weight_append, List.countP_append, List.countP_append]
      have colon : weight kind [.plain 0x3a] = [0x3a].countP kind := rfl
      have first := less part
      rw [List.map_cons] at ih
      omega

/-- The bytes of the fragments. -/
def characters (fragments : List Fragment) : Bytes :=
  (fragments.filterMap Fragment.character).map Prod.fst

private theorem characters_append (front rest : List Fragment) :
    characters (front ++ rest) = characters front ++ characters rest := by
  rw [characters, List.filterMap_append, List.map_append, characters, characters]

private theorem characters_parameter (name : Bytes) (quoted : Bool) :
    (characters (shell.fragments (.parameter name quoted))).Sublist (shell.value name) := by
  cases quoted with
  | true =>
    rw [fragments]
    induction shell.value name with
    | nil => exact .slnil
    | cons c text ih => exact ih.cons_cons c
  | false =>
    rw [fragments]
    induction shell.value name with
    | nil => exact .slnil
    | cons c text ih =>
      rw [List.map_cons]
      split
      · exact ih.cons c
      · exact ih.cons_cons c

namespace Clear

variable {kind} (clear : shell.Clear kind)
include clear

theorem tilde (word : Word) : weight kind (shell.tilde word) ≤ weight kind word := by
  rw [Shell.tilde]
  split
  · rw [weight_append, weight_quoted, clear.home, Nat.zero_add]
    have whole := fun n => weight_take_drop kind n word
    exact le_of_add_le_right (whole _).le
  · exact le_rfl

theorem bytes (word : Word) : (word.flatMap shell.bytes).countP kind = weight kind word := by
  induction word with
  | nil => rfl
  | cons piece word ih =>
    rw [weight] at ih ⊢
    rw [List.flatMap_cons, List.flatMap_cons, List.countP_append, List.countP_append, ih]
    cases piece with
    | parameter name quoted =>
      rw [Shell.bytes, clear.value]
      rfl
    | _ => rfl

theorem assignment (word : Word) : (shell.assignment word).countP kind ≤ weight kind word := by
  have parts := weight_intercalate kind (fun part => (clear.bytes _).trans_le (clear.tilde part))
    ((word.drop (nameLength word + 1)).splitOn (.plain 0x3a))
  rw [List.intercalate_splitOn] at parts
  have whole := weight_take_drop kind (nameLength word + 1) word
  rw [Shell.assignment, List.countP_append, ← whole]
  exact Nat.add_le_add_left parts _

theorem fragments (word : Word) :
    (characters (word.flatMap shell.fragments)).countP kind ≤ weight kind word := by
  induction word with
  | nil => exact le_rfl
  | cons piece word ih =>
    rw [weight] at ih ⊢
    rw [List.flatMap_cons, characters_append, List.flatMap_cons, List.countP_append,
      List.countP_append]
    refine Nat.add_le_add ?_ ih
    cases piece with
    | parameter name quoted =>
      exact (characters_parameter name quoted).countP_le.trans (clear.value name).le
    | _ => exact le_rfl

theorem pathnames (field : List (UInt8 × Bool)) :
    (shell.pathnames field).flatten.countP kind ≤ (field.map Prod.fst).countP kind := by
  rw [Shell.pathnames]
  split
  · rw [clear.glob]
    exact Nat.zero_le _
  · simp

theorem fields (word : Word) : (shell.fields word).flatten.countP kind ≤ weight kind word := by
  have each (fields : List (List Fragment)) :
      ((fields.flatMap fun field =>
        shell.pathnames (field.filterMap Fragment.character)).flatten).countP kind ≤
        (characters fields.flatten).countP kind := by
    induction fields with
    | nil => exact le_rfl
    | cons field fields ih =>
      rw [List.flatMap_cons, List.flatten_append, List.countP_append, List.flatten_cons,
        characters_append, List.countP_append]
      exact Nat.add_le_add (clear.pathnames _) ih
  have inside (fields : List (List Fragment)) :
      fields.flatten.Sublist ([Fragment.gap].intercalate fields) := by
    induction fields with
    | nil => exact .slnil
    | cons field fields ih =>
      cases fields with
      | nil => simp
      | cons next fields =>
        rw [List.intercalate_cons_cons, List.flatten_cons, List.append_assoc]
        exact (ih.trans (List.sublist_append_right _ _)).append_left _
  have parts := (List.filter_sublist (p := fun field => decide (field ≠ []))).flatten.trans
    (inside (((shell.tilde word).flatMap shell.fragments).splitOn .gap))
  rw [List.intercalate_splitOn] at parts
  have less := ((parts.filterMap Fragment.character).map Prod.fst).countP_le (p := kind)
  exact (each _).trans (less.trans ((clear.fragments _).trans (clear.tilde word)))

/-- A command spells no more bytes of the kind than its words. -/
theorem command {words : List Word} {found : Command} (run : shell.command words = some found) :
    (found.assignments.flatten ++ (found.path ++ found.arguments.flatten)).countP kind ≤
      weight kind words.flatten := by
  have assigned (words : List Word) :
      (words.map shell.assignment).flatten.countP kind ≤ weight kind words.flatten := by
    induction words with
    | nil => exact le_rfl
    | cons word words ih =>
      rw [List.map_cons, List.flatten_cons, List.flatten_cons, weight_append, List.countP_append]
      exact Nat.add_le_add (clear.assignment word) ih
  have expanded (words : List Word) :
      (words.flatMap shell.fields).flatten.countP kind ≤ weight kind words.flatten := by
    induction words with
    | nil => exact le_rfl
    | cons word words ih =>
      rw [List.flatMap_cons, List.flatten_append, List.flatten_cons, weight_append,
        List.countP_append]
      exact Nat.add_le_add (clear.fields word) ih
  rw [Shell.command] at run
  split at run
  · cases run
  next name arguments fields =>
    have path : found.assignments = (words.takeWhile isAssignment).map shell.assignment ∧
        found.path = name ∧ found.arguments = arguments := by
      rw [clear.search] at run
      split at run
      · cases run
        exact ⟨rfl, rfl, rfl⟩
      · cases run
    obtain ⟨front, same, others⟩ := path
    have ahead := assigned (words.takeWhile isAssignment)
    have behind := expanded (words.drop (words.takeWhile isAssignment).length)
    rw [fields, List.flatten_cons] at behind
    have whole : words.takeWhile isAssignment ++ words.drop (words.takeWhile isAssignment).length =
        words := List.prefix_iff_eq_append.mp (List.takeWhile_prefix _)
    have both := weight_append kind (words.takeWhile isAssignment).flatten
      (words.drop (words.takeWhile isAssignment).length).flatten
    rw [← List.flatten_append, whole] at both
    rw [front, same, others, List.countP_append, both]
    exact Nat.add_le_add ahead behind

/-- A command that is not searched for is named by its path. -/
theorem path {words : List Word} {found : Command} (run : shell.command words = some found) :
    0x2f ∈ found.path := by
  rw [Shell.command] at run
  split at run
  · cases run
  next name arguments fields =>
    rw [clear.search] at run
    split at run
    next slash =>
      cases run
      exact slash
    next => cases run

end Clear

/-! ## Expansions that show -/

theorem weight_spell (text : Bytes) : weight kind (spell text) = text.countP kind := by
  rw [weight, spell, List.flatMap_map]
  exact congrArg _ (List.flatMap_singleton' text)

/-- Where the parts of a value keep their bytes together, each of them does. -/
theorem weight_parts {expand : Word → Bytes}
    (less : ∀ part, (expand part).countP kind ≤ weight kind part) {parts : List Word}
    (kept : weight kind ([.plain 0x3a].intercalate parts) ≤
      ([0x3a].intercalate (parts.map expand)).countP kind) :
    ∀ part ∈ parts, weight kind part ≤ (expand part).countP kind := by
  induction parts with
  | nil => simp
  | cons part parts ih =>
    cases parts with
    | nil => simpa using kept
    | cons next parts =>
      have behind := weight_intercalate kind less (next :: parts)
      rw [List.map_cons, List.map_cons, List.intercalate_cons_cons, List.intercalate_cons_cons,
        weight_append, weight_append, List.countP_append, List.countP_append] at kept
      have colon : weight kind [.plain 0x3a] = [0x3a].countP kind := rfl
      have first := less part
      rw [List.map_cons] at ih behind
      have further := ih (by omega)
      intro other mem
      rcases List.mem_cons.mp mem with rfl | mem
      · omega
      · exact further other mem

/-- A tilde that is expanded is lost. -/
theorem Clear.untilded (clear : shell.Clear (· = 0x7e)) {rest : Word}
    (kept : weight (· = 0x7e) rest ≤ ([0x3a].intercalate ((rest.splitOn (.plain 0x3a)).map
      fun part => (shell.tilde part).flatMap shell.bytes)).countP (· = 0x7e))
    {part : Bytes} (mem : spell part ∈ rest.splitOn (.plain 0x3a)) :
    part.head? ≠ some 0x7e := by
  intro tilded
  obtain ⟨text, rfl⟩ := List.head?_eq_some_iff.mp tilded
  have less (part : Word) : ((shell.tilde part).flatMap shell.bytes).countP (· = 0x7e) ≤
      weight (· = 0x7e) part := (clear.bytes _).trans_le (clear.tilde part)
  have here := weight_parts _ less (by rwa [List.intercalate_splitOn]) _ mem
  rw [clear.bytes, tilde_tilded, weight_append, weight_quoted, clear.home, weight_spell,
    weight_spell, List.countP_cons_of_pos rfl, Nat.zero_add] at here
  have behind := (List.drop_sublist (text.takeWhile (· ≠ 0x2f)).length text).countP_le
    (p := (· = 0x7e))
  omega

/-- A shell that knows one thing only. -/
def probe : Shell := ⟨fun _ => some [0x78], fun _ => [0x78], fun _ => [[0x78]], fun _ => none⟩

theorem probe_clear (other : kind 0x78 = false) : probe.Clear kind := by
  have none : [0x78].countP kind = 0 := by simp [other]
  exact ⟨fun _ => none, fun _ => none, fun _ => none, fun _ => rfl⟩

/-- The probe changes every word that is not to stand for itself. -/
theorem probe_fields {text : Bytes} (nonempty : text ≠ []) : ∃ field,
    probe.fields (spell text) = [field] ∧
      (field = text → text.head? ≠ some 0x7e ∧ hasPattern (text.map (·, true)) = false) := by
  have single (field : List (UInt8 × Bool)) : probe.pathnames field =
      [if hasPattern field then [0x78] else field.map Prod.fst] := by
    rw [pathnames]
    split <;> simp_all [probe]
  by_cases tilded : text.head? = some 0x7e
  · obtain ⟨rest, rfl⟩ := List.head?_eq_some_iff.mp tilded
    obtain ⟨behind, tail⟩ : ∃ behind, probe.tilde (spell (0x7e :: rest)) =
        .quoted 0x78 :: spell behind := ⟨_, tilde_tilded rest⟩
    have expanded : (probe.tilde (spell (0x7e :: rest))).flatMap probe.fragments =
        .byte 0x78 false :: behind.map (Fragment.byte · true) := by
      rw [tail, List.flatMap_cons, spell, List.flatMap_map]
      exact congrArg (Fragment.byte 0x78 false :: ·) List.map_eq_flatMap.symm
    refine ⟨_, (fields_of_fragments expanded (by simp) (by simp)).trans (single _), fun same => ?_⟩
    split at same
    · cases same
    · cases same
  · refine ⟨_, (fields_spell nonempty tilded).trans (single _), fun same => ⟨tilded, ?_⟩⟩
    by_contra matched
    rw [if_pos (by simpa using matched)] at same
    subst same
    cases matched rfl

theorem probe_fields_length {texts : List Bytes} (nonempty : ∀ text ∈ texts, text ≠ []) :
    ((texts.map spell).flatMap probe.fields).length = texts.length := by
  induction texts with
  | nil => rfl
  | cons text texts ih =>
    obtain ⟨field, single, -⟩ := probe_fields (nonempty text (List.mem_cons_self ..))
    rw [List.map_cons, List.flatMap_cons, single, List.singleton_append, List.length_cons,
      List.length_cons, ih fun other mem => nonempty other (List.mem_cons_of_mem _ mem)]

theorem probe_fields_same {texts : List Bytes} (nonempty : ∀ text ∈ texts, text ≠ [])
    (same : (texts.map spell).flatMap probe.fields = texts) :
    ∀ text ∈ texts, text.head? ≠ some 0x7e ∧ hasPattern (text.map (·, true)) = false := by
  induction texts with
  | nil => simp
  | cons text texts ih =>
    obtain ⟨field, single, shows⟩ := probe_fields (nonempty text (List.mem_cons_self ..))
    rw [List.map_cons, List.flatMap_cons, single, List.singleton_append] at same
    have further := ih (fun other mem => nonempty other (List.mem_cons_of_mem _ mem))
      (List.cons.inj same).2
    intro other mem
    rcases List.mem_cons.mp mem with rfl | mem
    · exact shows (List.cons.inj same).1
    · exact further other mem

end Shell

end DpcppTrace.Foundation
