import Mathlib.Tactic.Common
import Mathlib.Data.List.Infix

/-! # Backtracking patterns

The fragment of regular expressions that packet parsers use: single elements of a class, greedy
repetition of a class, options and capturing groups. Matching tries the alternatives in the order
of a backtracking engine and hands each rest to a continuation; a full match is the first one that
leaves nothing. Groups do not nest; those of an option that was skipped capture nothing.
-/

namespace DpcppTrace.Foundation

universe u

/-- A pattern over the elements `α`. -/
inductive Pattern (α : Type u) where
  | nothing
  | one (accepts : α → Bool)
  | many (accepts : α → Bool)
  | group (inner : Pattern α)
  | optional (inner : Pattern α)
  | seq (first second : Pattern α)

namespace Pattern

variable {α : Type u}

instance : Append (Pattern α) := ⟨seq⟩

/-- Exactly these elements. -/
def literal [BEq α] : List α → Pattern α
  | [] => nothing
  | element :: rest => one (· == element) ++ literal rest

/-- The number of groups. -/
def groups : Pattern α → ℕ
  | nothing | one _ | many _ => 0
  | group inner => inner.groups + 1
  | optional inner => inner.groups
  | seq first second => first.groups + second.groups

/-- One or more accepted elements, the longest run first. -/
def goMany (accepts : α → Bool) : List α → (List α → Option (List (List α))) →
    Option (List (List α))
  | [], _ => none
  | element :: rest, onward =>
    if accepts element then (goMany accepts rest onward).or (onward rest) else none

/-- Match a front of the text and go on with the rest; the captures of the first way through. -/
def go : Pattern α → List α → (List α → Option (List (List α))) → Option (List (List α))
  | nothing, text, onward => onward text
  | one accepts, text, onward =>
    match text with
    | [] => none
    | element :: rest => if accepts element then onward rest else none
  | many accepts, text, onward => goMany accepts text onward
  | group inner, text, onward =>
    inner.go text fun rest => (onward rest).map (text.take (text.length - rest.length) :: ·)
  | optional inner, text, onward =>
    (inner.go text onward).or ((onward text).map (List.replicate inner.groups [] ++ ·))
  | seq first second, text, onward => first.go text fun rest => second.go rest onward

/-- Accept the end of the text only. -/
def atEnd : List α → Option (List (List α))
  | [] => some []
  | _ :: _ => none

/-- The captures of the first match of the whole text. -/
def fullMatch (pattern : Pattern α) (text : List α) : Option (List (List α)) :=
  pattern.go text atEnd

@[simp] theorem go_append (first second : Pattern α) (text : List α)
    (onward : List α → Option (List (List α))) :
    (first ++ second).go text onward = first.go text fun rest => second.go rest onward := rfl

@[simp] theorem go_one_cons (accepts : α → Bool) (element : α) (rest : List α)
    (onward : List α → Option (List (List α))) :
    (one accepts).go (element :: rest) onward = if accepts element then onward rest else none := rfl

@[simp] theorem groups_append (first second : Pattern α) :
    (first ++ second).groups = first.groups + second.groups := rfl

@[simp] theorem groups_nothing : (nothing : Pattern α).groups = 0 := rfl

@[simp] theorem groups_one (accepts : α → Bool) : (one accepts).groups = 0 := rfl

private theorem go_literal_cons [BEq α] (element : α) (rest text : List α)
    (onward : List α → Option (List (List α))) :
    (literal (element :: rest)).go text onward =
      (one (· == element)).go text fun left => (literal rest).go left onward := rfl

/-- A literal in front of the text is consumed. -/
theorem go_literal_self [BEq α] [ReflBEq α] (front rest : List α)
    (onward : List α → Option (List (List α))) :
    (literal front).go (front ++ rest) onward = onward rest := by
  induction front with
  | nil => rfl
  | cons element front ih => simpa [go_literal_cons] using ih

private theorem goMany_congr {accepts : α → Bool} {text : List α}
    {onward onward' : List α → Option (List (List α))}
    (agree : ∀ rest, rest <:+ text → onward rest = onward' rest) :
    goMany accepts text onward = goMany accepts text onward' := by
  induction text with
  | nil => rfl
  | cons element rest ih =>
    have inner := ih fun left suffix => agree left (suffix.trans (List.suffix_cons _ _))
    simp only [goMany, inner, agree rest (List.suffix_cons _ _)]

/-- Only the suffixes of the text reach the continuation. -/
theorem go_congr (pattern : Pattern α) {text : List α}
    {onward onward' : List α → Option (List (List α))}
    (agree : ∀ rest, rest <:+ text → onward rest = onward' rest) :
    pattern.go text onward = pattern.go text onward' := by
  induction pattern generalizing text onward onward' with
  | nothing => exact agree text List.suffix_rfl
  | one accepts =>
    cases text with
    | nil => rfl
    | cons element rest => simp only [go, agree rest (List.suffix_cons _ _)]
  | many accepts => exact goMany_congr agree
  | group inner ih =>
    apply ih
    intro rest suffix
    rw [agree rest suffix]
  | optional inner ih => simp only [go, ih agree, agree text List.suffix_rfl]
  | seq first second first_ih second_ih =>
    apply first_ih
    intro rest suffix
    exact second_ih fun left inner => agree left (inner.trans suffix)

private theorem goMany_none (accepts : α → Bool) (text : List α) :
    goMany accepts text (fun _ => none) = none := by
  induction text with
  | nil => rfl
  | cons element rest ih => simp [goMany, ih]

private theorem go_none (pattern : Pattern α) (text : List α) : pattern.go text (fun _ => none) = none := by
  induction pattern generalizing text with
  | nothing => rfl
  | one accepts => cases text <;> simp [go]
  | many accepts => exact goMany_none accepts text
  | group inner ih => simpa [go] using ih text
  | optional inner ih => simp [go, ih text]
  | seq first second first_ih second_ih =>
    simp only [go, second_ih]
    exact first_ih text

/-- A continuation that accepts no suffix leaves no match. -/
theorem go_eq_none (pattern : Pattern α) {text : List α}
    {onward : List α → Option (List (List α))}
    (refuses : ∀ rest, rest <:+ text → onward rest = none) : pattern.go text onward = none :=
  (go_congr pattern refuses).trans (go_none pattern text)

private theorem goMany_extend {accepts : α → Bool} {text tail : List α}
    {onward onward' : List α → Option (List (List α))}
    (agree : ∀ rest, onward' (rest ++ tail) = onward rest)
    (short : ∀ rest, rest <:+ tail → rest.length < tail.length → onward' rest = none) :
    goMany accepts (text ++ tail) onward' = goMany accepts text onward := by
  induction text with
  | nil =>
    cases tail with
    | nil => rfl
    | cons element tail =>
      have inside : ∀ rest, rest <:+ tail → onward' rest = none := fun rest suffix =>
        short rest (suffix.trans (List.suffix_cons _ _)) (Nat.lt_succ_of_le suffix.length_le)
      have longer : goMany accepts tail onward' = none :=
        (goMany_congr inside).trans (goMany_none accepts tail)
      simp [goMany, longer, inside tail List.suffix_rfl]
  | cons element text ih => simp only [List.cons_append, goMany, ih, agree]

/-- A tail that no match cuts into is invisible to the pattern in front of it. -/
theorem go_extend (pattern : Pattern α) {text tail : List α}
    {onward onward' : List α → Option (List (List α))}
    (agree : ∀ rest, onward' (rest ++ tail) = onward rest)
    (short : ∀ rest, rest <:+ tail → rest.length < tail.length → onward' rest = none) :
    pattern.go (text ++ tail) onward' = pattern.go text onward := by
  induction pattern generalizing text onward onward' with
  | nothing => exact agree text
  | one accepts =>
    cases text with
    | nil =>
      cases tail with
      | nil => rfl
      | cons element tail => simp [go, short tail (List.suffix_cons _ _) (Nat.lt_succ_self _)]
    | cons element text => simp only [List.cons_append, go, agree]
  | many accepts => exact goMany_extend agree short
  | group inner ih =>
    apply ih
    · intro rest
      have width : (text ++ tail).length - (rest ++ tail).length = text.length - rest.length := by
        simp only [List.length_append]
        omega
      rw [agree, width, List.take_append_of_le_length (Nat.sub_le _ _)]
    · intro rest suffix shorter
      simp [short rest suffix shorter]
  | optional inner ih => simp only [go, ih agree short, agree]
  | seq first second first_ih second_ih =>
    apply first_ih
    · exact fun rest => second_ih agree short
    · intro rest suffix shorter
      exact go_eq_none second fun left inner =>
        short left (inner.trans suffix) (inner.length_le.trans_lt shorter)

/-- A full match of a front, when the rest of the pattern accepts the tail and nothing else. -/
theorem go_eq_fullMatch (pattern : Pattern α) {text tail : List α}
    {onward : List α → Option (List (List α))} (accepted : onward tail = some [])
    (longer : ∀ element rest, onward (element :: rest ++ tail) = none)
    (short : ∀ rest, rest <:+ tail → rest.length < tail.length → onward rest = none) :
    pattern.go (text ++ tail) onward = pattern.fullMatch text := by
  apply go_extend pattern _ short
  intro rest
  cases rest with
  | nil => exact accepted
  | cons element rest => exact longer element rest

private theorem goMany_length {accepts : α → Bool} {text : List α} {count : ℕ}
    {onward : List α → Option (List (List α))}
    (counted : ∀ rest captures, onward rest = some captures → captures.length = count)
    {captures : List (List α)} (matched : goMany accepts text onward = some captures) :
    captures.length = count := by
  induction text with
  | nil => cases matched
  | cons element rest ih =>
    rw [goMany] at matched
    split at matched
    · rcases Option.or_eq_some_iff.mp matched with longer | ⟨-, here⟩
      · exact ih longer
      · exact counted rest captures here
    · cases matched

/-- A match has one capture for each group. -/
theorem go_length (pattern : Pattern α) {text : List α} {count : ℕ}
    {onward : List α → Option (List (List α))}
    (counted : ∀ rest captures, onward rest = some captures → captures.length = count)
    {captures : List (List α)} (matched : pattern.go text onward = some captures) :
    captures.length = pattern.groups + count := by
  induction pattern generalizing text onward count captures with
  | nothing => simpa [groups] using counted text captures matched
  | one accepts =>
    cases text with
    | nil => cases matched
    | cons element rest =>
      rw [go_one_cons] at matched
      split at matched
      · simpa [groups] using counted rest captures matched
      · cases matched
  | many accepts => simpa [groups] using goMany_length counted matched
  | group inner ih =>
    have deeper : ∀ rest captures,
        (onward rest).map (text.take (text.length - rest.length) :: ·) = some captures →
          captures.length = count + 1 := by
      intro rest captures matched
      obtain ⟨later, taken, rfl⟩ := Option.map_eq_some_iff.mp matched
      simp [counted rest later taken]
    have width := ih deeper matched
    simp only [groups]
    omega
  | optional inner ih =>
    rcases Option.or_eq_some_iff.mp matched with taken | ⟨-, skipped⟩
    · exact ih counted taken
    · obtain ⟨later, here, rfl⟩ := Option.map_eq_some_iff.mp skipped
      simp [groups, counted text later here]
  | seq first second first_ih second_ih =>
    have later : ∀ rest captures, second.go rest onward = some captures →
        captures.length = second.groups + count :=
      fun rest captures matched => second_ih counted matched
    have width := first_ih later matched
    simp only [groups]
    omega

theorem fullMatch_length {pattern : Pattern α} {text : List α} {captures : List (List α)}
    (matched : pattern.fullMatch text = some captures) : captures.length = pattern.groups := by
  have ended : ∀ (rest : List α) captures, atEnd rest = some captures → captures.length = 0 := by
    rintro (_ | ⟨_, _⟩) captures ended
    · obtain rfl := Option.some.inj ended
      rfl
    · cases ended
  exact go_length pattern ended matched

/-- A run of accepted elements is taken whole when no match goes on inside it. -/
theorem goMany_run {accepts : α → Bool} {front rest : List α}
    {onward : List α → Option (List (List α))} (accepted : ∀ element ∈ front, accepts element)
    (nonempty : front ≠ []) (stops : ∀ element ∈ rest.head?, accepts element = false)
    (inside : ∀ element left, accepts element → onward (element :: left) = none) :
    goMany accepts (front ++ rest) onward = onward rest := by
  induction front with
  | nil => exact absurd rfl nonempty
  | cons element front ih =>
    have here : accepts element := accepted element List.mem_cons_self
    simp only [List.cons_append, goMany, here, if_true]
    cases front with
    | nil =>
      have refused : goMany accepts rest onward = none := by
        cases rest with
        | nil => rfl
        | cons next rest => simp [goMany, stops next rfl]
      simp [refused]
    | cons second front =>
      have later := ih (fun other mem => accepted other (List.mem_cons_of_mem _ mem))
        (List.cons_ne_nil _ _)
      rw [later, List.cons_append,
        inside second _ (accepted second (by simp)), Option.or_none]

/-! ## What a match says -/

/-- The text is one the pattern describes, and its groups take these parts of it. -/
def Matches : Pattern α → List α → List (List α) → Prop
  | nothing, text, captures => text = [] ∧ captures = []
  | one accepts, text, captures => (∃ element, accepts element = true ∧ text = [element]) ∧ captures = []
  | many accepts, text, captures =>
    (text ≠ [] ∧ ∀ element ∈ text, accepts element = true) ∧ captures = []
  | group inner, text, captures => ∃ inside, inner.Matches text inside ∧ captures = inside ++ [text]
  | optional inner, text, captures =>
    inner.Matches text captures ∨ text = [] ∧ captures = List.replicate inner.groups []
  | seq first second, text, captures => ∃ front rest before after, text = front ++ rest ∧
    first.Matches front before ∧ second.Matches rest after ∧ captures = before ++ after

private theorem goMany_sound {accepts : α → Bool} {text : List α}
    {onward : List α → Option (List (List α))} {captures : List (List α)}
    (matched : goMany accepts text onward = some captures) :
    ∃ front rest, text = front ++ rest ∧ (front ≠ [] ∧ ∀ element ∈ front, accepts element = true) ∧
      onward rest = some captures := by
  induction text with
  | nil => cases matched
  | cons element rest ih =>
    rw [goMany] at matched
    split at matched
    · rename_i accepted
      rcases Option.or_eq_some_iff.mp matched with longer | ⟨-, here⟩
      · obtain ⟨front, left, rfl, ⟨-, run⟩, later⟩ := ih longer
        exact ⟨element :: front, left, rfl,
          ⟨List.cons_ne_nil _ _, List.forall_mem_cons.mpr ⟨accepted, run⟩⟩, later⟩
      · exact ⟨[element], rest, rfl, ⟨List.cons_ne_nil _ _, by simpa using accepted⟩, here⟩
    · cases matched

/-- A match takes a front that the pattern describes, and its captures come first. -/
theorem go_sound (pattern : Pattern α) {text : List α}
    {onward : List α → Option (List (List α))} {captures : List (List α)}
    (matched : pattern.go text onward = some captures) :
    ∃ front rest before after, text = front ++ rest ∧ pattern.Matches front before ∧
      onward rest = some after ∧ captures = before ++ after := by
  induction pattern generalizing text onward captures with
  | nothing => exact ⟨[], text, [], captures, rfl, ⟨rfl, rfl⟩, matched, rfl⟩
  | one accepts =>
    cases text with
    | nil => cases matched
    | cons element rest =>
      rw [go_one_cons] at matched
      split at matched
      · rename_i accepted
        exact ⟨[element], rest, [], captures, rfl, ⟨⟨element, accepted, rfl⟩, rfl⟩, matched, rfl⟩
      · cases matched
  | many accepts =>
    obtain ⟨front, rest, split, run, later⟩ := goMany_sound matched
    exact ⟨front, rest, [], captures, split, ⟨run, rfl⟩, later, rfl⟩
  | group inner ih =>
    obtain ⟨front, rest, inside, after, rfl, fits, taken, rfl⟩ := ih matched
    obtain ⟨later, here, rfl⟩ := Option.map_eq_some_iff.mp taken
    have width : (front ++ rest).take ((front ++ rest).length - rest.length) = front := by simp
    rw [width]
    exact ⟨front, rest, inside ++ [front], later, rfl, ⟨inside, fits, rfl⟩, here, by simp⟩
  | optional inner ih =>
    rcases Option.or_eq_some_iff.mp matched with taken | ⟨-, skipped⟩
    · obtain ⟨front, rest, before, after, split, fits, later⟩ := ih taken
      exact ⟨front, rest, before, after, split, .inl fits, later⟩
    · obtain ⟨later, here, rfl⟩ := Option.map_eq_some_iff.mp skipped
      exact ⟨[], text, _, later, rfl, .inr ⟨rfl, rfl⟩, here, rfl⟩
  | seq first second first_ih second_ih =>
    obtain ⟨front, left, before, between, rfl, firstFits, taken, rfl⟩ := first_ih matched
    obtain ⟨middle, rest, inside, after, rfl, secondFits, later, rfl⟩ := second_ih taken
    exact ⟨front ++ middle, rest, before ++ inside, after, by simp,
      ⟨front, middle, before, inside, rfl, firstFits, secondFits, rfl⟩, later, by simp⟩

/-- The captures of a full match are those of a description of the text. -/
theorem matches_of_fullMatch {pattern : Pattern α} {text : List α} {captures : List (List α)}
    (matched : pattern.fullMatch text = some captures) : pattern.Matches text captures := by
  obtain ⟨front, rest, before, after, rfl, fits, ended, rfl⟩ := go_sound pattern matched
  cases rest with
  | nil =>
    obtain rfl := Option.some.inj ended
    simpa using fits
  | cons element rest => cases ended

private theorem goMany_complete {accepts : α → Bool} {front rest : List α}
    {onward : List α → Option (List (List α))} (nonempty : front ≠ [])
    (run : ∀ element ∈ front, accepts element = true) (goes : (onward rest).isSome) :
    (goMany accepts (front ++ rest) onward).isSome := by
  induction front with
  | nil => exact absurd rfl nonempty
  | cons element front ih =>
    obtain ⟨accepted, run⟩ := List.forall_mem_cons.mp run
    rw [List.cons_append, goMany, if_pos accepted, Option.isSome_or, Bool.or_eq_true]
    cases front with
    | nil => exact .inr goes
    | cons next front => exact .inl (ih (List.cons_ne_nil _ _) run)

/-- A front that the pattern describes is found when the rest goes on behind it. -/
theorem go_complete {pattern : Pattern α} {front rest : List α} {captures : List (List α)}
    {onward : List α → Option (List (List α))} (fits : pattern.Matches front captures)
    (goes : (onward rest).isSome) : (pattern.go (front ++ rest) onward).isSome := by
  induction pattern generalizing front rest captures onward with
  | nothing =>
    obtain ⟨rfl, -⟩ := fits
    exact goes
  | one accepts =>
    obtain ⟨⟨element, accepted, rfl⟩, -⟩ := fits
    rwa [List.cons_append, go_one_cons, if_pos accepted]
  | many accepts => exact goMany_complete fits.1.1 fits.1.2 goes
  | group inner ih =>
    obtain ⟨inside, fits, -⟩ := fits
    exact ih fits (by rwa [Option.isSome_map])
  | optional inner ih =>
    rw [go, Option.isSome_or, Bool.or_eq_true]
    rcases fits with fits | ⟨rfl, -⟩
    · exact .inl (ih fits goes)
    · exact .inr (by rwa [Option.isSome_map])
  | seq first second first_ih second_ih =>
    obtain ⟨head, middle, before, after, rfl, firstFits, secondFits, -⟩ := fits
    rw [List.append_assoc]
    exact first_ih firstFits (second_ih secondFits goes)

/-- There is a full match exactly when the pattern describes the text. -/
theorem isSome_fullMatch_iff {pattern : Pattern α} {text : List α} :
    (pattern.fullMatch text).isSome ↔ ∃ captures, pattern.Matches text captures := by
  constructor
  · intro matched
    obtain ⟨captures, found⟩ := Option.isSome_iff_exists.mp matched
    exact ⟨captures, matches_of_fullMatch found⟩
  · rintro ⟨captures, fits⟩
    have found : (pattern.go (text ++ []) atEnd).isSome := go_complete fits rfl
    rwa [List.append_nil] at found

/-- Where a text has one description, its full match has the captures of that one. -/
theorem fullMatch_eq_some {pattern : Pattern α} {text : List α} {captures : List (List α)}
    (fits : pattern.Matches text captures)
    (unique : ∀ others, pattern.Matches text others → others = captures) :
    pattern.fullMatch text = some captures := by
  obtain ⟨found, matched⟩ := Option.isSome_iff_exists.mp (isSome_fullMatch_iff.mpr ⟨captures, fits⟩)
  rw [matched, unique found (matches_of_fullMatch matched)]

theorem matches_append {first second : Pattern α} {text : List α} {captures : List (List α)} :
    (first ++ second).Matches text captures ↔ ∃ front rest before after, text = front ++ rest ∧
      first.Matches front before ∧ second.Matches rest after ∧ captures = before ++ after := Iff.rfl

/-- A literal describes itself only. -/
theorem matches_literal [BEq α] [LawfulBEq α] {elements text : List α} {captures : List (List α)} :
    (literal elements).Matches text captures ↔ text = elements ∧ captures = [] := by
  induction elements generalizing text captures with
  | nil => rfl
  | cons element rest ih =>
    rw [literal, matches_append]
    simp only [ih, Matches, beq_iff_eq]
    constructor
    · rintro ⟨_, _, _, _, rfl, ⟨⟨_, rfl, rfl⟩, rfl⟩, ⟨rfl, rfl⟩, rfl⟩
      exact ⟨rfl, rfl⟩
    · rintro ⟨rfl, rfl⟩
      exact ⟨[element], rest, [], [], rfl, ⟨⟨element, rfl, rfl⟩, rfl⟩, ⟨rfl, rfl⟩, rfl⟩

end Pattern

end DpcppTrace.Foundation
