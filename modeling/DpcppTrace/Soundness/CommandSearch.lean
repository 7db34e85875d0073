import DpcppTrace.Model.Which

/-! # The search for an executable

The loop of `which` runs from separator to separator. At the start of a component what is left of the
path splits into that component and the rest, so a pass looks at the first candidate of what is
left, and the last pass is the one whose component reaches the end.
-/

namespace DpcppTrace.Soundness

open Foundation Model

/-- What a path asks for: each component, in order, joined with the name. -/
def candidates (path executable : Bytes) : List Bytes :=
  (path.splitOn 0x3a).map (candidate · executable)

/-- The end of a search through these candidates, behind those that were tried before. -/
def searched (existing : Bytes → Bool) (executable : Bytes) (before left : List Bytes) :
    WhichResult where
  outcome :=
    match left.find? existing with
    | some cand => .ok cand
    | none => .error (.notFound (str "Executable not found " ++ executable))
  tried := before ++ left.take (left.findIdx existing + 1)

section Search

variable {existing : Bytes → Bool} {path executable : Bytes} {s : Which}

private theorem searched_cons (before : List Bytes) (cand : Bytes) (left : List Bytes) :
    searched existing executable before (cand :: left) =
      if existing cand = true then ⟨.ok cand, before ++ [cand]⟩
      else searched existing executable (before ++ [cand]) left := by
  cases there : existing cand with
  | true => simp [searched, there, List.findIdx_cons]
  | false => simp [searched, there, List.findIdx_cons]

/-! ## Positions -/

private theorem findSeparator_last {start : UInt64} (last : 0x3a ∉ path.drop start.toNat) :
    findSeparator path start = npos := by
  have none : (path.drop start.toNat).findIdx? (· = 0x3a) = none := by
    rw [List.findIdx?_eq_none_iff]
    intro c mem
    apply decide_eq_false
    rintro rfl
    exact last mem
  rw [findSeparator, none]

private theorem findSeparator_next {start : UInt64} {front behind : Bytes} (sized : path.length < 2 ^ 64)
    (split : path.drop start.toNat = front ++ 0x3a :: behind) (clear : 0x3a ∉ front) :
    (findSeparator path start).toNat = start.toNat + front.length := by
  have found : (path.drop start.toNat).findIdx? (· = 0x3a) = some front.length := by
    rw [split, List.findIdx?_eq_some_iff_getElem]
    refine ⟨by simp, by simp, fun i before => ?_⟩
    rw [List.getElem_append_left before]
    have other : front[i] ≠ 0x3a := fun same => clear (same ▸ List.getElem_mem before)
    simpa using other
  have lengths := congrArg List.length split
  rw [List.length_drop, List.length_append, List.length_cons] at lengths
  rw [findSeparator, found]
  change (start + UInt64.ofNat front.length).toNat = _
  rw [UInt64.toNat_add, UInt64.toNat_ofNat']
  omega

/-- The pass over the last component. -/
theorem body_last (sized : path.length < 2 ^ 64) (inside : s.lastSeparator.toNat ≤ path.length)
    (last : 0x3a ∉ path.drop s.lastSeparator.toNat) :
    s.body existing path executable =
      let cand := candidate (path.drop s.lastSeparator.toNat) executable
      if existing cand = true then .inl ⟨.ok cand, s.tried ++ [cand]⟩
      else .inr ⟨0, true, s.tried ++ [cand]⟩ := by
  have length : (UInt64.ofNat path.length - s.lastSeparator).toNat =
      (path.drop s.lastSeparator.toNat).length := by
    rw [UInt64.toNat_sub_of_le, UInt64.toNat_ofNat', Nat.mod_eq_of_lt sized, List.length_drop]
    rw [UInt64.le_iff_toNat_le, UInt64.toNat_ofNat', Nat.mod_eq_of_lt sized]
    exact inside
  have wrapped : npos + 1 = 0 := rfl
  simp only [Which.body, findSeparator_last last, if_true, length, List.take_length, wrapped,
    if_neg (Nat.not_lt.mpr inside), decide_true, Bool.or_true]

/-- The pass over a component in front of a separator. -/
theorem body_next (existing : Bytes → Bool) (executable : Bytes) {front behind : Bytes}
    (sized : path.length < 2 ^ 64) (split : path.drop s.lastSeparator.toNat = front ++ 0x3a :: behind)
    (clear : 0x3a ∉ front) :
    ∃ next : UInt64, next.toNat ≤ path.length ∧ path.drop next.toNat = behind ∧
      s.body existing path executable =
        let cand := candidate front executable
        if existing cand = true then .inl ⟨.ok cand, s.tried ++ [cand]⟩
        else .inr ⟨next, s.done, s.tried ++ [cand]⟩ := by
  have lengths := congrArg List.length split
  rw [List.length_drop, List.length_append, List.length_cons] at lengths
  have position := findSeparator_next sized split clear
  have found : findSeparator path s.lastSeparator ≠ npos := by
    intro same
    rw [same] at position
    change 2 ^ 64 - 1 = _ at position
    omega
  have length : (findSeparator path s.lastSeparator - s.lastSeparator).toNat = front.length := by
    rw [UInt64.toNat_sub_of_le, position]
    · omega
    · rw [UInt64.le_iff_toNat_le, position]
      omega
  have behindIt : (findSeparator path s.lastSeparator + 1).toNat =
      s.lastSeparator.toNat + (front.length + 1) := by
    rw [UInt64.toNat_add, position]
    change (_ + 1) % 2 ^ 64 = _
    omega
  have component : (path.drop s.lastSeparator.toNat).take front.length = front := by
    rw [split, List.take_left]
  refine ⟨findSeparator path s.lastSeparator + 1, by omega, ?_, ?_⟩
  · rw [behindIt, ← List.drop_drop, split, ← List.singleton_append, ← List.append_assoc]
    exact List.drop_left' (by simp)
  · have inside : ¬path.length < s.lastSeparator.toNat := by omega
    simp only [Which.body, found, if_false, length, component, if_neg inside, decide_false,
      Bool.or_false]

/-! ## The loop -/

private theorem splitOn_colon (text : Bytes) :
    (0x3a ∉ text ∧ text.splitOn 0x3a = [text]) ∨
      ∃ front behind, text = front ++ 0x3a :: behind ∧ 0x3a ∉ front ∧
        text.splitOn 0x3a = front :: behind.splitOn 0x3a := by
  rcases Classical.em (0x3a ∈ text) with mem | last
  · obtain ⟨front, behind, rfl, clear⟩ := List.eq_append_cons_of_mem mem
    exact .inr ⟨front, behind, rfl, clear, List.splitOn_append_cons_self_of_not_mem clear behind⟩
  · exact .inl ⟨last, List.splitOn_eq_singleton last⟩

/-- From the start of a component the loop searches the candidates of what is left. -/
theorem run_eq_searched {passes : ℕ} (sized : path.length < 2 ^ 64) (going : s.done = false)
    (inside : s.lastSeparator.toNat ≤ path.length)
    (enough : ((path.drop s.lastSeparator.toNat).splitOn 0x3a).length ≤ passes) :
    s.run existing path executable passes = some (searched existing executable s.tried
      (candidates (path.drop s.lastSeparator.toNat) executable)) := by
  induction passes generalizing s with
  | zero =>
    have none := List.eq_nil_of_length_eq_zero (Nat.le_zero.mp enough)
    exact absurd none (List.splitOn_ne_nil _ _)
  | succ passes ih =>
    rcases splitOn_colon (path.drop s.lastSeparator.toNat) with
      ⟨last, single⟩ | ⟨front, behind, split, clear, pieces⟩
    · rw [Which.run, body_last sized inside last, candidates, single, List.map_singleton,
        searched_cons]
      cases there : existing (candidate (path.drop s.lastSeparator.toNat) executable) with
      | true => simp [there]
      | false => simp [there, searched]
    · obtain ⟨position, fits, left, pass⟩ := body_next existing executable sized split clear
      rw [pieces, List.length_cons] at enough
      have later := ih (s := ⟨position, s.done, s.tried ++ [candidate front executable]⟩) going fits
        (by rw [left]; omega)
      rw [left, candidates] at later
      rw [Which.run, pass, candidates, pieces, List.map_cons, searched_cons]
      cases there : existing (candidate front executable) with
      | true => simp [there]
      | false => simpa [there, going] using later

end Search

/-- The loop of `which` ends within one pass for each component. It gives the first candidate that
exists, it has tried the candidates up to that one in order, or all of them, and it throws exactly
when there is none. -/
theorem which_searches (existing : Bytes → Bool) (path : Buffer) (executable : Bytes) :
    ∃ result : WhichResult,
      (∀ passes, (path.data.splitOn 0x3a).length ≤ passes →
        which existing path.data executable passes = some result) ∧
      (∀ cand, result.outcome = .ok cand ↔
        (candidates path.data executable).find? existing = some cand) ∧
      ((∃ error, result.outcome = .error error) ↔
        ∀ cand ∈ candidates path.data executable, existing cand = false) ∧
      result.tried = (candidates path.data executable).take
        ((candidates path.data executable).findIdx existing + 1) := by
  refine ⟨searched existing executable [] (candidates path.data executable), ?_, ?_, ?_, rfl⟩
  · intro passes enough
    exact run_eq_searched path.sized rfl (Nat.zero_le _) enough
  · intro cand
    rw [searched]
    cases (candidates path.data executable).find? existing with
    | none => simp
    | some first => simp
  · rw [searched]
    cases found : (candidates path.data executable).find? existing with
    | none => simpa using found
    | some first =>
      have there := List.find?_some found
      have mem := List.mem_of_find?_eq_some found
      simp only [reduceCtorEq, exists_false, false_iff]
      intro none
      rw [none first mem] at there
      cases there

end DpcppTrace.Soundness
