import DpcppTrace.Foundation.ShellWords

/-! # The command that a shell runs

A shell expands the words of a line: tildes, parameters, and patterns of file names. What it knows
of its parameters, home directories, files and search path is a parameter of the reading. Words of the
form `NAME=VALUE` in front of the command are assignments for it; fields are separated at blanks, as
they are unless `IFS` is set.
-/

namespace DpcppTrace.Foundation

/-- What a shell looks up: the value of a parameter, the home directory of a login name (the empty
name is the user's own), the files of a pattern, and the file of a command name without a slash. A
pattern is a text whose bytes are quoted (`false`) or not. -/
structure Shell where
  parameter : Bytes → Option Bytes
  home : Bytes → Bytes
  glob : List (UInt8 × Bool) → List Bytes
  search : Bytes → Option Bytes

/-- A command with the variables that are set for it. -/
structure Command where
  assignments : List Bytes
  path : Bytes
  arguments : List Bytes
deriving DecidableEq

/-- A part of an expanded word: a byte that may belong to a pattern or not, the place of a pair of
quotes, or a separator of fields. -/
inductive Fragment where
  | byte (c : UInt8) (active : Bool)
  | mark
  | gap
deriving DecidableEq

def Fragment.character : Fragment → Option (UInt8 × Bool)
  | .byte c active => some (c, active)
  | _ => none

/-- Behind a `[`: at least one member, then an unquoted `]`, and no slash between. -/
def closesBracket (rest : List (UInt8 × Bool)) : Bool :=
  let list := if rest.head? = some (0x21, true) then rest.tail else rest
  let members := list.take 1 ++ list.tail.takeWhile (· ≠ (0x5d, true))
  members.length < list.length && members.all fun c => c.1 ≠ 0x2f

/-- Whether an unquoted `*` or `?` or a list in brackets makes the text a pattern. -/
def hasPattern : List (UInt8 × Bool) → Bool
  | [] => false
  | (c, active) :: rest =>
    active && (c = 0x2a || c = 0x3f || (c = 0x5b && closesBracket rest)) || hasPattern rest

/-- The byte of a piece outside quotes. -/
def Piece.unquoted : Piece → Option UInt8
  | .plain c => some c
  | _ => none

/-- The length of the name at the start of a word. -/
def nameLength (word : Word) : ℕ :=
  (word.takeWhile fun piece => piece.unquoted.any continuesName).length

/-- Words of the form `NAME=VALUE`. -/
def isAssignment (word : Word) : Bool :=
  word.head?.any (fun piece => piece.unquoted.any startsName) ∧
    word[nameLength word]? = some (.plain 0x3d)

namespace Shell

variable (shell : Shell)

def value (name : Bytes) : Bytes := (shell.parameter name).getD []

/-- A word or a part of an assignment with the home directory in place of its tilde prefix, which
reaches to the first slash and has no quotes in it. -/
def tilde (word : Word) : Word :=
  let login := word.tail.takeWhile (· ≠ .plain 0x2f)
  if word.head? = some (.plain 0x7e) ∧ login.all (·.unquoted.isSome) then
    (shell.home (login.flatMap Piece.literal)).map .quoted ++ word.drop (login.length + 1)
  else word

/-- The bytes of a piece in an assignment. -/
def bytes : Piece → Bytes
  | .parameter name _ => shell.value name
  | piece => piece.literal

/-- The entry of an assignment; each part between unquoted colons may start with a tilde. -/
def assignment (word : Word) : Bytes :=
  let front := nameLength word + 1
  (word.take front).flatMap Piece.literal ++
    [0x3a].intercalate (((word.drop front).splitOn (.plain 0x3a)).map
      fun part => (shell.tilde part).flatMap shell.bytes)

def fragments : Piece → List Fragment
  | .plain c => [.byte c true]
  | .quoted c => [.byte c false]
  | .mark => [.mark]
  | .parameter name true => (shell.value name).map (.byte · false)
  | .parameter name false =>
    (shell.value name).map fun c => if isBlank c ∨ c = 0x0a then .gap else .byte c true

/-- The names of the files that a field matches, or the field itself. -/
def pathnames (field : List (UInt8 × Bool)) : List Bytes :=
  if hasPattern field ∧ shell.glob field ≠ [] then shell.glob field else [field.map Prod.fst]

/-- The fields of a word. One that expands to nothing has none, unless there are quotes in it. -/
def fields (word : Word) : List Bytes :=
  ((((shell.tilde word).flatMap shell.fragments).splitOn .gap).filter (· ≠ [])).flatMap
    fun field => shell.pathnames (field.filterMap Fragment.character)

/-- The command of these words; none when there is no command name or when it is not found. -/
def command (words : List Word) : Option Command :=
  let assigned := words.takeWhile isAssignment
  match (words.drop assigned.length).flatMap shell.fields with
  | [] => none
  | name :: arguments =>
    (if 0x2f ∈ name then some name else shell.search name).map fun path =>
      ⟨assigned.map shell.assignment, path, arguments⟩

/-- The command of a line. -/
def reads (text : Bytes) : Option Command := (shellWords text).bind shell.command

end Shell

example :
    Shell.reads ⟨fun _ => some (str "u v"), fun _ => str "/h", fun _ => [], fun _ => none⟩
      (str "A=~:b:$C ~/d [e $C\\ \"$C\" ''\n") =
    some ⟨[str "A=/h:b:u v"], str "/h/d", [str "[e", str "u", str "v u v", []]⟩ := by rfl

/-! ## Words without quotes -/

/-- A value that stands for itself in an assignment. -/
structure PlainValue (text : Bytes) : Prop where
  ordinary : ∀ c ∈ text, isOrdinary c = true
  untilded : ∀ part ∈ text.splitOn 0x3a, part.head? ≠ some 0x7e

/-- A field that stands for itself. -/
structure PlainField (text : Bytes) : Prop where
  nonempty : text ≠ []
  ordinary : ∀ c ∈ text, isOrdinary c = true
  uncommented : text.head? ≠ some 0x23
  untilded : text.head? ≠ some 0x7e
  unmatched : hasPattern (text.map (·, true)) = false

theorem spell_entry (name value : Bytes) :
    spell (name ++ 0x3d :: value) = spell name ++ .plain 0x3d :: spell value := by
  simp [spell]

private theorem nameLength_spell {name : Bytes} (continues : ∀ c ∈ name, continuesName c = true)
    (rest : Word) : nameLength (spell name ++ .plain 0x3d :: rest) = name.length := by
  rw [nameLength, List.takeWhile_append_of_pos, List.takeWhile_cons_of_neg (by decide)]
  · simp [spell]
  · intro piece mem
    obtain ⟨c, there, rfl⟩ := List.mem_map.mp mem
    exact continues c there

theorem isAssignment_spell {c : UInt8} {name : Bytes} (starts : startsName c = true)
    (continues : ∀ d ∈ c :: name, continuesName d = true) (rest : Word) :
    isAssignment (spell (c :: name) ++ .plain 0x3d :: rest) = true := by
  have sign : (spell (c :: name) ++ .plain 0x3d :: rest)[(c :: name).length]? =
      some (.plain 0x3d) := by
    rw [List.getElem?_append_right (by simp [spell])]
    simp [spell]
  rw [isAssignment, nameLength_spell continues, sign]
  simp [spell, Piece.unquoted, starts]

theorem splitOn_spell (c : UInt8) (text : Bytes) :
    (spell text).splitOn (.plain c) = (text.splitOn c).map spell := by
  induction text with
  | nil => rfl
  | cons d text ih =>
    rw [spell] at ih ⊢
    rw [List.map_cons, List.splitOn_cons_eq_if_modifyHead, List.splitOn_cons_eq_if_modifyHead, ih]
    by_cases same : d = c
    · subst same
      simp [spell]
    · rw [if_neg (by simpa using same), if_neg (by simpa using same)]
      cases text.splitOn c with
      | nil => rfl
      | cons part parts => rfl

namespace Shell

variable {shell : Shell}

private theorem tilde_untilded {word : Word} (untilded : word.head? ≠ some (.plain 0x7e)) :
    shell.tilde word = word := by
  rw [tilde, if_neg fun both => untilded both.1]

theorem tilde_tilded (text : Bytes) : shell.tilde (spell (0x7e :: text)) =
    (shell.home (text.takeWhile (· ≠ 0x2f))).map .quoted ++
      spell (text.drop (text.takeWhile (· ≠ 0x2f)).length) := by
  have login : (spell text).takeWhile (· ≠ .plain 0x2f) = spell (text.takeWhile (· ≠ 0x2f)) := by
    rw [spell, List.takeWhile_map]
    congr 2
    funext c
    simp
  have letters : (spell (text.takeWhile (· ≠ 0x2f))).flatMap Piece.literal =
      text.takeWhile (· ≠ 0x2f) := by
    rw [spell, List.flatMap_map]
    exact List.flatMap_singleton' _
  have tail : (spell (0x7e :: text)).tail = spell text := rfl
  have unquoted (text : Bytes) : (spell text).all (·.unquoted.isSome) = true := by
    simp [spell, Piece.unquoted]
  rw [tilde, tail, login, if_pos ⟨rfl, unquoted _⟩, letters]
  simp [spell]

private theorem bytes_spell (text : Bytes) : (spell text).flatMap shell.bytes = text := by
  rw [spell, List.flatMap_map]
  exact List.flatMap_singleton' text

/-- The entry of an assignment, by the name in front of it. -/
theorem assignment_spell {name : Bytes} (continues : ∀ c ∈ name, continuesName c = true)
    (rest : Word) : shell.assignment (spell name ++ .plain 0x3d :: rest) =
      name ++ 0x3d :: [0x3a].intercalate ((rest.splitOn (.plain 0x3a)).map
        fun part => (shell.tilde part).flatMap shell.bytes) := by
  have split : spell name ++ .plain 0x3d :: rest = (spell name ++ [.plain 0x3d]) ++ rest := by
    simp
  have length : (spell name ++ [Piece.plain 0x3d]).length = name.length + 1 := by simp [spell]
  have letters : (spell name ++ [Piece.plain 0x3d]).flatMap Piece.literal = name ++ [0x3d] := by
    rw [List.flatMap_append, spell, List.flatMap_map]
    exact congrArg (· ++ [0x3d]) (List.flatMap_singleton' name)
  rw [assignment, nameLength_spell continues, split, ← length, List.take_left, List.drop_left,
    letters]
  simp

/-- Parts without tildes expand to what the whole expands to. -/
theorem intercalate_untilded {rest : Word}
    (untilded : ∀ part ∈ rest.splitOn (.plain 0x3a), part.head? ≠ some (.plain 0x7e)) :
    [0x3a].intercalate ((rest.splitOn (.plain 0x3a)).map
      fun part => (shell.tilde part).flatMap shell.bytes) = rest.flatMap shell.bytes := by
  have joined (parts : List Word) : [0x3a].intercalate (parts.map (·.flatMap shell.bytes)) =
      ([.plain 0x3a].intercalate parts).flatMap shell.bytes := by
    induction parts with
    | nil => rfl
    | cons part parts ih =>
      cases parts with
      | nil => simp
      | cons next parts =>
        rw [List.map_cons] at ih
        rw [List.map_cons, List.map_cons, List.intercalate_cons_cons, List.intercalate_cons_cons,
          ih, List.flatMap_append, List.flatMap_append]
        rfl
  have same : (rest.splitOn (.plain 0x3a)).map
      (fun part => (shell.tilde part).flatMap shell.bytes) =
      (rest.splitOn (.plain 0x3a)).map (·.flatMap shell.bytes) := by
    apply List.map_congr_left
    intro part mem
    rw [tilde_untilded (untilded part mem)]
  rw [same, joined, List.intercalate_splitOn]

/-- Bytes that are not separated make one field. -/
theorem fields_of_fragments {word : Word} {field : List Fragment}
    (expanded : (shell.tilde word).flatMap shell.fragments = field) (nonempty : field ≠ [])
    (whole : .gap ∉ field) :
    shell.fields word = shell.pathnames (field.filterMap Fragment.character) := by
  rw [fields, expanded, List.splitOn_eq_singleton whole,
    List.filter_cons_of_pos (by simpa using nonempty)]
  simp

theorem fields_spell {text : Bytes} (nonempty : text ≠ []) (untilded : text.head? ≠ some 0x7e) :
    shell.fields (spell text) = shell.pathnames (text.map (·, true)) := by
  have head : (spell text).head? ≠ some (.plain 0x7e) := by
    rw [spell, List.head?_map]
    simpa using untilded
  have expanded : (shell.tilde (spell text)).flatMap shell.fragments =
      text.map (Fragment.byte · true) := by
    rw [tilde_untilded head, spell, List.flatMap_map]
    exact List.map_eq_flatMap.symm
  rw [fields_of_fragments expanded (by simpa using nonempty) (by simp)]
  simp [List.filterMap_map, Function.comp_def, Fragment.character]

/-- The command behind assignments. -/
theorem command_assigned {assigned rest : List Word} {word : Word} {name : Bytes}
    (assigns : ∀ word ∈ assigned, isAssignment word = true) (other : isAssignment word = false)
    (single : shell.fields word = [name]) : shell.command (assigned ++ word :: rest) =
      (if 0x2f ∈ name then some name else shell.search name).map fun path =>
        ⟨assigned.map shell.assignment, path, rest.flatMap shell.fields⟩ := by
  have front : (assigned ++ word :: rest).takeWhile isAssignment = assigned := by
    rw [List.takeWhile_append_of_pos assigns, List.takeWhile_cons_of_neg (by simp [other]),
      List.append_nil]
  simp only [command, front, List.drop_left, List.flatMap_cons, single, List.singleton_append]

theorem command_assignments {assigned : List Word} {rest : List Word} {found : Command}
    (assigns : ∀ word ∈ assigned, isAssignment word = true)
    (run : shell.command (assigned ++ rest) = some found) :
    found.assignments = (assigned ++ rest.takeWhile isAssignment).map shell.assignment ∧
      rest.dropWhile isAssignment ≠ [] := by
  have front : (assigned ++ rest).takeWhile isAssignment =
      assigned ++ rest.takeWhile isAssignment := List.takeWhile_append_of_pos assigns
  have behind : (assigned ++ rest).drop (assigned ++ rest.takeWhile isAssignment).length =
      rest.dropWhile isAssignment := by
    rw [List.length_append, List.drop_length_add_append]
    calc rest.drop (rest.takeWhile isAssignment).length
        = (rest.takeWhile isAssignment ++ rest.dropWhile isAssignment).drop
            (rest.takeWhile isAssignment).length := by rw [List.takeWhile_append_dropWhile]
      _ = rest.dropWhile isAssignment := List.drop_left
  rw [command] at run
  simp only [front, behind] at run
  split at run
  · cases run
  next name arguments expanded =>
    obtain ⟨path, -, rfl⟩ := Option.map_eq_some_iff.mp run
    refine ⟨rfl, fun none => ?_⟩
    rw [none] at expanded
    cases expanded

end Shell

theorem PlainField.fields {text : Bytes} (plain : PlainField text) (shell : Shell) :
    shell.fields (spell text) = [text] := by
  rw [Shell.fields_spell plain.nonempty plain.untilded, Shell.pathnames,
    if_neg fun both => by rw [plain.unmatched] at both; cases both.1]
  simp [Function.comp_def]

/-- The parts of a value without tildes are words without tildes. -/
theorem PlainValue.parts {value : Bytes} (plain : PlainValue value) :
    ∀ part ∈ (spell value).splitOn (.plain 0x3a), part.head? ≠ some (.plain 0x7e) := by
  rw [splitOn_spell]
  intro part mem tilded
  obtain ⟨text, there, rfl⟩ := List.mem_map.mp mem
  rw [spell, List.head?_map, Option.map_eq_some_iff] at tilded
  obtain ⟨c, head, same⟩ := tilded
  apply plain.untilded text there
  rw [head, Piece.plain.inj same]

theorem PlainValue.assignment {name value : Bytes} (plain : PlainValue value)
    (continues : ∀ c ∈ name, continuesName c = true) (shell : Shell) :
    shell.assignment (spell (name ++ 0x3d :: value)) = name ++ 0x3d :: value := by
  rw [spell_entry, Shell.assignment_spell continues, Shell.intercalate_untilded plain.parts,
    Shell.bytes_spell]

/-- The value of a parameter may follow a colon. -/
theorem PlainValue.assignment_parameter {name value : Bytes} (plain : PlainValue value)
    (continues : ∀ c ∈ name, continuesName c = true) (shell : Shell) (parameter : Bytes) :
    shell.assignment
        (spell (name ++ 0x3d :: value) ++ [.plain 0x3a, .parameter parameter false]) =
      name ++ 0x3d :: value ++ 0x3a :: shell.value parameter := by
  have parts : ∀ part ∈ (spell value ++ [Piece.plain 0x3a, .parameter parameter false]).splitOn
      (Piece.plain 0x3a), part.head? ≠ some (.plain 0x7e) := by
    rw [List.splitOn_append_cons_self]
    intro part mem
    rcases List.mem_append.mp mem with mem | mem
    · exact plain.parts part mem
    · have last : part = [.parameter parameter false] := by
        simpa [List.splitOn_cons_eq_if_modifyHead] using mem
      simp [last]
  have split : spell (name ++ 0x3d :: value) ++ [.plain 0x3a, .parameter parameter false] =
      spell name ++ .plain 0x3d :: (spell value ++ [.plain 0x3a, .parameter parameter false]) := by
    rw [spell_entry]
    simp
  rw [split, Shell.assignment_spell continues, Shell.intercalate_untilded parts,
    List.flatMap_append, Shell.bytes_spell]
  simp [Shell.bytes, Piece.literal]

end DpcppTrace.Foundation
