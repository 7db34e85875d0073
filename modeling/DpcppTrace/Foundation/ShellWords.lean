import DpcppTrace.Foundation.Bytes
import Mathlib.Data.List.TakeWhile

/-! # The words of a shell command

One line of text is cut into words by the quoting rules of the POSIX shell: backslashes, both kinds
of quotes, parameters by name, comments, and lines continued by a backslash. Operators, command
substitutions and the other forms of parameters are not read, nor is a `$` for which the standard
leaves the reading open.

Bytes that have no meaning of their own stand for themselves, one word to each run of them.
-/

namespace DpcppTrace.Foundation

/-- A part of a word: a byte, quoted or not, the place of a pair of quotes, or a parameter, within
double quotes or not. -/
inductive Piece where
  | plain (c : UInt8)
  | quoted (c : UInt8)
  | mark
  | parameter (name : Bytes) (quoted : Bool)
deriving DecidableEq

abbrev Word := List Piece

/-- The byte that a piece is. -/
def Piece.literal : Piece → Bytes
  | .plain c => [c]
  | .quoted c => [c]
  | _ => []

/-- Where the reader of a line stands; `ended` is behind its newline. -/
inductive Region where
  | bare | single | double | comment | ended
deriving DecidableEq

/-- The reader of a line: whether it is behind a backslash, the name of a parameter so far, the word
so far, and the words in front. -/
structure Lexer where
  region : Region := .bare
  escaped : Bool := false
  name : Option Bytes := none
  word : Option Word := none
  words : List Word := []

/-- The blanks of the POSIX locale. -/
def isBlank (c : UInt8) : Bool := c = 0x20 ∨ c = 0x09

/-- The bytes of operators, and the quote of command substitutions. -/
def isOperator (c : UInt8) : Bool :=
  c = 0x7c ∨ c = 0x26 ∨ c = 0x3b ∨ c = 0x3c ∨ c = 0x3e ∨ c = 0x28 ∨ c = 0x29 ∨ c = 0x60

def startsName (c : UInt8) : Bool :=
  (0x41 ≤ c ∧ c ≤ 0x5a) ∨ (0x61 ≤ c ∧ c ≤ 0x7a) ∨ c = 0x5f

def continuesName (c : UInt8) : Bool := startsName c ∨ (0x30 ≤ c ∧ c ≤ 0x39)

/-- The bytes that a backslash quotes within double quotes. -/
def isEscapable (c : UInt8) : Bool := c = 0x24 ∨ c = 0x60 ∨ c = 0x22 ∨ c = 0x5c

def isQuote (c : UInt8) : Bool := c = 0x27 ∨ c = 0x22

/-- The bytes that change how a text is read on. -/
def isMark (c : UInt8) : Bool := c = 0x5c ∨ c = 0x24

/-- The bytes that stand for themselves within a word. -/
def isOrdinary (c : UInt8) : Bool :=
  c ≠ 0 ∧ c ≠ 0x0a ∧ isBlank c = false ∧ isOperator c = false ∧ isQuote c = false ∧ isMark c = false

namespace Lexer

def push (s : Lexer) (pieces : Word) : Lexer := { s with word := some (s.word.getD [] ++ pieces) }

/-- The end of a word, if there is one. -/
def finish (s : Lexer) : Lexer := { s with word := none, words := s.words ++ s.word.toList }

def enter (s : Lexer) (region : Region) : Lexer := { s with region }

/-- The end of a parameter, if there is one; it must have a name. -/
def closeName (s : Lexer) : Option Lexer :=
  match s.name with
  | none => some s
  | some [] => none
  | some (c :: name) =>
    some ({ s with name := none }.push [.parameter (c :: name) (s.region = Region.double)])

/-- The byte behind a backslash. -/
def escape (s : Lexer) (c : UInt8) : Lexer :=
  if s.region = .double ∧ isEscapable c = false then s.push [.quoted 0x5c, .quoted c]
  else s.push [.quoted c]

/-- A byte where no backslash and no name is open. -/
def read (s : Lexer) (c : UInt8) : Option Lexer :=
  match s.region with
  | .bare =>
    if isOperator c then none
    else if isBlank c then some s.finish
    else if c = 0x0a then some (s.finish.enter .ended)
    else if c = 0x5c then some { s with escaped := true }
    else if c = 0x27 then some ((s.push [.mark]).enter .single)
    else if c = 0x22 then some ((s.push [.mark]).enter .double)
    else if c = 0x24 then some { s with name := some [] }
    else if c = 0x23 ∧ s.word = none then some (s.enter .comment)
    else some (s.push [.plain c])
  | .single => if c = 0x27 then some (s.enter .bare) else some (s.push [.quoted c])
  | .double =>
    if c = 0x60 then none
    else if c = 0x22 then some (s.enter .bare)
    else if c = 0x5c then some { s with escaped := true }
    else if c = 0x24 then some { s with name := some [] }
    else some (s.push [.quoted c])
  | .comment => if c = 0x0a then some (s.enter .ended) else some s
  | .ended => none

/-- Whether the byte belongs to the name of the parameter. -/
def inName (s : Lexer) (c : UInt8) : Bool :=
  s.name.any fun name => if name = [] then startsName c else continuesName c

/-- The next byte of the text. A backslash and a newline are both left out, within a name too. -/
def step (s : Lexer) (c : UInt8) : Option Lexer :=
  if c = 0 then none
  else if s.escaped then
    if c = 0x0a then some { s with escaped := false }
    else (closeName { s with escaped := false }).map fun closed => closed.escape c
  else if s.inName c then some { s with name := s.name.map (· ++ [c]) }
  else if s.name.isSome ∧ c = 0x5c then some { s with escaped := true }
  else s.closeName.bind fun closed => closed.read c

end Lexer

/-- The words of a line with its newline. -/
def shellWords (text : Bytes) : Option (List Word) := do
  let s ← text.foldlM Lexer.step {}
  if s.region = .ended then some s.words else none

example : shellWords (str "A=$B:c \\\n'd e'f\\  \"$g\"# #h\n") =
    some [[.plain 0x41, .plain 0x3d, .parameter [0x42] false, .plain 0x3a, .plain 0x63],
      [.mark, .quoted 0x64, .quoted 0x20, .quoted 0x65, .plain 0x66, .quoted 0x20],
      [.mark, .parameter [0x67] true, .plain 0x23]] := by rfl

theorem shellWords_eq_some {text : Bytes} {words : List Word}
    (read : shellWords text = some words) :
    ∃ s : Lexer, text.foldlM Lexer.step {} = some s ∧ s.words = words := by
  obtain ⟨s, run, ended⟩ := Option.bind_eq_some_iff.mp read
  split at ended
  · exact ⟨s, run, Option.some.inj ended⟩
  · cases ended

/-- The word that is written without quotes. -/
def spell (text : Bytes) : Word := text.map .plain

/-- A blank, a backslash and a newline: the line goes on with the next word. -/
def continuation : Bytes := [0x20, 0x5c, 0x0a]

/-- A colon, the parameter of a name, and a continued line. -/
def parameterContinuation (name : Bytes) : Bytes := 0x3a :: 0x24 :: (name ++ continuation)

/-- Fields between blanks. -/
def spaced (fields : List Bytes) : Bytes := fields.flatMap fun field => 0x20 :: (field ++ [0x20])

/-- The fields in front of a comment; an empty one is not seen. -/
def visible (fields : List Bytes) : List Bytes :=
  (fields.takeWhile fun field => field.head? ≠ some 0x23).filter (· ≠ [])

private theorem visible_cons {field : Bytes} (nonempty : field ≠ []) (uncommented : field.head? ≠ some 0x23)
    (fields : List Bytes) : visible (field :: fields) = field :: visible fields := by
  rw [visible, List.takeWhile_cons_of_pos (by simpa using uncommented),
    List.filter_cons_of_pos (by simpa using nonempty), visible]

private theorem visible_comment {field : Bytes} (comment : field.head? = some 0x23)
    (fields : List Bytes) : visible (field :: fields) = [] := by
  rw [visible, List.takeWhile_cons_of_neg (by simp [comment]), List.filter_nil]

theorem visible_all {fields : List Bytes} (nonempty : ∀ field ∈ fields, field ≠ [])
    (uncommented : ∀ field ∈ fields, field.head? ≠ some 0x23) : visible fields = fields := by
  rw [visible, List.takeWhile_eq_self_iff.mpr fun field mem => by simpa using uncommented field mem]
  apply List.filter_eq_self.mpr
  intro field mem
  simpa using nonempty field mem

namespace Lexer

section Words

variable {c : UInt8} {text name : Bytes} {words : List Word} {word : Word}

theorem run_append {s between t : Lexer} {front rest : Bytes}
    (first : front.foldlM step s = some between) (second : rest.foldlM step between = some t) :
    (front ++ rest).foldlM step s = some t := by
  rw [List.foldlM_append, first]
  exact second

theorem run_present {s t : Lexer} (run : text.foldlM step s = some t) : 0 ∉ text := by
  induction text generalizing s with
  | nil => simp
  | cons c text ih =>
    rw [List.foldlM_cons] at run
    obtain ⟨next, stepped, rest⟩ := Option.bind_eq_some_iff.mp run
    intro mem
    rcases List.mem_cons.mp mem with rfl | mem
    · cases stepped
    · exact ih rest mem

private theorem step_spell (ordinary : isOrdinary c = true) :
    step { word := some word, words := words } c =
      some { word := some (word ++ [.plain c]), words := words } := by
  simp only [isOrdinary, decide_eq_true_eq, isQuote, isMark, decide_eq_false_iff_not, not_or]
    at ordinary
  obtain ⟨present, newline, blank, operator, ⟨single, double⟩, slash, dollar⟩ := ordinary
  simp [step, read, inName, closeName, push, present, newline, blank, operator, single, double,
    slash, dollar]

private theorem run_spell (ordinary : ∀ c ∈ text, isOrdinary c = true) :
    text.foldlM step { word := some word, words := words } =
      some { word := some (word ++ spell text), words := words } := by
  induction text generalizing word with
  | nil => simp [spell]
  | cons c text ih =>
    rw [List.foldlM_cons, step_spell (ordinary c (List.mem_cons_self ..))]
    apply (ih fun other mem => ordinary other (List.mem_cons_of_mem _ mem)).trans
    simp [spell]

/-- A word starts at its first byte, unless that is the mark of a comment. -/
theorem step_word (ordinary : isOrdinary c = true) (comment : c ≠ 0x23) :
    step { words := words } c = some { word := some [.plain c], words := words } := by
  simp only [isOrdinary, decide_eq_true_eq, isQuote, isMark, decide_eq_false_iff_not, not_or]
    at ordinary
  obtain ⟨present, newline, blank, operator, ⟨single, double⟩, slash, dollar⟩ := ordinary
  simp [step, read, inName, closeName, push, present, newline, blank, operator, single, double,
    slash, dollar, comment]

theorem run_word (ordinary : ∀ c ∈ text, isOrdinary c = true) (nonempty : text ≠ [])
    (comment : text.head? ≠ some 0x23) :
    text.foldlM step { words := words } = some { word := some (spell text), words := words } := by
  cases text with
  | nil => exact absurd rfl nonempty
  | cons c text =>
    rw [List.foldlM_cons, step_word (ordinary c (List.mem_cons_self ..)) (by simpa using comment)]
    exact run_spell fun other mem => ordinary other (List.mem_cons_of_mem _ mem)

private theorem step_blank (word : Option Word) : step { word := word, words := words } 0x20 =
    some { words := words ++ word.toList } := rfl

theorem run_continuation (word : Option Word) :
    continuation.foldlM step { word := word, words := words } =
      some { words := words ++ word.toList } := rfl

private theorem run_name {front : Bytes} (nonempty : front ≠ [])
    (continues : ∀ c ∈ name, continuesName c = true) (word : Option Word) :
    name.foldlM step { name := some front, word := word, words := words } =
      some { name := some (front ++ name), word := word, words := words } := by
  induction name generalizing front with
  | nil => simp
  | cons c name ih =>
    have here := continues c (List.mem_cons_self ..)
    have present : c ≠ 0 := by
      rintro rfl
      cases here
    have next : step { name := some front, word := word, words := words } c =
        some { name := some (front ++ [c]), word := word, words := words } := by
      simp [step, inName, present, nonempty, here]
    rw [List.foldlM_cons, next]
    apply (ih (by simp) fun other mem => continues other (List.mem_cons_of_mem _ mem)).trans
    simp

theorem run_parameterContinuation (starts : startsName c = true)
    (continues : ∀ c ∈ name, continuesName c = true) :
    (parameterContinuation (c :: name)).foldlM step { word := some word, words := words } =
      some { words := words ++ [word ++ [.plain 0x3a, .parameter (c :: name) false]] } := by
  have present : c ≠ 0 := by
    rintro rfl
    cases starts
  have opened : step { name := some [], word := some (word ++ [.plain 0x3a]), words := words } c =
      some { name := some [c], word := some (word ++ [.plain 0x3a]), words := words } := by
    simp [step, inName, present, starts]
  have colon : step { word := some word, words := words } 0x3a =
      some { word := some (word ++ [.plain 0x3a]), words := words } := rfl
  have dollar : step { word := some (word ++ [.plain 0x3a]), words := words } 0x24 =
      some { name := some [], word := some (word ++ [.plain 0x3a]), words := words } := rfl
  have closed : continuation.foldlM step
      { name := some (c :: name), word := some (word ++ [.plain 0x3a]), words := words } =
      some { words := words ++ [word ++ [.plain 0x3a, .parameter (c :: name) false]] } := by
    simp [continuation, step, inName, closeName, push, read, finish, continuesName,
      startsName, isOperator, isBlank]
  simp only [parameterContinuation, List.cons_append, List.foldlM_cons, colon, dollar, opened,
    List.foldlM_append, Option.bind_eq_bind, Option.bind_some]
  rw [run_name (by simp) continues]
  exact closed

/-- In a comment everything up to the newline is skipped. -/
theorem run_comment (clear : ∀ c ∈ text, c ≠ 0 ∧ c ≠ 0x0a) :
    text.foldlM step { region := .comment, words := words } =
      some { region := .comment, words := words } := by
  induction text with
  | nil => rfl
  | cons c text ih =>
    obtain ⟨present, newline⟩ := clear c (List.mem_cons_self ..)
    have next : step { region := .comment, words := words } c =
        some { region := .comment, words := words } := by
      simp [step, inName, closeName, read, present, newline]
    rw [List.foldlM_cons, next]
    exact ih fun other mem => clear other (List.mem_cons_of_mem _ mem)

/-- Lines that are words. -/
theorem run_lines {lines : List Bytes} (ordinary : ∀ line ∈ lines, ∀ c ∈ line, isOrdinary c = true)
    (nonempty : ∀ line ∈ lines, line ≠ []) (clear : ∀ line ∈ lines, line.head? ≠ some 0x23) :
    (lines.flatMap (· ++ continuation)).foldlM step { words := words } =
      some { words := words ++ lines.map spell } := by
  induction lines generalizing words with
  | nil => simp
  | cons line lines ih =>
    have here := List.mem_cons_self (a := line) (l := lines)
    have behind {P : Bytes → Prop} (all : ∀ other ∈ line :: lines, P other) :
        ∀ other ∈ lines, P other := fun other mem => all other (List.mem_cons_of_mem _ mem)
    have first : (line ++ continuation).foldlM step { words := words } =
        some { words := words ++ [spell line] } :=
      run_append (run_word (ordinary line here) (nonempty line here) (clear line here))
        (run_continuation (some (spell line)))
    apply (run_append first (ih (behind ordinary) (behind nonempty) (behind clear))).trans
    simp

theorem clear_of_isOrdinary (ordinary : isOrdinary c = true) : c ≠ 0 ∧ c ≠ 0x0a := by
  simp only [isOrdinary, decide_eq_true_eq] at ordinary
  exact ⟨ordinary.1, ordinary.2.1⟩

private theorem clear_spaced {fields : List Bytes}
    (ordinary : ∀ field ∈ fields, ∀ c ∈ field, isOrdinary c = true) :
    ∀ c ∈ spaced fields, c ≠ 0 ∧ c ≠ 0x0a := by
  intro c mem
  obtain ⟨field, there, mem⟩ := List.mem_flatMap.mp mem
  rcases List.mem_cons.mp mem with rfl | mem
  · decide
  rcases List.mem_append.mp mem with mem | mem
  · exact clear_of_isOrdinary (ordinary field there c mem)
  · rw [List.mem_singleton.mp mem]
    decide

/-- A comment reaches to the end of the line. -/
theorem run_commented (clear : ∀ c ∈ text, c ≠ 0 ∧ c ≠ 0x0a) :
    (0x23 :: (text ++ [0x0a])).foldlM step { words := words } =
      some { region := .ended, words := words } := by
  have opened : step { words := words } 0x23 = some { region := .comment, words := words } := rfl
  rw [List.foldlM_cons, opened]
  simp only [Option.bind_eq_bind, Option.bind_some, List.foldlM_append, run_comment clear]
  rfl

/-- The end of a line. -/
theorem run_fields {fields : List Bytes}
    (ordinary : ∀ field ∈ fields, ∀ c ∈ field, isOrdinary c = true) (word : Option Word) :
    (spaced fields ++ [0x0a]).foldlM step { word := word, words := words } = some
      { region := .ended, words := words ++ word.toList ++ (visible fields).map spell } := by
  induction fields generalizing words word with
  | nil =>
    have none : visible [] = [] := rfl
    rw [none, List.map_nil, List.append_nil]
    rfl
  | cons field fields ih =>
    have here := ordinary field (List.mem_cons_self ..)
    have behind := fun other mem => ordinary other (List.mem_cons_of_mem field mem)
    have whole : spaced (field :: fields) ++ [0x0a] =
        0x20 :: (field ++ 0x20 :: (spaced fields ++ [0x0a])) := by simp [spaced]
    rw [whole, List.foldlM_cons, step_blank]
    simp only [Option.bind_eq_bind, Option.bind_some]
    by_cases comment : field.head? = some 0x23
    · rw [visible_comment comment, List.map_nil, List.append_nil]
      obtain ⟨rest, rfl⟩ := List.head?_eq_some_iff.mp comment
      have clear : ∀ c ∈ rest ++ 0x20 :: spaced fields, c ≠ 0 ∧ c ≠ 0x0a := by
        intro c mem
        rcases List.mem_append.mp mem with mem | mem
        · exact clear_of_isOrdinary (here c (List.mem_cons_of_mem _ mem))
        rcases List.mem_cons.mp mem with rfl | mem
        · decide
        · exact clear_spaced behind c mem
      have line : (0x23 :: (rest ++ 0x20 :: spaced fields ++ [0x0a])).foldlM step
          { words := words ++ word.toList } =
          some { region := .ended, words := words ++ word.toList } := run_commented clear
      rwa [List.append_assoc] at line
    rw [List.foldlM_append]
    by_cases empty : field = []
    · have unseen : visible (field :: fields) = visible fields := by
        subst empty
        simp [visible]
      rw [unseen]
      subst empty
      simp only [List.foldlM_nil, pure_bind, List.foldlM_cons]
      rw [step_blank]
      simp only [Option.bind_eq_bind, Option.bind_some]
      apply (ih behind none).trans
      simp
    · rw [visible_cons empty comment, run_word here empty comment]
      have separated : step { word := some (spell field), words := words ++ word.toList } 0x20 =
          some { word := none, words := words ++ word.toList ++ [spell field] } := rfl
      simp only [Option.bind_eq_bind, Option.bind_some, List.foldlM_cons, separated]
      apply (ih behind none).trans
      simp

/-- The last line, which starts with a field. -/
theorem run_last {first : Bytes} {fields : List Bytes} (nonempty : first ≠ [])
    (ordinary : ∀ field ∈ first :: fields, ∀ c ∈ field, isOrdinary c = true) :
    (first ++ (spaced fields ++ [0x0a])).foldlM step { words := words } = some
      { region := .ended, words := words ++ (visible (first :: fields)).map spell } := by
  have here := ordinary first (List.mem_cons_self ..)
  have behind := fun other mem => ordinary other (List.mem_cons_of_mem first mem)
  by_cases comment : first.head? = some 0x23
  · rw [visible_comment comment, List.map_nil, List.append_nil]
    obtain ⟨rest, rfl⟩ := List.head?_eq_some_iff.mp comment
    have clear : ∀ c ∈ rest ++ spaced fields, c ≠ 0 ∧ c ≠ 0x0a := by
      intro c mem
      rcases List.mem_append.mp mem with mem | mem
      · exact clear_of_isOrdinary (here c (List.mem_cons_of_mem _ mem))
      · exact clear_spaced behind c mem
    have line : (0x23 :: (rest ++ spaced fields ++ [0x0a])).foldlM step { words := words } =
        some { region := .ended, words := words } := run_commented clear
    rwa [List.append_assoc] at line
  · rw [visible_cons nonempty comment]
    apply (run_append (run_word here nonempty comment)
      (run_fields behind (some (spell first)))).trans
    simp

end Words

end Lexer

end DpcppTrace.Foundation
