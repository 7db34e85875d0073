import DpcppTrace.Foundation.ShellWords
import Mathlib.Algebra.Order.Group.Nat

/-! # Marks that a shell takes away

Reading a line spells each of its bytes at most once. A quote that is entered is not spelled, and
outside quotes a backslash or a dollar sign is not spelled either where bytes are read on their own.
So a line whose words spell all its quotes, backslashes and dollar signs has none, and it is read
byte by byte.
-/

namespace DpcppTrace.Foundation

/-! ## What a step spells -/

namespace Lexer

/-- The bytes read so far that stand for themselves. -/
def spelled (s : Lexer) : Bytes := (s.words.flatten ++ s.word.getD []).flatMap Piece.literal

/-- Not within quotes. -/
def Quiet (s : Lexer) : Prop := s.region ≠ .single ∧ s.region ≠ .double

/-- Between two bytes that are read on their own. -/
structure Ready (s : Lexer) : Prop where
  quiet : s.Quiet
  unescaped : s.escaped = false
  unnamed : s.name = none

variable {s t : Lexer} {c : UInt8}

@[simp] theorem spelled_push (pieces : Word) :
    (s.push pieces).spelled = s.spelled ++ pieces.flatMap Piece.literal := by
  simp [spelled, push]

@[simp] theorem spelled_finish : s.finish.spelled = s.spelled := by
  cases found : s.word <;> simp [spelled, finish, found]

@[simp] theorem spelled_enter (region : Region) : (s.enter region).spelled = s.spelled := rfl

private theorem closeName_spec (closed : s.closeName = some t) :
    t.spelled = s.spelled ∧ t.region = s.region ∧ t.escaped = s.escaped ∧ t.name = none := by
  unfold closeName at closed
  split at closed
  · rename_i unnamed
    cases closed
    exact ⟨rfl, rfl, rfl, unnamed⟩
  · cases closed
  · cases closed
    refine ⟨?_, rfl, rfl, rfl⟩
    simp [spelled, push, Piece.literal]

private theorem read_spelled (read : s.read c = some t) :
    t.spelled = s.spelled ∨ t.spelled = s.spelled ++ [c] := by
  unfold Lexer.read at read
  repeat' split at read
  all_goals
    first
      | cases read; done
      | cases read
        first
          | left; rfl
          | left; simp [Piece.literal]; done
          | right; simp [Piece.literal]

/-- What a byte outside quotes does where it is read on its own. -/
inductive Reading (s : Lexer) (c : UInt8) : Lexer → Prop
  | skips : Reading s c s
  | separates : Reading s c s.finish
  | ends : Reading s c (s.enter .ended)
  | finishes : Reading s c (s.finish.enter .ended)
  | comments : Reading s c (s.enter .comment)
  | escapes (slash : c = 0x5c) : Reading s c { s with escaped := true }
  | names (dollar : c = 0x24) : Reading s c { s with name := some [] }
  | quotes (region : Region) (quote : isQuote c = true)
      (within : region = .single ∨ region = .double) :
      Reading s c ((s.push [.mark]).enter region)
  | spells (ordinary : isOrdinary c = true) : Reading s c (s.push [.plain c])

private theorem read_cases (quiet : s.Quiet) (present : c ≠ 0) (read : s.read c = some t) :
    Reading s c t := by
  unfold Lexer.read at read
  split at read
  next bare =>
    repeat' split at read
    all_goals
      first
        | cases read; done
        | cases read
          first
            | exact .separates
            | exact .finishes
            | exact .escapes ‹_›
            | exact .names ‹_›
            | exact .quotes .single (by simp_all [isQuote]) (.inl rfl)
            | exact .quotes .double (by simp_all [isQuote]) (.inr rfl)
            | exact .comments
            | exact .spells (by simp_all [isOrdinary, isQuote, isMark])
  next single => exact absurd single quiet.1
  next double => exact absurd double quiet.2
  next comment =>
    split at read
    · cases read
      exact .ends
    · cases read
      exact .skips
  next ended => cases read

/-- The branches of a step. -/
theorem step_cases (stepped : s.step c = some t) : c ≠ 0 ∧
    ((s.escaped = true ∧ c = 0x0a ∧ t = { s with escaped := false }) ∨
      (s.escaped = true ∧ c ≠ 0x0a ∧ ∃ closed,
        closeName { s with escaped := false } = some closed ∧ t = closed.escape c) ∨
      (s.escaped = false ∧ s.inName c = true ∧ t = { s with name := s.name.map (· ++ [c]) }) ∨
      (s.escaped = false ∧ s.name.isSome ∧ c = 0x5c ∧ t = { s with escaped := true }) ∨
      (s.escaped = false ∧ s.inName c = false ∧
        ∃ closed, s.closeName = some closed ∧ closed.read c = some t)) := by
  unfold step at stepped
  split at stepped
  · cases stepped
  next present =>
  refine ⟨present, ?_⟩
  split at stepped
  next escaped =>
    split at stepped
    next newline =>
      cases stepped
      exact .inl ⟨escaped, newline, rfl⟩
    next other =>
      obtain ⟨closed, found, rfl⟩ := Option.map_eq_some_iff.mp stepped
      exact .inr (.inl ⟨escaped, other, closed, found, rfl⟩)
  next unescaped =>
  rw [Bool.not_eq_true] at unescaped
  split at stepped
  next within =>
    cases stepped
    exact .inr (.inr (.inl ⟨unescaped, within, rfl⟩))
  next without =>
  split at stepped
  next opened =>
    cases stepped
    exact .inr (.inr (.inr (.inl ⟨unescaped, opened.1, opened.2, rfl⟩)))
  next =>
    obtain ⟨closed, found, read⟩ := Option.bind_eq_some_iff.mp stepped
    exact .inr (.inr (.inr (.inr ⟨unescaped, by simpa using without, closed, found, read⟩)))

private theorem escape_quiet (quiet : s.Quiet) : s.escape c = s.push [.quoted c] := by
  rw [escape, if_neg fun both => quiet.2 both.1]

/-- A step spells the byte, nothing, or the byte with the backslash in front of it. -/
theorem step_spelled (stepped : s.step c = some t) : t.spelled = s.spelled ∨
    t.spelled = s.spelled ++ [c] ∨ s.region = .double ∧ t.spelled = s.spelled ++ [0x5c, c] := by
  obtain ⟨-, ⟨-, -, rfl⟩ | ⟨-, -, closed, found, rfl⟩ | ⟨-, -, rfl⟩ | ⟨-, -, -, rfl⟩ |
    ⟨-, -, closed, found, read⟩⟩ := step_cases stepped
  · exact .inl rfl
  · obtain ⟨spelled, region, -, -⟩ := closeName_spec found
    have same : closed.spelled = s.spelled := spelled
    rw [escape]
    split
    next both =>
      exact .inr (.inr ⟨region.symm.trans both.1, by simp [same, Piece.literal]⟩)
    next => exact .inr (.inl (by simp [same, Piece.literal]))
  · exact .inl rfl
  · exact .inl rfl
  · rw [← (closeName_spec found).1]
    rcases read_spelled read with same | more
    · exact .inl same
    · exact .inr (.inl more)

/-! ## Bytes that are lost -/

/-- How many bytes of a kind have been spelled. -/
def load (kind : UInt8 → Bool) (s : Lexer) : ℕ := s.spelled.countP kind

variable (kind : UInt8 → Bool) {text : Bytes}

private theorem step_load (harmless : kind 0x5c = false ∨ s.Quiet) (stepped : s.step c = some t) :
    t.load kind ≤ s.load kind + [c].countP kind := by
  rcases step_spelled stepped with same | more | ⟨double, more⟩
  · simp [load, same]
  · simp [load, more, List.countP_append]
  · rcases harmless with harmless | quiet
    · simp [load, more, List.countP_append, List.countP_cons, harmless]
    · exact absurd double quiet.2

private theorem run_load (harmless : kind 0x5c = false) (run : text.foldlM step s = some t) :
    t.load kind ≤ s.load kind + text.countP kind := by
  induction text generalizing s with
  | nil =>
    cases run
    simp
  | cons c text ih =>
    rw [List.foldlM_cons] at run
    obtain ⟨next, stepped, rest⟩ := Option.bind_eq_some_iff.mp run
    have first := step_load kind (.inl harmless) stepped
    have behind := ih rest
    rw [List.countP_cons] at *
    simp only [List.countP_nil] at first
    omega

/-- A run that never enters quotes. -/
def QuietRun : Lexer → Bytes → Lexer → Prop
  | s, [], t => s = t
  | s, c :: text, t => ∃ next, s.step c = some next ∧ next.Quiet ∧ QuietRun next text t

private theorem quietRun_append {front rest : Bytes} : QuietRun s (front ++ rest) t ↔
    ∃ between, QuietRun s front between ∧ QuietRun between rest t := by
  induction front generalizing s with
  | nil => simp [QuietRun]
  | cons c front ih =>
    simp only [List.cons_append, QuietRun, ih]
    constructor
    · rintro ⟨next, stepped, quiet, between, first, second⟩
      exact ⟨between, ⟨next, stepped, quiet, first⟩, second⟩
    · rintro ⟨between, ⟨next, stepped, quiet, first⟩, second⟩
      exact ⟨next, stepped, quiet, between, first, second⟩

theorem QuietRun.quiet (run : QuietRun s text t) (quiet : s.Quiet) : t.Quiet := by
  induction text generalizing s with
  | nil => exact run ▸ quiet
  | cons c text ih =>
    obtain ⟨next, -, quiet, rest⟩ := run
    exact ih rest quiet

/-- A byte that enters quotes is lost. -/
theorem step_quotes (quiet : s.Quiet) (stepped : s.step c = some t) (loud : ¬t.Quiet) :
    isQuote c = true ∧ t.spelled = s.spelled := by
  obtain ⟨present, ⟨-, -, rfl⟩ | ⟨-, -, closed, found, rfl⟩ | ⟨-, -, rfl⟩ | ⟨-, -, -, rfl⟩ |
    ⟨-, -, closed, found, read⟩⟩ := step_cases stepped
  · exact absurd quiet loud
  · obtain ⟨-, region, -, -⟩ := closeName_spec found
    have closedQuiet : closed.Quiet := by rwa [Quiet, region]
    rw [escape_quiet closedQuiet] at loud
    exact absurd closedQuiet loud
  · exact absurd quiet loud
  · exact absurd quiet loud
  · obtain ⟨spelled, region, -, -⟩ := closeName_spec found
    have closedQuiet : closed.Quiet := by rwa [Quiet, region]
    rw [← spelled]
    cases read_cases closedQuiet present read with
    | quotes region quote within => exact ⟨quote, by simp [Piece.literal]⟩
    | skips => exact absurd closedQuiet loud
    | separates => exact absurd closedQuiet loud
    | ends => exact absurd (by simp [Quiet, enter]) loud
    | finishes => exact absurd (by simp [Quiet, enter]) loud
    | comments => exact absurd (by simp [Quiet, enter]) loud
    | escapes => exact absurd closedQuiet loud
    | names => exact absurd closedQuiet loud
    | spells => exact absurd closedQuiet loud

/-- Quotes that all are spelled have never been entered. -/
theorem quietRun_of_load (quiet : s.Quiet) (run : text.foldlM step s = some t)
    (kept : s.load isQuote + text.countP isQuote ≤ t.load isQuote) : QuietRun s text t := by
  induction text generalizing s with
  | nil => exact Option.some.inj run
  | cons c text ih =>
    rw [List.foldlM_cons] at run
    obtain ⟨next, stepped, rest⟩ := Option.bind_eq_some_iff.mp run
    have first := step_load isQuote (.inl rfl) stepped
    have behind := run_load isQuote rfl rest
    simp only [List.countP_cons, List.countP_nil] at first kept
    by_cases loud : next.Quiet
    · exact ⟨next, stepped, loud, ih loud rest (by omega)⟩
    · obtain ⟨quote, same⟩ := step_quotes quiet stepped loud
      rw [if_pos quote] at kept
      have lost : next.load isQuote = s.load isQuote := congrArg (List.countP isQuote) same
      omega

theorem QuietRun.load (run : QuietRun s text t) (quiet : s.Quiet) :
    t.load kind ≤ s.load kind + text.countP kind := by
  induction text generalizing s with
  | nil =>
    cases run
    simp
  | cons c text ih =>
    obtain ⟨next, stepped, nextQuiet, rest⟩ := run
    have first := step_load kind (.inr quiet) stepped
    have behind := ih rest nextQuiet
    simp only [List.countP_cons, List.countP_nil] at first ⊢
    omega

/-- From a ready state each byte is read on its own. -/
theorem Ready.reading (ready : s.Ready) (stepped : s.step c = some t) : Reading s c t := by
  obtain ⟨present, ⟨escaped, -, -⟩ | ⟨escaped, -, -⟩ | ⟨-, within, -⟩ | ⟨-, named, -, -⟩ |
    ⟨-, -, closed, found, read⟩⟩ := step_cases stepped
  · rw [ready.unescaped] at escaped
    cases escaped
  · rw [ready.unescaped] at escaped
    cases escaped
  · rw [inName, ready.unnamed] at within
    cases within
  · rw [ready.unnamed] at named
    cases named
  · rw [closeName, ready.unnamed] at found
    cases found
    exact read_cases ready.quiet present read

private theorem isMark_of_isOrdinary (ordinary : isOrdinary c = true) : isMark c = false := by
  simp_all [isOrdinary]

/-- A mark is lost where bytes are read on their own. -/
theorem Ready.loses (ready : s.Ready) (mark : isMark c = true) (stepped : s.step c = some t) :
    t.spelled = s.spelled := by
  cases ready.reading stepped with
  | spells ordinary =>
    rw [isMark_of_isOrdinary ordinary] at mark
    cases mark
  | quotes region quote within => simp [Piece.literal]
  | separates => exact spelled_finish
  | finishes => exact spelled_finish
  | _ => rfl

theorem Ready.next (ready : s.Ready) (unmarked : isMark c = false) (stepped : s.step c = some t)
    (quiet : t.Quiet) : t.Ready := by
  cases ready.reading stepped with
  | escapes slash =>
    subst slash
    cases unmarked
  | names dollar =>
    subst dollar
    cases unmarked
  | _ => exact ⟨quiet, ready.unescaped, ready.unnamed⟩

/-- A run from a ready state loses every mark, so it keeps them all only where there is none. -/
theorem Ready.unmarked (ready : s.Ready) (run : QuietRun s text t)
    (kept : s.load isMark + text.countP isMark ≤ t.load isMark) : ∀ c ∈ text, isMark c = false := by
  induction text generalizing s with
  | nil => simp
  | cons c text ih =>
    obtain ⟨next, stepped, quiet, rest⟩ := run
    have behind := rest.load isMark quiet
    rw [List.countP_cons] at kept
    cases mark : isMark c with
    | true =>
      have lost : next.load isMark = s.load isMark :=
        congrArg (List.countP isMark) (ready.loses mark stepped)
      rw [mark] at kept
      simp only [↓reduceIte] at kept
      omega
    | false =>
      have first := step_load isMark (.inr ready.quiet) stepped
      simp only [List.countP_cons, List.countP_nil, mark] at first kept
      have further := ih (ready.next mark stepped quiet) rest (by simpa using by omega)
      intro other mem
      rcases List.mem_cons.mp mem with rfl | mem
      · exact mark
      · exact further other mem

/-! ## Bytes that are spelled -/

/-- Only ordinary bytes have been added. -/
def Grows (s t : Lexer) : Prop := ∀ c ∈ t.spelled, c ∈ s.spelled ∨ isOrdinary c = true

theorem Grows.of_same (same : t.spelled = s.spelled) : s.Grows t := by
  intro c mem
  exact .inl (same ▸ mem)

theorem Grows.trans {u : Lexer} (first : s.Grows t) (second : t.Grows u) : s.Grows u := by
  intro c mem
  rcases second c mem with mem | ordinary
  · exact first c mem
  · exact .inr ordinary

theorem Reading.grows (reading : Reading s c t) : s.Grows t := by
  cases reading with
  | spells ordinary =>
    intro other mem
    rw [spelled_push, List.mem_append] at mem
    rcases mem with mem | mem
    · exact .inl mem
    · have same : other = c := by simpa [Piece.literal] using mem
      exact .inr (same ▸ ordinary)
  | quotes region quote within => exact .of_same (by simp [Piece.literal])
  | separates => exact .of_same spelled_finish
  | finishes => exact .of_same spelled_finish
  | _ => exact .of_same rfl

/-- Behind no backslash only ordinary bytes are spelled. -/
theorem step_grows (quiet : s.Quiet) (unescaped : s.escaped = false)
    (stepped : s.step c = some t) : s.Grows t := by
  obtain ⟨present, ⟨escaped, -, -⟩ | ⟨escaped, -, -⟩ | ⟨-, -, rfl⟩ | ⟨-, -, -, rfl⟩ |
    ⟨-, -, closed, found, read⟩⟩ := step_cases stepped
  · rw [unescaped] at escaped
    cases escaped
  · rw [unescaped] at escaped
    cases escaped
  · exact .of_same rfl
  · exact .of_same rfl
  · obtain ⟨spelled, region, -, -⟩ := closeName_spec found
    have closedQuiet : closed.Quiet := by rwa [Quiet, region]
    exact (Grows.of_same spelled).trans (read_cases closedQuiet present read).grows

private theorem step_unescaped (unescaped : s.escaped = false) (slash : c ≠ 0x5c) (quiet : s.Quiet)
    (stepped : s.step c = some t) : t.escaped = false := by
  obtain ⟨present, ⟨-, -, rfl⟩ | ⟨escaped, -, -⟩ | ⟨-, -, rfl⟩ | ⟨-, -, opened, -⟩ |
    ⟨-, -, closed, found, read⟩⟩ := step_cases stepped
  · rfl
  · rw [unescaped] at escaped
    cases escaped
  · exact unescaped
  · exact absurd opened slash
  · obtain ⟨-, region, same, -⟩ := closeName_spec found
    have closedQuiet : closed.Quiet := by rwa [Quiet, region]
    rw [unescaped] at same
    cases read_cases closedQuiet present read with
    | escapes opened => exact absurd opened slash
    | _ => exact same

/-- A blank or a mark of punctuation ends what is open. -/
theorem step_settles (quiet : s.Quiet) (unmarked : isMark c = false) (newline : c ≠ 0x0a)
    (without : continuesName c = false) (stepped : s.step c = some t) (next : t.Quiet) :
    t.Ready := by
  obtain ⟨present, ⟨-, opened, -⟩ | ⟨-, -, closed, found, rfl⟩ | ⟨-, within, -⟩ | ⟨-, -, rfl, -⟩ |
    ⟨unescaped, -, closed, found, read⟩⟩ := step_cases stepped
  · exact absurd opened newline
  · obtain ⟨-, region, unescaped, unnamed⟩ := closeName_spec found
    have closedQuiet : closed.Quiet := by rwa [Quiet, region]
    rw [escape_quiet closedQuiet]
    exact ⟨closedQuiet, unescaped, unnamed⟩
  · cases found : s.name with
    | none => simp [inName, found] at within
    | some name =>
      simp only [inName, found, Option.any_some, without] at within
      split at within
      · simp_all [continuesName]
      · cases within
  · cases unmarked
  · obtain ⟨-, region, same, unnamed⟩ := closeName_spec found
    have closedQuiet : closed.Quiet := by rwa [Quiet, region]
    have ready : closed.Ready := ⟨closedQuiet, same.trans unescaped, unnamed⟩
    cases read_cases closedQuiet present read with
    | escapes slash =>
      subst slash
      cases unmarked
    | names dollar =>
      subst dollar
      cases unmarked
    | _ => exact ⟨next, ready.unescaped, ready.unnamed⟩

/-- Nothing of a continued line is spelled, and what was open has ended. -/
theorem QuietRun.continued (run : QuietRun s continuation t) (quiet : s.Quiet) :
    t.Ready ∧ t.load isMark ≤ s.load isMark ∧ (s.escaped = false → s.Grows t) := by
  obtain ⟨blank, first, blankQuiet, slash, second, slashQuiet, last, third, lastQuiet, rfl⟩ := run
  have ready : blank.Ready := step_settles quiet rfl (by decide) rfl first blankQuiet
  have same : slash.spelled = blank.spelled := ready.loses rfl second
  have settled : slash.Ready ∨ last = { slash with escaped := false } ∧ slash.name = none := by
    cases ready.reading second with
    | escapes =>
      obtain ⟨-, ⟨-, -, dropped⟩ | ⟨-, other, -⟩ | ⟨unescaped, -, -⟩ | ⟨unescaped, -, -, -⟩ |
        ⟨unescaped, -, -⟩⟩ := step_cases third
      · exact .inr ⟨dropped, ready.unnamed⟩
      · exact absurd rfl other
      all_goals cases unescaped
    | names dollar => cases dollar
    | _ => exact .inl ⟨slashQuiet, ready.unescaped, ready.unnamed⟩
  have loads := step_load isMark (.inr quiet) first
  have level : slash.load isMark = blank.load isMark := congrArg (List.countP isMark) same
  have grows (unescaped : s.escaped = false) : s.Grows slash :=
    (step_grows quiet unescaped first).trans (.of_same same)
  rcases settled with slashReady | ⟨rfl, unnamed⟩
  · refine ⟨slashReady.next rfl third lastQuiet, ?_, fun unescaped =>
      (grows unescaped).trans (slashReady.reading third).grows⟩
    have further := step_load isMark (.inr slashQuiet) third
    exact further.trans (level ▸ loads)
  · exact ⟨⟨lastQuiet, rfl, unnamed⟩, level ▸ loads, grows⟩

theorem QuietRun.ordinary (run : QuietRun s text t) (ordinary : ∀ c ∈ text, isOrdinary c = true)
    (quiet : s.Quiet) (unescaped : s.escaped = false) :
    t.escaped = false ∧ s.Grows t := by
  induction text generalizing s with
  | nil => exact run ▸ ⟨unescaped, .of_same rfl⟩
  | cons c text ih =>
    obtain ⟨next, stepped, nextQuiet, rest⟩ := run
    have here := ordinary c (List.mem_cons_self ..)
    have slash : c ≠ 0x5c := by
      rintro rfl
      cases here
    obtain ⟨done, grows⟩ := ih rest (fun other mem => ordinary other (List.mem_cons_of_mem _ mem))
      nextQuiet (step_unescaped unescaped slash quiet stepped)
    exact ⟨done, (step_grows quiet unescaped stepped).trans grows⟩

theorem QuietRun.continuedParameter {name : Bytes}
    (run : QuietRun s (parameterContinuation name) t) (ordinary : ∀ c ∈ name, isOrdinary c = true)
    (quiet : s.Quiet) :
    t.Ready ∧ t.load isMark ≤ s.load isMark ∧ (s.escaped = false → s.Grows t) := by
  obtain ⟨colon, first, colonQuiet, dollar, second, dollarQuiet, rest⟩ := run
  obtain ⟨named, reads, continued⟩ := quietRun_append.mp rest
  have ready : colon.Ready := step_settles quiet rfl (by decide) rfl first colonQuiet
  have same : dollar.spelled = colon.spelled := ready.loses rfl second
  obtain ⟨settled, less, grows⟩ := QuietRun.continued continued (reads.quiet dollarQuiet)
  have unescaped : dollar.escaped = false :=
    step_unescaped ready.unescaped (by decide) ready.quiet second
  obtain ⟨namedUnescaped, namedGrows⟩ := reads.ordinary ordinary dollarQuiet unescaped
  refine ⟨settled, ?_, fun sUnescaped => ?_⟩
  · have loads := step_load isMark (.inr quiet) first
    have level : dollar.load isMark = colon.load isMark := congrArg (List.countP isMark) same
    have within := reads.load isMark dollarQuiet
    have none : name.countP isMark = 0 := by
      rw [List.countP_eq_zero]
      intro c mem
      simp [isMark_of_isOrdinary (ordinary c mem)]
    have colonCount : [(0x3a : UInt8)].countP isMark = 0 := rfl
    omega
  · apply ((step_grows quiet sUnescaped first).trans (.of_same same)).trans
    exact namedGrows.trans (grows namedUnescaped)

/-! ## Lines and fields -/

theorem Ready.grows (ready : s.Ready) (run : QuietRun s text t)
    (unmarked : ∀ c ∈ text, isMark c = false) : t.Ready ∧ s.Grows t := by
  induction text generalizing s with
  | nil => exact run ▸ ⟨ready, .of_same rfl⟩
  | cons c text ih =>
    obtain ⟨next, stepped, quiet, rest⟩ := run
    have nextReady := ready.next (unmarked c (List.mem_cons_self ..)) stepped quiet
    obtain ⟨settled, grows⟩ := ih nextReady rest
      fun other mem => unmarked other (List.mem_cons_of_mem _ mem)
    exact ⟨settled, (ready.reading stepped).grows.trans grows⟩

private theorem countP_isMark_of_ordinary (ordinary : ∀ c ∈ text, isOrdinary c = true) :
    text.countP isMark = 0 := by
  rw [List.countP_eq_zero]
  intro c mem
  simp [isMark_of_isOrdinary (ordinary c mem)]

/-- Continued lines of ordinary bytes add only these. -/
theorem QuietRun.lines {lines : List Bytes} (run : QuietRun s (lines.flatMap (· ++ continuation)) t)
    (ordinary : ∀ line ∈ lines, ∀ c ∈ line, isOrdinary c = true) (ready : s.Ready) :
    t.Ready ∧ t.load isMark ≤ s.load isMark ∧ s.Grows t := by
  induction lines generalizing s with
  | nil =>
    have same : s = t := run
    exact same ▸ ⟨ready, le_rfl, .of_same rfl⟩
  | cons line lines ih =>
    rw [List.flatMap_cons, quietRun_append] at run
    obtain ⟨next, first, rest⟩ := run
    obtain ⟨between, reads, continued⟩ := quietRun_append.mp first
    have here := ordinary line (List.mem_cons_self ..)
    obtain ⟨unescaped, grows⟩ := reads.ordinary here ready.quiet ready.unescaped
    obtain ⟨nextReady, less, further⟩ := continued.continued (reads.quiet ready.quiet)
    obtain ⟨settled, lessRest, growsRest⟩ :=
      ih rest (fun other mem => ordinary other (List.mem_cons_of_mem _ mem)) nextReady
    have load := reads.load isMark ready.quiet
    rw [countP_isMark_of_ordinary here] at load
    exact ⟨settled, by omega, (grows.trans (further unescaped)).trans growsRest⟩

theorem countP_spaced {kind : UInt8 → Bool} (blank : kind 0x20 = false) (fields : List Bytes) :
    (spaced fields).countP kind = fields.flatten.countP kind := by
  induction fields with
  | nil => rfl
  | cons field fields ih =>
    rw [spaced] at ih ⊢
    rw [List.flatMap_cons, List.countP_append, ih, List.flatten_cons, List.countP_append,
      List.countP_cons, List.countP_append, List.countP_singleton, blank]
    simp

/-- Fields that keep all their marks have none. -/
theorem QuietRun.fields {fields : List Bytes} (run : QuietRun s (spaced fields) t) (quiet : s.Quiet)
    (kept : s.load isMark + fields.flatten.countP isMark ≤ t.load isMark) :
    ∀ field ∈ fields, ∀ c ∈ field, isMark c = false := by
  induction fields generalizing s with
  | nil => simp
  | cons field fields ih =>
    rw [spaced, List.flatMap_cons, List.cons_append] at run
    obtain ⟨blank, first, blankQuiet, more⟩ := run
    rw [List.append_assoc, quietRun_append] at more
    obtain ⟨read, reads, more⟩ := more
    obtain ⟨next, last, nextQuiet, rest⟩ := more
    have ready : blank.Ready := step_settles quiet rfl (by decide) rfl first blankQuiet
    have blankCount : [(0x20 : UInt8)].countP isMark = 0 := rfl
    have firstLoad := step_load isMark (.inr quiet) first
    have readLoad := reads.load isMark blankQuiet
    have lastLoad := step_load isMark (.inr (reads.quiet blankQuiet)) last
    have rest : QuietRun next (spaced fields) t := rest
    have restLoad := rest.load isMark nextQuiet
    rw [countP_spaced rfl] at restLoad
    rw [List.flatten_cons, List.countP_append] at kept
    have here := ready.unmarked reads (by omega)
    have behind := ih rest nextQuiet (by omega)
    intro other mem
    rcases List.mem_cons.mp mem with rfl | mem
    · exact here
    · exact behind other mem

/-- Continued lines and fields that keep all their marks have none, so ordinary bytes are all that
is spelled. -/
theorem spelled_ordinary {first second name program : Bytes} {lines fields : List Bytes}
    {final : Lexer} (named : ∀ c ∈ name, isOrdinary c = true)
    (fixed : ∀ line ∈ lines, ∀ c ∈ line, isOrdinary c = true)
    (run : QuietRun {} ((first ++ continuation) ++ (second ++ parameterContinuation name) ++
      lines.flatMap (· ++ continuation) ++ (program ++ (spaced fields ++ [0x0a]))) final)
    (kept : first.countP isMark + second.countP isMark + program.countP isMark +
      fields.flatten.countP isMark ≤ final.load isMark) :
    ∀ c ∈ final.spelled, isOrdinary c = true := by
  have start : ({} : Lexer).Ready := ⟨by simp [Quiet], rfl, rfl⟩
  have empty : ({} : Lexer).load isMark = 0 := rfl
  obtain ⟨afterLines, run, last⟩ := quietRun_append.mp run
  obtain ⟨afterSecond, run, linesRun⟩ := quietRun_append.mp run
  obtain ⟨afterFirst, run, secondRun⟩ := quietRun_append.mp run
  obtain ⟨firstRead, firstRun, firstContinued⟩ := quietRun_append.mp run
  obtain ⟨secondRead, secondRun, secondContinued⟩ := quietRun_append.mp secondRun
  obtain ⟨programRead, programRun, last⟩ := quietRun_append.mp last
  obtain ⟨fieldsRead, fieldsRun, newlineRun⟩ := quietRun_append.mp last
  -- the loads along the text, from left to right
  have firstLoad := firstRun.load isMark start.quiet
  obtain ⟨firstReady, firstLess, firstGrows⟩ :=
    firstContinued.continued (firstRun.quiet start.quiet)
  have secondLoad := secondRun.load isMark firstReady.quiet
  obtain ⟨secondReady, secondLess, secondGrows⟩ :=
    secondContinued.continuedParameter named (secondRun.quiet firstReady.quiet)
  obtain ⟨linesReady, linesLess, linesGrows⟩ := linesRun.lines fixed secondReady
  have programLoad := programRun.load isMark linesReady.quiet
  have programQuiet := programRun.quiet linesReady.quiet
  have fieldsLoad := fieldsRun.load isMark programQuiet
  rw [countP_spaced rfl] at fieldsLoad
  have newlineLoad := newlineRun.load isMark (fieldsRun.quiet programQuiet)
  have newline : [(0x0a : UInt8)].countP isMark = 0 := rfl
  -- each part keeps all its marks, so it has none
  have firstUnmarked := start.unmarked firstRun (by omega)
  have secondUnmarked := firstReady.unmarked secondRun (by omega)
  have programUnmarked := linesReady.unmarked programRun (by omega)
  have fieldsUnmarked := fieldsRun.fields programQuiet (by omega)
  have lastUnmarked : ∀ c ∈ program ++ (spaced fields ++ [0x0a]), isMark c = false := by
    have none : (program ++ (spaced fields ++ [0x0a])).countP isMark = 0 := by
      have programNone : program.countP isMark = 0 :=
        List.countP_eq_zero.mpr fun c mem => by simp [programUnmarked c mem]
      have fieldsNone : fields.flatten.countP isMark = 0 := by
        rw [List.countP_eq_zero]
        intro c mem
        obtain ⟨field, there, mem⟩ := List.mem_flatten.mp mem
        simp [fieldsUnmarked field there c mem]
      rw [List.countP_append, List.countP_append, countP_spaced rfl, programNone, fieldsNone,
        newline]
    intro c mem
    simpa using List.countP_eq_zero.mp none c mem
  obtain ⟨firstReadReady, firstReadGrows⟩ := start.grows firstRun firstUnmarked
  obtain ⟨secondReadReady, secondReadGrows⟩ := firstReady.grows secondRun secondUnmarked
  have lastRun := quietRun_append.mpr ⟨programRead, programRun,
    quietRun_append.mpr ⟨fieldsRead, fieldsRun, newlineRun⟩⟩
  have grows : ({} : Lexer).Grows final :=
    ((firstReadGrows.trans (firstGrows firstReadReady.unescaped)).trans
      (secondReadGrows.trans (secondGrows secondReadReady.unescaped))).trans
      (linesGrows.trans (linesReady.grows lastRun lastUnmarked).2)
  intro c mem
  rcases grows c mem with mem | ordinary
  · cases mem
  · exact ordinary

end Lexer

end DpcppTrace.Foundation
