import DpcppTrace.Model.Options

/-! # Which parsers stay inside `argv`

Every loop reads the entry under its index, which the loop's condition keeps below `argc`. What a
body reads in addition is the value of an option; five of the six parsers test the index first and
report a missing value, while `print` makes a string of whatever stands behind `--group`.
-/

namespace DpcppTrace.Soundness

open Foundation Model

/-- The tokens end in an option whose value is missing; whether an option takes a value or separates
the rest from the options is up to the command. -/
inductive Dangling (takesValue separates : Bytes → Prop) : List Bytes → Prop
  | missing {opt : Bytes} (takes : takesValue opt) : Dangling takesValue separates [opt]
  | valued {opt value : Bytes} {rest : List Bytes} (takes : takesValue opt)
      (later : Dangling takesValue separates rest) :
      Dangling takesValue separates (opt :: value :: rest)
  | single {opt : Bytes} {rest : List Bytes} (alone : ¬takesValue opt) (inside : ¬separates opt)
      (later : Dangling takesValue separates rest) : Dangling takesValue separates (opt :: rest)

/-- The options of a command that use up the next token. -/
def takesValue : Mode → Bytes → Prop
  | .record, opt | .pack, opt | .unpack, opt => opt = str "--output" ∨ opt = str "-o"
  | .replay, opt => opt = str "--output" ∨ opt = str "-o" ∨ opt = str "-t"
  | .print, opt => opt = str "--group"
  | .info, _ | .debug, _ => False

/-- The tokens behind which a command leaves its loop. -/
def separates : Mode → Bytes → Prop
  | .record, opt | .replay, opt => opt = str "--"
  | _, _ => False

/-- The tokens of `print` end in a `--group`, and every one before it has a value it accepts. -/
inductive EndsInGroup : List Bytes → Prop
  | last : EndsInGroup [str "--group"]
  | group {value : Bytes} {rest : List Bytes} (accepted : value = str "none" ∨ value = str "thread")
      (later : EndsInGroup rest) : EndsInGroup (str "--group" :: value :: rest)
  | other {opt : Bytes} {rest : List Bytes} (differs : opt ≠ str "--group")
      (later : EndsInGroup rest) : EndsInGroup (opt :: rest)

/-! ## What the loops do to a missing value -/

section Loop

variable {argv : List Bytes} {body : OptionBody}

/-- A body that never reads past the end makes a loop that does not. -/
theorem optionLoop_inside
    (inside : ∀ i opt opts index, body i opt opts ≠ .error (.pastEnd index)) (i : ℕ)
    (opts : Options) (index : ℕ) : optionLoop argv body i opts ≠ .error (.pastEnd index) := by
  induction i, opts using optionLoop.induct argv body with
  | case1 i opts here fault read =>
    rw [argument, List.getElem?_eq_getElem here] at read
    cases read
  | case2 i opts here opt read fault ran =>
    rw [optionLoop, if_pos here, read]
    simp only [ran]
    rintro ⟨⟩
    exact inside i opt opts index ran
  | case3 i opts here opt read taken next ran ih =>
    rw [optionLoop, if_pos here, read]
    simp only [ran]
    exact ih
  | case4 i opts here opt read next ran =>
    rw [optionLoop, if_pos here, read]
    simp [ran]
  | case5 i opts behind =>
    rw [optionLoop, if_neg behind]
    simp

/-- How a body treats the options of its command: one that takes a value uses up the next token or
is refused, at the end it is refused, and any other option inside the loop uses up itself. -/
structure Handles (argv : List Bytes) (body : OptionBody) (takesValue separates : Bytes → Prop) :
    Prop where
  missing : ∀ i opt opts, argv.drop i = [opt] → takesValue opt → ∃ fault, body i opt opts = .error fault
  valued : ∀ i opt value rest opts, argv.drop i = opt :: value :: rest → takesValue opt →
    (∃ fault, body i opt opts = .error fault) ∨ ∃ next, body i opt opts = .ok (.next 1 next)
  single : ∀ i opt opts, ¬takesValue opt → ¬separates opt →
    (∃ fault, body i opt opts = .error fault) ∨ ∃ next, body i opt opts = .ok (.next 0 next)

/-- A body that leaves every value to `takeOutput` handles its options. -/
theorem handles_of_takeOutput {takesValue separates : Bytes → Prop}
    (value : ∀ i opt opts, takesValue opt → ∃ missing, body i opt opts = takeOutput argv i missing opts)
    (single : ∀ i opt opts, ¬takesValue opt → ¬separates opt →
      ∃ next, body i opt opts = .ok (.next 0 next)) : Handles argv body takesValue separates where
  missing i opt opts left takes := by
    obtain ⟨missing, ran⟩ := value i opt opts takes
    rw [ran]
    exact ⟨_, takeOutput_missing missing opts left⟩
  valued i opt _ rest opts left takes := by
    obtain ⟨missing, ran⟩ := value i opt opts takes
    rw [ran]
    exact .inr ⟨_, takeOutput_present missing opts left⟩
  single i opt opts alone inside := .inr (single i opt opts alone inside)

/-- A loop ends in an error when a value is missing at the end. -/
theorem optionLoop_dangling {takesValue separates : Bytes → Prop}
    (handles : Handles argv body takesValue separates) {tokens : List Bytes}
    (dangling : Dangling takesValue separates tokens) (i : ℕ) (opts : Options)
    (left : argv.drop i = tokens) : ∃ fault, optionLoop argv body i opts = .error fault := by
  induction dangling generalizing i opts with
  | missing takes =>
    obtain ⟨fault, ran⟩ := handles.missing i _ opts left takes
    exact ⟨fault, by rw [optionLoop_cons body opts left, ran]⟩
  | valued takes later ih =>
    rcases handles.valued i _ _ _ opts left takes with ⟨fault, ran⟩ | ⟨next, ran⟩
    · exact ⟨fault, by rw [optionLoop_cons body opts left, ran]⟩
    · obtain ⟨fault, rest⟩ := ih (i + 1 + 1) next (drop_next (drop_next left))
      exact ⟨fault, by rw [optionLoop_cons body opts left, ran]; exact rest⟩
  | single alone inside later ih =>
    rcases handles.single i _ opts alone inside with ⟨fault, ran⟩ | ⟨next, ran⟩
    · exact ⟨fault, by rw [optionLoop_cons body opts left, ran]⟩
    · obtain ⟨fault, rest⟩ := ih (i + 1) next (drop_next left)
      exact ⟨fault, by rw [optionLoop_cons body opts left, ran]; exact rest⟩

end Loop

/-! ## The bodies -/

section Bodies

variable (argv : List Bytes)

private theorem takeOutput_inside {missing : OptionFault} (reported : ∀ index, missing ≠ .pastEnd index)
    (i index : ℕ) (opts : Options) : takeOutput argv i missing opts ≠ .error (.pastEnd index) := by
  rw [takeOutput]
  split_ifs with behind
  · rintro ⟨⟩
    exact reported index rfl
  · rw [argument, List.getElem?_eq_getElem (by omega)]
    rintro ⟨⟩

private theorem recordBody_inside (i : ℕ) (opt : Bytes) (opts : Options) (index : ℕ) :
    recordBody argv i opt opts ≠ .error (.pastEnd index) := by
  rw [recordBody]
  split_ifs
  on_goal 3 => exact takeOutput_inside argv (fun _ => OptionFault.noConfusion) i index opts
  all_goals simp

private theorem replayBody_inside (i : ℕ) (opt : Bytes) (opts : Options) (index : ℕ) :
    replayBody argv i opt opts ≠ .error (.pastEnd index) := by
  rw [replayBody]
  split_ifs
  on_goal 3 => exact takeOutput_inside argv (fun _ => OptionFault.noConfusion) i index opts
  all_goals simp

private theorem packBody_inside (i : ℕ) (opt : Bytes) (opts : Options) (index : ℕ) :
    packBody argv i opt opts ≠ .error (.pastEnd index) := by
  rw [packBody]
  split_ifs
  on_goal 2 => exact takeOutput_inside argv (fun _ => OptionFault.noConfusion) i index opts
  all_goals simp

private theorem debugBody_inside (i : ℕ) (opt : Bytes) (opts : Options) (index : ℕ) :
    debugBody i opt opts ≠ .error (.pastEnd index) := by
  rw [debugBody]
  split_ifs <;> simp

private theorem handles_record : Handles argv (recordBody argv) (takesValue .record) (separates .record) where
  missing i opt opts left takes := by
    rw [recordBody_output argv takes]
    split_ifs
    · exact ⟨_, takeOutput_missing _ opts left⟩
    · exact ⟨_, rfl⟩
  valued i opt value rest opts left takes := by
    rw [recordBody_output argv takes]
    split_ifs
    · exact .inr ⟨_, takeOutput_present _ opts left⟩
    · exact .inl ⟨_, rfl⟩
  single i opt opts alone inside := by
    rw [recordBody, if_neg (c := opt = str "--") inside,
      if_neg (c := (opt = str "--output" ∨ opt = str "-o") ∧ opts.mOutput = [])
        (fun output => alone output.1)]
    split_ifs
    on_goal 5 => exact .inl ⟨_, rfl⟩
    all_goals exact .inr ⟨_, rfl⟩

private theorem handles_replay :
    Handles argv (replayBody argv) (takesValue .replay) (separates .replay) := by
  apply handles_of_takeOutput
  · intro i opt opts takes
    have dash : firstChar opt = 0x2d := by rcases takes with rfl | rfl | rfl <;> rfl
    have inside : opt ≠ str "--" := by rcases takes with rfl | rfl | rfl <;> decide
    have output : opt = str "--output" ∨ opt = str "-o" ∨ opt = str "-t" := takes
    rw [replayBody, if_neg (not_not.mpr dash), if_neg inside, if_pos output]
    exact ⟨_, rfl⟩
  · intro i opt opts alone inside
    rw [replayBody, if_neg (c := opt = str "--") inside,
      if_neg (c := opt = str "--output" ∨ opt = str "-o" ∨ opt = str "-t") alone]
    split_ifs <;> exact ⟨_, rfl⟩

private theorem handles_pack : Handles argv (packBody argv) (takesValue .pack) (separates .pack) := by
  apply handles_of_takeOutput
  · intro i opt opts takes
    have dash : firstChar opt = 0x2d := by rcases takes with rfl | rfl <;> rfl
    have output : opt = str "--output" ∨ opt = str "-o" := takes
    rw [packBody, if_neg (not_not.mpr dash), if_pos output]
    exact ⟨_, rfl⟩
  · intro i opt opts alone _
    rw [packBody, if_neg (c := opt = str "--output" ∨ opt = str "-o") alone]
    split_ifs <;> exact ⟨_, rfl⟩

/-- The value of `--group`, behind a test whether it is one of the two names. -/
theorem printBody_group {i : ℕ} {value : Bytes} {rest : List Bytes} (opts : Options)
    (left : argv.drop i = str "--group" :: value :: rest) :
    printBody argv i (str "--group") opts =
      if value = str "none" then .ok (.next 1 { opts with mPringGroup := .none })
      else if value = str "thread" then .ok (.next 1 { opts with mPringGroup := .thread })
      else
        .error (.terminated
          (str "Expected none or thread for --group argument. Got " ++ value ++ str "\n")) := by
  have dash : ¬firstChar (str "--group") ≠ 0x2d := not_not.mpr rfl
  rw [printBody, if_neg dash, if_pos rfl, argument_of_drop (drop_next left)]
  rfl

private theorem printBody_last {i : ℕ} (opts : Options) (left : argv.drop i = [str "--group"]) :
    printBody argv i (str "--group") opts = .error (.pastEnd (i + 1)) := by
  have dash : ¬firstChar (str "--group") ≠ 0x2d := not_not.mpr rfl
  have behind : argv.length ≤ i + 1 := List.drop_eq_nil_iff.mp (drop_next left)
  rw [printBody, if_neg dash, if_pos rfl, argument, List.getElem?_eq_none behind]
  rfl

private theorem printBody_other {opt : Bytes} (other : opt ≠ str "--group") (i : ℕ) (opts : Options) :
    ∃ next, printBody argv i opt opts = .ok (.next 0 next) := by
  rw [printBody, if_neg other]
  split_ifs <;> exact ⟨_, rfl⟩

private theorem handles_print : Handles argv (printBody argv) (takesValue .print) (separates .print) where
  missing i opt opts left takes := by
    obtain rfl : opt = str "--group" := takes
    exact ⟨_, printBody_last argv opts left⟩
  valued i opt value rest opts left takes := by
    obtain rfl : opt = str "--group" := takes
    rw [printBody_group argv opts left]
    split_ifs
    · exact .inr ⟨_, rfl⟩
    · exact .inr ⟨_, rfl⟩
    · exact .inl ⟨_, rfl⟩
  single i opt opts alone _ := .inr (printBody_other argv alone i opts)

private theorem handles_debug : Handles argv debugBody (takesValue .debug) (separates .debug) where
  missing i opt opts left takes := takes.elim
  valued i opt value rest opts left takes := takes.elim
  single i opt opts _ _ := by
    refine .inr ?_
    rw [debugBody]
    split_ifs <;> exact ⟨_, rfl⟩

end Bodies

/-! ## The loop of `print` -/

private theorem printLoop_pastEnd {argv tokens : List Bytes} (ends : EndsInGroup tokens) (i : ℕ)
    (opts : Options) (left : argv.drop i = tokens) :
    ∃ index, optionLoop argv (printBody argv) i opts = .error (.pastEnd index) := by
  induction ends generalizing i opts with
  | last =>
    exact ⟨i + 1, by rw [optionLoop_cons _ opts left, printBody_last argv opts left]⟩
  | group accepted later ih =>
    rw [optionLoop_cons _ opts left, printBody_group argv opts left]
    rcases accepted with rfl | rfl
    · exact ih (i + 1 + 1) _ (drop_next (drop_next left))
    · exact ih (i + 1 + 1) _ (drop_next (drop_next left))
  | other differs later ih =>
    obtain ⟨next, ran⟩ := printBody_other argv differs i opts
    rw [optionLoop_cons _ opts left, ran]
    exact ih (i + 1) next (drop_next left)

/-- The loop of `print` reads past the end only behind a `--group` that ends the tokens. -/
theorem endsInGroup_of_pastEnd {argv : List Bytes} (i : ℕ) (opts : Options) {index : ℕ}
    (ran : optionLoop argv (printBody argv) i opts = .error (.pastEnd index)) :
    EndsInGroup (argv.drop i) := by
  induction tokens : (argv.drop i).length using Nat.strong_induction_on generalizing i opts with
  | _ count ih =>
    subst tokens
    rcases left : argv.drop i with _ | ⟨opt, rest⟩
    · rw [optionLoop_nil _ opts left] at ran
      cases ran
    rw [optionLoop_cons _ opts left] at ran
    by_cases group : opt = str "--group"
    · subst group
      rcases rest with _ | ⟨value, rest⟩
      · exact .last
      have behind : argv.drop (i + 1 + 1) = rest := drop_next (drop_next left)
      have shorter : (argv.drop (i + 1 + 1)).length < (argv.drop i).length := by
        rw [behind, left, List.length_cons, List.length_cons]
        omega
      rw [printBody_group argv opts left] at ran
      split_ifs at ran with none thread
      · refine .group (.inl none) ?_
        rw [← behind]
        exact ih _ shorter _ _ ran rfl
      · refine .group (.inr thread) ?_
        rw [← behind]
        exact ih _ shorter _ _ ran rfl
      · cases ran
    · obtain ⟨next, passed⟩ := printBody_other argv group i opts
      rw [passed] at ran
      have behind : argv.drop (i + 1) = rest := drop_next left
      refine .other group ?_
      rw [← behind]
      refine ih _ ?_ _ _ ran rfl
      rw [behind, left, List.length_cons]
      omega

/-! ## The parsers -/

/-- A parser does not read past the end when neither its loop does nor what it does behind it. -/
theorem bind_inside {α : Type} {loop : Except OptionFault α} {rest : α → Except OptionFault Options}
    {index : ℕ} (first : loop ≠ .error (.pastEnd index))
    (later : ∀ value, loop = .ok value → rest value ≠ .error (.pastEnd index)) :
    (loop >>= rest) ≠ .error (.pastEnd index) := by
  cases ran : loop with
  | error fault =>
    rintro ⟨⟩
    exact first ran
  | ok value => exact later value ran

private theorem bind_refused {α : Type} {loop : Except OptionFault α}
    (rest : α → Except OptionFault Options) (refused : ∃ fault, loop = .error fault) :
    ∃ fault, (loop >>= rest) = .error fault := by
  obtain ⟨fault, rfl⟩ := refused
  exact ⟨fault, rfl⟩

private theorem storeArguments_inside (argv : List Bytes) (hasExtraOpts : Bool) (i : ℕ) (opts : Options)
    (index : ℕ) : storeArguments argv hasExtraOpts i opts ≠ .error (.pastEnd index) := by
  rw [storeArguments_eq]
  rintro ⟨⟩

private theorem parseArguments_inside {argv : List Bytes} {body : OptionBody}
    (inside : ∀ i opt opts index, body i opt opts ≠ .error (.pastEnd index)) (command : Bytes)
    (opts : Options) (index : ℕ) :
    parseArguments command body argv opts ≠ .error (.pastEnd index) := by
  rw [parseArguments]
  split_ifs
  · simp
  · apply bind_inside (optionLoop_inside inside 2 opts index)
    rintro result -
    rintro ⟨⟩

/-- Five of the parsers, and that of `info`, stay inside `argv`. -/
theorem parseMode_inside {mode : Mode} (tested : mode ≠ .print) (argv : List Bytes)
    (opts : Options) (index : ℕ) : parseMode mode argv opts ≠ .error (.pastEnd index) := by
  cases mode with
  | record =>
    apply bind_inside (optionLoop_inside (recordBody_inside argv) 2 opts index)
    rintro ⟨hasExtraOpts, i, next⟩ -
    apply bind_inside (storeArguments_inside argv hasExtraOpts i next index)
    intro final _
    split_ifs <;> rintro ⟨⟩
  | replay =>
    apply bind_inside (optionLoop_inside (replayBody_inside argv) 2 opts index)
    rintro ⟨hasExtraOpts, i, next⟩ -
    apply bind_inside (storeArguments_inside argv hasExtraOpts i next index)
    intro final _
    split_ifs <;> rintro ⟨⟩
  | print => exact absurd rfl tested
  | info =>
    rw [parseMode, parseInfoOptions]
    split_ifs <;> simp
  | pack => exact parseArguments_inside (packBody_inside argv) _ opts index
  | unpack => exact parseArguments_inside (packBody_inside argv) _ opts index
  | debug => exact parseArguments_inside debugBody_inside _ opts index

private theorem parsePrint_pastEnd_iff (argv : List Bytes) (opts : Options) :
    (∃ index, parsePrintOptions argv opts = .error (.pastEnd index)) ↔
      EndsInGroup (argv.drop 2) := by
  constructor
  · rintro ⟨index, ran⟩
    cases looped : optionLoop argv (printBody argv) 2 opts with
    | error fault =>
      rw [parsePrintOptions, looped] at ran
      cases ran
      exact endsInGroup_of_pastEnd 2 opts looped
    | ok result =>
      rw [parsePrintOptions, looped] at ran
      change (if result.2.2.mInput = [] then _ else _) = _ at ran
      split_ifs at ran <;> cases ran
  · intro ends
    obtain ⟨index, looped⟩ := printLoop_pastEnd ends 2 opts rfl
    exact ⟨index, by rw [parsePrintOptions, looped]; rfl⟩

private theorem parseArguments_dangling {argv : List Bytes} {body : OptionBody}
    {takesValue separates : Bytes → Prop} (handles : Handles argv body takesValue separates)
    (dangling : Dangling takesValue separates (argv.drop 2)) (command : Bytes) (opts : Options) :
    ∃ fault, parseArguments command body argv opts = .error fault := by
  rw [parseArguments]
  split_ifs
  · exact ⟨_, rfl⟩
  · exact bind_refused _ (optionLoop_dangling handles dangling 2 opts rfl)

/-- A missing value at the end is an error in every parser. -/
theorem parseMode_dangling {mode : Mode} {argv : List Bytes}
    (dangling : Dangling (takesValue mode) (separates mode) (argv.drop 2)) (opts : Options) :
    ∃ fault, parseMode mode argv opts = .error fault := by
  cases mode with
  | record => exact bind_refused _ (optionLoop_dangling (handles_record argv) dangling 2 opts rfl)
  | replay => exact bind_refused _ (optionLoop_dangling (handles_replay argv) dangling 2 opts rfl)
  | print => exact bind_refused _ (optionLoop_dangling (handles_print argv) dangling 2 opts rfl)
  | info =>
    rw [parseMode, parseInfoOptions]
    split_ifs with more
    · exact ⟨_, rfl⟩
    · rw [List.drop_eq_nil_of_le (by omega)] at dangling
      cases dangling
  | pack => exact parseArguments_dangling (handles_pack argv) dangling _ opts
  | unpack => exact parseArguments_dangling (handles_pack argv) dangling _ opts
  | debug => exact parseArguments_dangling (handles_debug argv) dangling _ opts

/-- The parser of a command makes strings of entries below `argc` alone, and reports an option that
takes a value and ends the vector, exactly if the command is not `print` or its tokens do not end in
a `--group` that it reaches. -/
theorem option_reads_iff (mode : Mode) (argv : List Bytes) (opts : Options) :
    (∀ index, parseMode mode argv opts ≠ .error (.pastEnd index)) ∧
        (Dangling (takesValue mode) (separates mode) (argv.drop 2) →
          ∃ fault, parseMode mode argv opts = .error fault) ↔
      ¬(mode = .print ∧ EndsInGroup (argv.drop 2)) := by
  constructor
  · rintro ⟨inside, -⟩ ⟨rfl, ends⟩
    obtain ⟨index, ran⟩ := (parsePrint_pastEnd_iff argv opts).mpr ends
    exact inside index ran
  · intro fits
    refine ⟨fun index ran => ?_, fun dangling => parseMode_dangling dangling opts⟩
    by_cases print : mode = .print
    · subst print
      exact fits ⟨rfl, (parsePrint_pastEnd_iff argv opts).mp ⟨index, ran⟩⟩
    · exact parseMode_inside print argv opts index ran

/-- `dpcpp_trace print trace --group`. -/
theorem not_option_reads :
    ¬∀ index, parseOptions [str "dpcpp_trace", str "print", str "trace", str "--group"] ≠
      .error (.pastEnd index) := by
  intro inside
  have ends : EndsInGroup [str "trace", str "--group"] := .other (by decide) .last
  obtain ⟨index, ran⟩ := (parsePrint_pastEnd_iff
    [str "dpcpp_trace", str "print", str "trace", str "--group"] { mMode := some .print }).mpr ends
  exact inside index ran

end DpcppTrace.Soundness
