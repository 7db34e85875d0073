import DpcppTrace.Foundation.Slots
import DpcppTrace.Model.Options

/-! # The language of `record`'s options

The tokens before the separator read, from left to right, as groups: a positional, an output with
its value, a flag. Each kind of group fills one field of the options, and a branch of the parser is
guarded by that field being unset, so the parser accepts what has each kind at most once and both
required ones, in any order.
-/

namespace DpcppTrace.Soundness

open Foundation Model

/-- A group of tokens in front of the separator. -/
inductive Group where
  | positional (path : Bytes)
  | output (path : Bytes)
  | override
  | noFork
  | skipMemObjects
deriving DecidableEq

/-- What a group says something about. -/
inductive GroupKind where
  | positional | output | override | noFork | skipMemObjects
deriving DecidableEq

def Group.kind : Group → GroupKind
  | .positional _ => .positional
  | .output _ => .output
  | .override => .override
  | .noFork => .noFork
  | .skipMemObjects => .skipMemObjects

/-- The flag that a token spells. -/
def spelledFlag (token : Bytes) : Option Group :=
  if token = str "--override" then some .override
  else if token = str "--no-fork" then some .noFork
  else if token = str "-s" ∨ token = str "--skip-mem-objects" then some .skipMemObjects
  else none

/-- The tokens read as these groups, and these are the tokens behind the separator. -/
inductive ReadsAs : List Bytes → List Group → List Bytes → Prop
  | done : ReadsAs [] [] []
  | separator (arguments : List Bytes) : ReadsAs (str "--" :: arguments) [] arguments
  | positional {path : Bytes} {tokens : List Bytes} {groups : List Group} {arguments : List Bytes}
      (plain : firstChar path ≠ 0x2d) (later : ReadsAs tokens groups arguments) :
      ReadsAs (path :: tokens) (.positional path :: groups) arguments
  | output {name path : Bytes} {tokens : List Bytes} {groups : List Group} {arguments : List Bytes}
      (named : name = str "-o" ∨ name = str "--output") (later : ReadsAs tokens groups arguments) :
      ReadsAs (name :: path :: tokens) (.output path :: groups) arguments
  | flag {token : Bytes} {group : Group} {tokens : List Bytes} {groups : List Group}
      {arguments : List Bytes} (spelled : spelledFlag token = some group)
      (later : ReadsAs tokens groups arguments) :
      ReadsAs (token :: tokens) (group :: groups) arguments

/-- One positional, one output and each flag at most once. -/
structure Accepted (groups : List Group) : Prop where
  positional : (groups.map Group.kind).count .positional = 1
  output : (groups.map Group.kind).count .output = 1
  override : (groups.map Group.kind).count .override ≤ 1
  noFork : (groups.map Group.kind).count .noFork ≤ 1
  skipMemObjects : (groups.map Group.kind).count .skipMemObjects ≤ 1

/-- The options have the input, the output and the flags that the groups name. -/
structure Describes (groups : List Group) (opts : Options) : Prop where
  input : ∀ path, opts.mInput = path ↔ .positional path ∈ groups
  output : ∀ path, opts.mOutput = path ↔ .output path ∈ groups
  override : opts.mRecordOverrideTrace = true ↔ .override ∈ groups
  noFork : opts.mNoFork = true ↔ .noFork ∈ groups
  skipMemObjects : opts.mRecordSkipMemObjs = true ↔ .skipMemObjects ∈ groups

/-! ## The fields of the options as slots -/

/-- The group that set a field. -/
def optionContent (opts : Options) : GroupKind → Option Group
  | .positional => if opts.mInput = [] then none else some (.positional opts.mInput)
  | .output => if opts.mOutput = [] then none else some (.output opts.mOutput)
  | .override => if opts.mRecordOverrideTrace then some .override else none
  | .noFork => if opts.mNoFork then some .noFork else none
  | .skipMemObjects => if opts.mRecordSkipMemObjs then some .skipMemObjects else none

def putGroup (opts : Options) : Group → Options
  | .positional path => { opts with mInput := path }
  | .output path => { opts with mOutput := path }
  | .override => { opts with mRecordOverrideTrace := true }
  | .noFork => { opts with mNoFork := true }
  | .skipMemObjects => { opts with mRecordSkipMemObjs := true }

/-- A path that is set is not empty. -/
def Group.Proper : Group → Prop
  | .positional path | .output path => path ≠ []
  | _ => True

private theorem optionContent_put (opts : Options) (group : Group) (proper : group.Proper) :
    optionContent (putGroup opts group) =
      Function.update (optionContent opts) group.kind (some group) := by
  funext kind
  by_cases own : kind = group.kind
  · subst own
    rw [Function.update_self]
    cases group with
    | positional path => exact if_neg proper
    | output path => exact if_neg proper
    | override | noFork | skipMemObjects => rfl
  · rw [Function.update_of_ne own]
    cases group <;> cases kind <;> first | rfl | exact absurd rfl own

/-- The options as slots, one for each kind of group. -/
def optionSlots : Slots Options Group GroupKind where
  key := Group.kind
  content := optionContent
  put := putGroup
  proper := Group.Proper
  content_put := optionContent_put

private theorem spelledFlag_dash {token : Bytes} {group : Group} (spelled : spelledFlag token = some group) :
    firstChar token = 0x2d := by
  rw [spelledFlag] at spelled
  split_ifs at spelled with override noFork skip
  · rw [override]
    rfl
  · rw [noFork]
    rfl
  · rcases skip with rfl | rfl <;> rfl

private theorem named_dash {name : Bytes} (named : name = str "-o" ∨ name = str "--output") :
    firstChar name = 0x2d ∧ spelledFlag name = none ∧ name ≠ str "--" := by
  rcases named with rfl | rfl <;> decide

/-- Tokens read in one way at most. -/
theorem ReadsAs.unique {tokens : List Bytes} {groups others : List Group}
    {arguments otherArguments : List Bytes} (reads : ReadsAs tokens groups arguments)
    (otherwise : ReadsAs tokens others otherArguments) :
    groups = others ∧ arguments = otherArguments := by
  induction reads generalizing others with
  | done =>
    cases otherwise
    exact ⟨rfl, rfl⟩
  | separator arguments =>
    cases otherwise with
    | separator => exact ⟨rfl, rfl⟩
    | positional plain later => exact absurd rfl plain
    | output named later => exact absurd rfl (named_dash named).2.2
    | flag spelled later => cases spelled
  | positional plain later ih =>
    cases otherwise with
    | separator => exact absurd rfl plain
    | positional _ later =>
      obtain ⟨rfl, rfl⟩ := ih later
      exact ⟨rfl, rfl⟩
    | output named later => exact absurd (named_dash named).1 plain
    | flag spelled later => exact absurd (spelledFlag_dash spelled) plain
  | output named later ih =>
    cases otherwise with
    | separator => exact absurd rfl (named_dash named).2.2
    | positional plain later => exact absurd (named_dash named).1 plain
    | output _ later =>
      obtain ⟨rfl, rfl⟩ := ih later
      exact ⟨rfl, rfl⟩
    | flag spelled later =>
      rw [(named_dash named).2.1] at spelled
      cases spelled
  | flag spelled later ih =>
    cases otherwise with
    | separator => cases spelled
    | positional plain later => exact absurd (spelledFlag_dash spelled) plain
    | output named later =>
      rw [(named_dash named).2.1] at spelled
      cases spelled
    | flag again later =>
      obtain ⟨rfl, rfl⟩ := ih later
      obtain rfl := Option.some.inj (spelled.symm.trans again)
      exact ⟨rfl, rfl⟩

/-- The tokens are not empty, so neither are the paths among them. -/
theorem ReadsAs.proper {tokens : List Bytes} {groups : List Group} {arguments : List Bytes}
    (reads : ReadsAs tokens groups arguments) (nonempty : ∀ token ∈ tokens, token ≠ []) :
    ∀ group ∈ groups, group.Proper := by
  induction reads with
  | done | separator => simp
  | positional plain later ih =>
    obtain ⟨here, rest⟩ := List.forall_mem_cons.mp nonempty
    exact List.forall_mem_cons.mpr ⟨here, ih rest⟩
  | output named later ih =>
    obtain ⟨-, here, rest⟩ := List.forall_mem_cons.mp nonempty |>.imp id List.forall_mem_cons.mp
    exact List.forall_mem_cons.mpr ⟨here, ih rest⟩
  | @flag token group _ _ _ spelled later ih =>
    have isFlag : group.Proper := by
      rw [spelledFlag] at spelled
      split_ifs at spelled <;> cases spelled <;> trivial
    exact List.forall_mem_cons.mpr ⟨isFlag, ih (List.forall_mem_cons.mp nonempty).2⟩

/-! ## The branches of the body -/

section Body

variable (argv : List Bytes) (i : ℕ) {opt : Bytes} (opts : Options)

/-- How the body treats an option it does not recognise, or not any more. -/
def unrecognized (opt : Bytes) : Except OptionFault OptionPass :=
  .error (.thrown (str "unrecognized option " ++ opt))

/-- A token without a leading dash is no option. -/
theorem ne_option {name : Bytes} (plain : firstChar opt ≠ 0x2d) (dash : firstChar name = 0x2d) :
    opt ≠ name := by
  rintro rfl
  exact plain dash

private theorem recordBody_positional (plain : firstChar opt ≠ 0x2d) :
    recordBody argv i opt opts =
      if (optionContent opts .positional).isNone then
        .ok (.next 0 (putGroup opts (.positional opt)))
      else unrecognized opt := by
  rw [recordBody]
  by_cases first : opts.mInput = []
  · rw [if_pos ⟨plain, first⟩, optionContent, if_pos first]
    rfl
  · rw [if_neg (fun positional => first positional.2), if_neg (ne_option plain rfl),
      if_neg (not_and_of_not_left _ (not_or.mpr ⟨ne_option plain rfl, ne_option plain rfl⟩)),
      if_neg (not_and_of_not_left _ (ne_option plain rfl)),
      if_neg (not_and_of_not_left _ (not_or.mpr ⟨ne_option plain rfl, ne_option plain rfl⟩)),
      if_neg (not_and_of_not_left _ (ne_option plain rfl)), optionContent, if_neg first]
    rfl

private theorem recordBody_separator : recordBody argv i (str "--") opts = .ok (.stop opts) := by
  rw [recordBody, if_neg (fun positional => positional.1 rfl), if_pos rfl]

private theorem recordBody_named (named : opt = str "-o" ∨ opt = str "--output") :
    recordBody argv i opt opts =
      if (optionContent opts .output).isNone then
        takeOutput argv i (.thrown (str "--output requires an argument\n")) opts
      else unrecognized opt := by
  rw [recordBody_output argv named.symm, optionContent]
  by_cases first : opts.mOutput = []
  · rw [if_pos first, if_pos first]
    rfl
  · rw [if_neg first, if_neg first]
    rfl

/-- The branches of the flags. -/
theorem recordBody_flags (dash : firstChar opt = 0x2d) (inside : opt ≠ str "--")
    (unnamed : ¬(opt = str "--output" ∨ opt = str "-o")) :
    recordBody argv i opt opts =
      if opt = str "--override" ∧ opts.mRecordOverrideTrace = false then
        .ok (.next 0 { opts with mRecordOverrideTrace := true })
      else if (opt = str "--skip-mem-objects" ∨ opt = str "-s") ∧ opts.mRecordSkipMemObjs = false then
        .ok (.next 0 { opts with mRecordSkipMemObjs := true })
      else if opt = str "--no-fork" ∧ opts.mNoFork = false then
        .ok (.next 0 { opts with mNoFork := true })
      else unrecognized opt := by
  rw [recordBody, if_neg (fun positional => positional.1 dash), if_neg inside,
    if_neg (fun output => unnamed output.1)]
  rfl

private theorem recordBody_flag {group : Group} (spelled : spelledFlag opt = some group) :
    recordBody argv i opt opts =
      if (optionContent opts group.kind).isNone then .ok (.next 0 (putGroup opts group))
      else unrecognized opt := by
  rw [spelledFlag] at spelled
  split_ifs at spelled with override noFork skip
  · obtain rfl := Option.some.inj spelled
    subst override
    rw [recordBody_flags argv i opts rfl (by decide) (by decide)]
    have noSkip : ¬(str "--override" = str "--skip-mem-objects" ∨ str "--override" = str "-s") := by
      decide
    have noFork : str "--override" ≠ str "--no-fork" := by decide
    cases set : opts.mRecordOverrideTrace <;>
      simp [noSkip, noFork, optionContent, Group.kind, putGroup, set]
  · obtain rfl := Option.some.inj spelled
    subst noFork
    rw [recordBody_flags argv i opts rfl (by decide) (by decide)]
    have noSkip : ¬(str "--no-fork" = str "--skip-mem-objects" ∨ str "--no-fork" = str "-s") := by
      decide
    cases set : opts.mNoFork <;>
      simp [noSkip, override, optionContent, Group.kind, putGroup, set]
  · obtain rfl := Option.some.inj spelled
    have dash : firstChar opt = 0x2d := by rcases skip with rfl | rfl <;> rfl
    have inside : opt ≠ str "--" := by rcases skip with rfl | rfl <;> decide
    have unnamed : ¬(opt = str "--output" ∨ opt = str "-o") := by
      rcases skip with rfl | rfl <;> decide
    rw [recordBody_flags argv i opts dash inside unnamed]
    cases set : opts.mRecordSkipMemObjs <;>
      simp [skip.symm, override, noFork, optionContent, Group.kind, putGroup, set]

/-- What is neither a separator nor the front of a group is refused. -/
theorem recordBody_other (dash : firstChar opt = 0x2d) (inside : opt ≠ str "--")
    (unnamed : ¬(opt = str "-o" ∨ opt = str "--output")) (flags : spelledFlag opt = none) :
    recordBody argv i opt opts = unrecognized opt := by
  rw [spelledFlag] at flags
  split_ifs at flags with override noFork skip
  rw [recordBody_flags argv i opts dash inside (mt Or.symm unnamed),
    if_neg (fun flag => override flag.1), if_neg (fun flag => skip flag.1.symm),
    if_neg (fun flag => noFork flag.1)]

end Body

/-! ## The loop -/

private theorem fill_cons (opts : Options) (group : Group) (groups : List Group) :
    optionSlots.fill opts (group :: groups) =
      if (optionContent opts group.kind).isNone then
        optionSlots.fill (putGroup opts group) groups
      else none :=
  rfl

private theorem fill_mArguments {opts final : Options} {groups : List Group}
    (filled : optionSlots.fill opts groups = some final) : final.mArguments = opts.mArguments := by
  induction groups generalizing opts with
  | nil =>
    obtain rfl := Option.some.inj filled
    rfl
  | cons group groups ih =>
    rw [fill_cons] at filled
    split_ifs at filled
    rw [ih filled]
    cases group <;> rfl

/-- Groups whose slots are free are parsed. -/
theorem loop_of_readsAs {argv tokens arguments : List Bytes} {groups : List Group}
    (reads : ReadsAs tokens groups arguments) (i : ℕ) (opts : Options) {final : Options}
    (left : argv.drop i = tokens) (filled : optionSlots.fill opts groups = some final) :
    ∃ hasExtraOpts j, optionLoop argv (recordBody argv) i opts = .ok (hasExtraOpts, j, final) ∧
      (if hasExtraOpts then argv.drop j else []) = arguments := by
  induction reads generalizing i opts with
  | done =>
    obtain rfl := Option.some.inj filled
    exact ⟨false, i, optionLoop_nil _ opts left, rfl⟩
  | separator arguments =>
    obtain rfl := Option.some.inj filled
    refine ⟨true, i + 1, ?_, drop_next left⟩
    rw [optionLoop_cons _ opts left, recordBody_separator]
  | positional plain later ih =>
    rw [fill_cons] at filled
    split_ifs at filled with free
    have free : (optionContent opts .positional).isNone := free
    rw [optionLoop_cons _ opts left, recordBody_positional argv i opts plain, if_pos free]
    exact ih (i + 1) _ (drop_next left) filled
  | output named later ih =>
    rw [fill_cons] at filled
    split_ifs at filled with free
    have free : (optionContent opts .output).isNone := free
    rw [optionLoop_cons _ opts left, recordBody_named argv i opts named, if_pos free,
      takeOutput_present _ opts left]
    exact ih (i + 1 + 1) _ (drop_next (drop_next left)) filled
  | flag spelled later ih =>
    rw [fill_cons] at filled
    split_ifs at filled with free
    rw [optionLoop_cons _ opts left, recordBody_flag argv i opts spelled, if_pos free]
    exact ih (i + 1) _ (drop_next left) filled

/-- What is parsed reads as groups whose slots were free. -/
theorem readsAs_of_loop {argv : List Bytes} (i : ℕ) (opts : Options) {hasExtraOpts : Bool} {j : ℕ}
    {final : Options}
    (ran : optionLoop argv (recordBody argv) i opts = .ok (hasExtraOpts, j, final)) :
    ∃ groups, ReadsAs (argv.drop i) groups (if hasExtraOpts then argv.drop j else []) ∧
      optionSlots.fill opts groups = some final := by
  induction tokens : (argv.drop i).length using Nat.strong_induction_on generalizing i opts with
  | _ count ih =>
    subst tokens
    rcases left : argv.drop i with _ | ⟨opt, rest⟩
    · rw [optionLoop_nil _ opts left] at ran
      cases ran
      exact ⟨[], .done, rfl⟩
    have shorter (skipped : ℕ) : (argv.drop (i + skipped + 1)).length < (argv.drop i).length := by
      have inside := lt_of_drop left
      simp only [List.length_drop]
      omega
    rw [optionLoop_cons _ opts left] at ran
    by_cases plain : firstChar opt ≠ 0x2d
    · rw [recordBody_positional argv i opts plain] at ran
      split_ifs at ran with free
      · obtain ⟨groups, reads, filled⟩ := ih _ (shorter 0) _ _ ran rfl
        rw [drop_next left] at reads
        exact ⟨_, .positional plain reads, by rw [fill_cons]; exact (if_pos free).trans filled⟩
      · cases ran
    rw [not_not] at plain
    by_cases separator : opt = str "--"
    · subst separator
      rw [recordBody_separator] at ran
      cases ran
      refine ⟨[], ?_, rfl⟩
      rw [if_pos rfl, drop_next left]
      exact .separator rest
    by_cases named : opt = str "-o" ∨ opt = str "--output"
    · rw [recordBody_named argv i opts named] at ran
      split_ifs at ran with free
      · rcases rest with _ | ⟨path, rest⟩
        · rw [takeOutput_missing _ opts left] at ran
          cases ran
        · rw [takeOutput_present _ opts left] at ran
          obtain ⟨groups, reads, filled⟩ := ih _ (shorter 1) _ _ ran rfl
          rw [drop_next (drop_next left)] at reads
          exact ⟨_, .output named reads, by rw [fill_cons]; exact (if_pos free).trans filled⟩
      · cases ran
    rcases spelled : spelledFlag opt with _ | group
    · rw [recordBody_other argv i opts plain separator named spelled] at ran
      cases ran
    · rw [recordBody_flag argv i opts spelled] at ran
      split_ifs at ran with free
      · obtain ⟨groups, reads, filled⟩ := ih _ (shorter 0) _ _ ran rfl
        rw [drop_next left] at reads
        exact ⟨_, .flag spelled reads, by rw [fill_cons]; exact (if_pos free).trans filled⟩
      · cases ran

/-! ## The parser -/

private theorem parseRecord_ok_iff (argv : List Bytes) (opts : Options) :
    parseRecordOptions argv {} = .ok opts ↔
      ∃ groups arguments final, ReadsAs (argv.drop 2) groups arguments ∧
        optionSlots.fill {} groups = some final ∧ final.mInput ≠ [] ∧ final.mOutput ≠ [] ∧
        opts = { final with mArguments := arguments } := by
  -- What is behind the loop, on the result of the loop.
  have behind (hasExtraOpts : Bool) (j : ℕ) (final : Options) (fresh : final.mArguments = [])
      (ran : optionLoop argv (recordBody argv) 2 {} = .ok (hasExtraOpts, j, final)) :
      parseRecordOptions argv {} =
        if final.mInput = [] then .error (.thrown (str "input is required"))
        else if final.mOutput = [] then .error (.thrown (str "output is required"))
        else
          .ok { final with mArguments := if hasExtraOpts then argv.drop j else [] } := by
    rw [parseRecordOptions, ran]
    change (storeArguments argv hasExtraOpts j final >>= _) = _
    rw [storeArguments_eq, fresh, List.nil_append]
    rfl
  constructor
  · intro parsed
    cases ran : optionLoop argv (recordBody argv) 2 {} with
    | error fault =>
      rw [parseRecordOptions, ran] at parsed
      cases parsed
    | ok result =>
      obtain ⟨hasExtraOpts, j, final⟩ := result
      obtain ⟨groups, reads, filled⟩ := readsAs_of_loop 2 {} ran
      rw [behind hasExtraOpts j final (fill_mArguments filled) ran] at parsed
      by_cases input : final.mInput = []
      · rw [if_pos input] at parsed
        cases parsed
      by_cases output : final.mOutput = []
      · rw [if_neg input, if_pos output] at parsed
        cases parsed
      rw [if_neg input, if_neg output] at parsed
      exact ⟨groups, _, final, reads, filled, input, output, (Except.ok.inj parsed).symm⟩
  · rintro ⟨groups, arguments, final, reads, filled, input, output, rfl⟩
    obtain ⟨hasExtraOpts, j, ran, rfl⟩ := loop_of_readsAs reads 2 {} rfl filled
    rw [behind hasExtraOpts j final (fill_mArguments filled) ran, if_neg input, if_neg output]

private theorem optionContent_fresh (kind : GroupKind) : optionContent {} kind = none := by
  cases kind <;> rfl

/-- The filled options have the content that the groups name. -/
theorem content_of_groups {groups : List Group} {final : Options}
    (proper : ∀ group ∈ groups, group.Proper) (filled : optionSlots.fill {} groups = some final)
    (kind : GroupKind) (group : Group) :
    optionContent final kind = some group ↔ group ∈ groups ∧ group.kind = kind := by
  have content : optionContent final kind = some group ↔
      (group ∈ groups ∧ group.kind = kind) ∨ optionContent {} kind = some group :=
    optionSlots.content_of_fill proper filled kind group
  have fresh : optionContent {} kind ≠ some group := by
    rw [optionContent_fresh]
    simp
  rw [or_iff_left fresh] at content
  exact content

private theorem describes_of_fill {groups : List Group} {final : Options} {arguments : List Bytes}
    (proper : ∀ group ∈ groups, group.Proper) (filled : optionSlots.fill {} groups = some final)
    (input : final.mInput ≠ []) (output : final.mOutput ≠ []) :
    Describes groups { final with mArguments := arguments } := by
  have content := content_of_groups proper filled
  constructor
  · intro path
    have named := content .positional (.positional path)
    rw [optionContent, if_neg input] at named
    simpa [Group.kind] using named
  · intro path
    have named := content .output (.output path)
    rw [optionContent, if_neg output] at named
    simpa [Group.kind] using named
  · have named := content .override .override
    simpa [optionContent, Group.kind] using named
  · have named := content .noFork .noFork
    simpa [optionContent, Group.kind] using named
  · have named := content .skipMemObjects .skipMemObjects
    simpa [optionContent, Group.kind] using named

private theorem accepted_iff (groups : List Group) :
    Accepted groups ↔ (groups.map Group.kind).Nodup ∧ .positional ∈ groups.map Group.kind ∧
      .output ∈ groups.map Group.kind := by
  constructor
  · intro accepted
    refine ⟨List.nodup_iff_count_le_one.mpr fun kind => ?_, ?_, ?_⟩
    · cases kind with
      | positional => exact accepted.positional.le
      | output => exact accepted.output.le
      | override => exact accepted.override
      | noFork => exact accepted.noFork
      | skipMemObjects => exact accepted.skipMemObjects
    · apply List.count_pos_iff.mp
      rw [accepted.positional]
      exact Nat.one_pos
    · apply List.count_pos_iff.mp
      rw [accepted.output]
      exact Nat.one_pos
  · rintro ⟨distinct, positional, output⟩
    have once := List.nodup_iff_count_le_one.mp distinct
    exact ⟨List.count_eq_one_of_mem distinct positional, List.count_eq_one_of_mem distinct output,
      once _, once _, once _⟩

/-- The groups are accepted exactly if they fill the options, input and output among them. -/
theorem accepted_iff_fill {groups : List Group} (proper : ∀ group ∈ groups, group.Proper) :
    Accepted groups ↔
      ∃ final, optionSlots.fill {} groups = some final ∧ final.mInput ≠ [] ∧ final.mOutput ≠ [] := by
  have fills : (groups.map Group.kind).Nodup ↔ (optionSlots.fill {} groups).isSome := by
    have possible : (optionSlots.fill {} groups).isSome ↔
        (groups.map Group.kind).Nodup ∧ ∀ group ∈ groups, optionContent {} group.kind = none :=
      optionSlots.fill_isSome_iff proper
    have fresh : ∀ group ∈ groups, optionContent {} group.kind = none :=
      fun group _ => optionContent_fresh group.kind
    rw [and_iff_left fresh] at possible
    exact possible.symm
  rw [accepted_iff, fills, Option.isSome_iff_exists]
  -- A path is set exactly if a group of its kind is among them.
  have set {kind : GroupKind} {final : Options} (filled : optionSlots.fill {} groups = some final) :
      kind ∈ groups.map Group.kind ↔ optionContent final kind ≠ none := by
    rw [Option.ne_none_iff_exists', List.mem_map]
    exact exists_congr fun group => (content_of_groups proper filled kind group).symm
  constructor
  · rintro ⟨⟨final, filled⟩, positional, output⟩
    refine ⟨final, filled, fun none => ?_, fun none => ?_⟩
    · exact (set filled).mp positional (if_pos none)
    · exact (set filled).mp output (if_pos none)
  · rintro ⟨final, filled, input, output⟩
    refine ⟨⟨final, filled⟩, (set filled).mpr ?_, (set filled).mpr ?_⟩
    · rw [optionContent, if_neg input]
      simp
    · rw [optionContent, if_neg output]
      simp

private theorem describes_of_parsed {argv : List Bytes} (nonempty : ∀ token ∈ argv, token ≠ [])
    {opts : Options} (parsed : parseRecordOptions argv {} = .ok opts) :
    ∃ groups, ReadsAs (argv.drop 2) groups opts.mArguments ∧ Describes groups opts := by
  obtain ⟨groups, arguments, final, reads, filled, input, output, rfl⟩ :=
    (parseRecord_ok_iff argv opts).mp parsed
  have proper : ∀ group ∈ groups, group.Proper :=
    reads.proper fun token member => nonempty token (List.mem_of_mem_drop member)
  exact ⟨groups, reads, describes_of_fill proper filled input output⟩

/-- The input, the output and the flags of options that two lists of groups describe are the same
when the groups are. -/
theorem Describes.unique {groups others : List Group} {opts other : Options}
    (first : Describes groups opts) (second : Describes others other)
    (same : ∀ group, group ∈ groups ↔ group ∈ others) :
    opts.mInput = other.mInput ∧ opts.mOutput = other.mOutput ∧
      opts.mRecordOverrideTrace = other.mRecordOverrideTrace ∧ opts.mNoFork = other.mNoFork ∧
      opts.mRecordSkipMemObjs = other.mRecordSkipMemObjs := by
  refine ⟨?_, ?_, ?_, ?_, ?_⟩
  · exact (first.input _).mpr ((same _).mpr ((second.input _).mp rfl))
  · exact (first.output _).mpr ((same _).mpr ((second.output _).mp rfl))
  · exact Bool.eq_iff_iff.mpr (by rw [first.override, second.override, same])
  · exact Bool.eq_iff_iff.mpr (by rw [first.noFork, second.noFork, same])
  · exact Bool.eq_iff_iff.mpr (by rw [first.skipMemObjects, second.skipMemObjects, same])

/-- `parseRecordOptions` on strings that are not empty. It succeeds exactly if the tokens read as
accepted groups. Input, output and flags are then those that the groups name, so they are the same
for any vector with the same set of groups, and the stored arguments are the tokens behind the
separator. -/
theorem record_options_iff (argv : List Bytes) (nonempty : ∀ token ∈ argv, token ≠ []) :
    ((∃ opts, parseRecordOptions argv {} = .ok opts) ↔
      ∃ groups arguments, ReadsAs (argv.drop 2) groups arguments ∧ Accepted groups) ∧
    (∀ opts, parseRecordOptions argv {} = .ok opts →
      ∃ groups, ReadsAs (argv.drop 2) groups opts.mArguments ∧ Describes groups opts) ∧
    ∀ otherArgv groups others arguments otherArguments opts other,
      (∀ token ∈ otherArgv, token ≠ []) → ReadsAs (argv.drop 2) groups arguments →
      ReadsAs (otherArgv.drop 2) others otherArguments →
      (∀ group, group ∈ groups ↔ group ∈ others) → parseRecordOptions argv {} = .ok opts →
      parseRecordOptions otherArgv {} = .ok other →
      opts.mInput = other.mInput ∧ opts.mOutput = other.mOutput ∧
        opts.mRecordOverrideTrace = other.mRecordOverrideTrace ∧ opts.mNoFork = other.mNoFork ∧
        opts.mRecordSkipMemObjs = other.mRecordSkipMemObjs := by
  refine ⟨?_, fun opts parsed => describes_of_parsed nonempty parsed, ?_⟩
  · have proper {groups : List Group} {arguments : List Bytes}
        (reads : ReadsAs (argv.drop 2) groups arguments) : ∀ group ∈ groups, group.Proper :=
      reads.proper fun token member => nonempty token (List.mem_of_mem_drop member)
    constructor
    · rintro ⟨opts, parsed⟩
      obtain ⟨groups, arguments, final, reads, filled, input, output, -⟩ :=
        (parseRecord_ok_iff argv opts).mp parsed
      exact ⟨groups, arguments, reads,
        (accepted_iff_fill (proper reads)).mpr ⟨final, filled, input, output⟩⟩
    · rintro ⟨groups, arguments, reads, accepted⟩
      obtain ⟨final, filled, input, output⟩ := (accepted_iff_fill (proper reads)).mp accepted
      exact ⟨_, (parseRecord_ok_iff argv _).mpr
        ⟨groups, arguments, final, reads, filled, input, output, rfl⟩⟩
  · intro otherArgv groups others arguments otherArguments opts other otherNonempty reads otherReads
      same parsed otherParsed
    obtain ⟨_, readsHere, described⟩ := describes_of_parsed nonempty parsed
    obtain ⟨_, readsThere, otherDescribed⟩ := describes_of_parsed otherNonempty otherParsed
    obtain ⟨rfl, -⟩ := reads.unique readsHere
    obtain ⟨rfl, -⟩ := otherReads.unique readsThere
    exact described.unique otherDescribed same

/-- `record -o -- --no-fork ./app -- -o`. -/
theorem record_options_iff_separator :
    ∃ opts, parseRecordOptions [str "dpcpp_trace", str "record", str "-o", str "--",
        str "--no-fork", str "./app", str "--", str "-o"] {} = .ok opts := by
  refine (record_options_iff _ ?_).1.mpr
    ⟨[.output (str "--"), .noFork, .positional (str "./app")], [str "-o"], ?_, ?_⟩
  · simp [str]
  · exact .output (.inl rfl) (.flag rfl (.positional (by decide) (.separator _)))
  · constructor <;> decide

end DpcppTrace.Soundness
