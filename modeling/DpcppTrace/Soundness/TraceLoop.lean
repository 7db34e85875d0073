import DpcppTrace.Model.TraceLoop
import DpcppTrace.Soundness.FileNames

/-! # What the worker makes of the changes of its tracee

The decoder of a packed status finds every end of the loop and every stop of the filter. Up to the
first end the worker answers the changes one by one; it calls the handler of each stop whose path it
can read, and continues the tracee without a signal each time, whichever signal it was about to get.
A tracee that is killed in a stop is not waited for again: what cannot be continued ends the worker
with an exception.
-/

namespace DpcppTrace.Soundness

open Foundation Model Model.NativeTracer MappedMemory

/-! ## The meaning of changes -/

/-- The signals whose stops end the loop. -/
def fatalSignals : List ℕ := [SIGTERM, SIGSEGV, SIGINT, SIGILL, SIGABRT, SIGFPE]

/-- The code of a change that ends the loop: an exit, a death, or a stop by a fatal signal. -/
def ending : Change → Option ℕ
  | .exited code => some code.toNat
  | .killed signal _ => some signal.number
  | .signalStop signal => if signal.number ∈ fatalSignals then some signal.number else none
  | .groupStop signal => if signal.number ∈ fatalSignals then some signal.number else none
  | .seccompStop => none

/-- The handler for the call at a stop of the filter, and where the call has its path. -/
def requested (report : Report) : Option (NativeTracer.Handler × UInt64) :=
  if report.change = .seccompStop then
    let call := (report.tracee.user (longSize * ORIG_RAX)).toNat
    if call = NR_stat then some (.stat, report.tracee.user (longSize * RDI))
    else if call = NR_newfstatat then some (.stat, report.tracee.user (longSize * RSI))
    else if call = NR_openat then some (.openFile, report.tracee.user (longSize * RSI))
    else none
  else none

/-- The tracee is about to get a signal that is neither of the tracer's own. -/
def Delivers (report : Report) (signal : ℕ) : Prop :=
  signal ≠ SIGTRAP ∧ signal ≠ SIGSTOP ∧
    ∃ number, report.change = .signalStop number ∧ number.number = signal

/-- The changes before the first one that ends the loop. -/
def beforeEnd (reports : List Report) : List Report :=
  reports.takeWhile fun report => (ending report.change).isNone

/-- The calls of handlers in a log. -/
def calls (log : List Action) : List (NativeTracer.Handler × Bytes) :=
  log.filterMap fun
    | .call handler filename => some (handler, filename)
    | .cont _ => none

/-- The signals that the tracee was continued with. -/
def resumes (log : List Action) : List ℕ :=
  log.filterMap fun
    | .cont signal => some signal
    | .call _ _ => none

/-- The handler of the call was called with the path that the call was given. -/
def CalledFor (report : Report) (call : NativeTracer.Handler × Bytes) : Prop :=
  ∃ addr, requested report = some (call.1, addr) ∧ HoldsString report.tracee.memory addr call.2

/-- The worker follows the tracee: its loop ends at the first change that ends it, with the code of
that; one handler is called for each call with one before the end; and behind each change before
the end the tracee is continued, with the signal that it was about to get. -/
structure FollowsTracee (reports : List Report) (run : TraceRun) : Prop where
  place : run.place = (reports.findSome? fun report => ending report.change).elim .waiting .returned
  called : List.Forall₂ CalledFor
    ((beforeEnd reports).filter fun report => (requested report).isSome) (calls run.log)
  resumed : List.Forall₂ (fun report resumed => ∀ signal, Delivers report signal → resumed = signal)
    (beforeEnd reports) (resumes run.log).tail

/-- The tracer does no harm at this change: the tracee is not killed in the stop, it is not about to
get a signal of its own, and the path of a call with a handler lies in memory up to the end of its last
word. -/
structure Harmless (report : Report) : Prop where
  kept : report.killed = none
  undelivered : ∀ signal, ¬Delivers report signal
  readable : ∀ handler addr, requested report = some (handler, addr) →
    ∃ text, HoldsString report.tracee.memory addr text ∧
      Mapped report.tracee.memory (addr + UInt64.ofNat (8 * (text.length / 8))) 8

/-! ## Decoding -/

private theorem forall_signal {property : ℕ → Prop} (all : ∀ n < 65, 0 < n → property n) (signal : Signal) :
    property signal.number := by
  have bounded := signal.bounded
  exact all signal.number (by omega) signal.positive

private theorem wait_code (status : ℕ) : (wait status).status = status := by
  rw [wait]
  split_ifs <;> rfl

/-- A change that ends the loop is decoded to its code. -/
theorem wait_ending {change : Change} {code : ℕ} (ends : ending change = some code) :
    (wait change.status).type ≠ .success ∧ (wait change.status).type ≠ .fail ∧
      (wait change.status).code = code := by
  have stopped : ∀ n < 65, 0 < n → n ∈ fatalSignals → (wait (n <<< 8 ||| 0x7f)).type ≠ .success ∧
      (wait (n <<< 8 ||| 0x7f)).type ≠ .fail ∧ (wait (n <<< 8 ||| 0x7f)).code = n := by
    decide
  cases change with
  | exited exit =>
    obtain rfl := Option.some.inj ends
    have all : ∀ n < 256, wait (n <<< 8) = ⟨.exited, n, n <<< 8⟩ := by decide +kernel
    rw [Change.status, all exit.toNat exit.toNat_lt]
    exact ⟨nofun, nofun, rfl⟩
  | killed signal core =>
    obtain rfl := Option.some.inj ends
    have all : ∀ n < 65, 0 < n → ∀ core : Bool, wait (n ||| (if core then 0x80 else 0)) =
        ⟨.signal, n, n ||| (if core then 0x80 else 0)⟩ := by
      decide +kernel
    rw [Change.status, forall_signal all signal core]
    exact ⟨nofun, nofun, rfl⟩
  | signalStop signal =>
    rw [ending] at ends
    split at ends
    · rename_i fatal
      obtain rfl := Option.some.inj ends
      exact forall_signal stopped signal fatal
    · cases ends
  | groupStop signal =>
    rw [ending] at ends
    split at ends
    · rename_i fatal
      obtain rfl := Option.some.inj ends
      exact forall_signal stopped signal fatal
    · cases ends
  | seccompStop => cases ends

/-- Any other change lets the loop go on. -/
theorem wait_going {change : Change} (going : ending change = none) :
    (wait change.status).type = .success := by
  have stopped : ∀ n < 65, 0 < n → n ∉ fatalSignals → (wait (n <<< 8 ||| 0x7f)).type = .success := by
    decide
  cases change with
  | exited exit => cases going
  | killed signal core => cases going
  | signalStop signal =>
    rw [ending] at going
    split at going
    · cases going
    · exact forall_signal stopped signal ‹_›
  | groupStop signal =>
    rw [ending] at going
    split at going
    · cases going
    · exact forall_signal stopped signal ‹_›
  | seccompStop => decide

theorem isSeccomp_iff (change : Change) :
    (wait change.status).isSeccomp = true ↔ change = .seccompStop := by
  rw [WaitResult.isSeccomp, wait_code, decide_eq_true_eq]
  have mark : SIGTRAP ||| PTRACE_EVENT_SECCOMP <<< 8 = 0x705 := by decide
  have stopped : ∀ n < 65, 0 < n → (n <<< 8 ||| 0x7f) >>> 8 ≠ 0x705 := by decide
  rw [mark]
  cases change with
  | exited exit =>
    have bound := exit.toNat_lt
    simp only [Change.status, Nat.shiftLeft_shiftRight, reduceCtorEq, iff_false]
    omega
  | killed signal core =>
    have all : ∀ n < 65, 0 < n → ∀ core : Bool,
        (n ||| (if core then 0x80 else 0)) >>> 8 ≠ 0x705 := by
      decide
    simpa [Change.status] using forall_signal all signal core
  | signalStop signal => simpa [Change.status] using forall_signal stopped signal
  | groupStop signal => simpa [Change.status] using forall_signal stopped signal
  | seccompStop => decide

/-! ## The passes of the loop -/

section Passes

variable {report : Report} {rest : List Report} {run : TraceRun} {words : ℕ}

theorem traceLoop_ending {code : ℕ} (ends : ending report.change = some code) :
    traceLoop words (report :: rest) = ⟨[.cont 0], .returned code⟩ := by
  obtain ⟨ended, waited, same⟩ := wait_ending ends
  rw [traceLoop, if_pos ended, if_neg waited, same]

/-- The worker calls the handler that is asked for, if any. -/
theorem atCall_eq (stopped : report.change = .seccompStop) :
    atCall words report.tracee = (requested report).elim (some []) fun request =>
      callWith request.1 words report.tracee.memory request.2 := by
  rw [requested, if_pos stopped, atCall]
  dsimp only
  split_ifs <;> rfl

/-- A call with no handler, or no call, is passed over. -/
theorem traceLoop_unrequested (going : ending report.change = none) (kept : report.killed = none)
    (unasked : requested report = none) :
    traceLoop words (report :: rest) = (traceLoop words rest).behind [.cont 0] := by
  have success := wait_going going
  rw [traceLoop, if_neg (not_not.mpr success), kept]
  split
  · rfl
  · rename_i seccomp
    have stopped := (isSeccomp_iff report.change).mp (by simpa using seccomp)
    rw [atCall_eq stopped, unasked]
    rfl

/-- For a call with a handler its path is read first. -/
theorem traceLoop_requested {handler : NativeTracer.Handler} {addr : UInt64}
    (kept : report.killed = none) (asked : requested report = some (handler, addr)) :
    traceLoop words (report :: rest) =
      (readString report.tracee.memory addr words).elim ⟨[.cont 0], .reading⟩ fun text =>
        (traceLoop words rest).behind [.cont 0, .call handler text] := by
  have stopped : report.change = .seccompStop := by
    by_contra other
    rw [requested, if_neg other] at asked
    cases asked
  have going : ending report.change = none := by
    rw [stopped]
    rfl
  rw [traceLoop, if_neg (not_not.mpr (wait_going going)), (isSeccomp_iff report.change).mpr stopped,
    if_neg (by decide), kept]
  dsimp only
  rw [atCall_eq stopped, asked, Option.elim_some, callWith]
  cases readString report.tracee.memory addr words with
  | none => rfl
  | some text => rfl

/-- A tracee that is killed in a stop of the filter is left reading or with an exception. -/
theorem killedStop_place (words : ℕ) (tracee : Tracee) (requests : ℕ) :
    (∃ actions, (killedStop words tracee requests).log = .cont 0 :: actions) ∧
      ((killedStop words tracee requests).place = .reading ∨
        (killedStop words tracee requests).place = .threw) := by
  match requests with
  | 0 => exact ⟨⟨[], rfl⟩, .inr rfl⟩
  | 1 => exact ⟨⟨[], rfl⟩, .inr rfl⟩
  | read + 2 =>
    rw [killedStop]
    cases atCall (min words read) tracee with
    | none => exact ⟨⟨[], rfl⟩, .inl rfl⟩
    | some actions => exact ⟨⟨actions, rfl⟩, .inr rfl⟩

/-- So is one that is killed in any stop that the loop would go on from. -/
theorem traceLoop_killed (words : ℕ) (rest : List Report) (going : ending report.change = none)
    (killed : report.killed ≠ none) :
    (∃ actions, (traceLoop words (report :: rest)).log = .cont 0 :: actions) ∧
      ((traceLoop words (report :: rest)).place = .reading ∨
        (traceLoop words (report :: rest)).place = .threw) := by
  obtain ⟨requests, found⟩ := Option.ne_none_iff_exists'.mp killed
  rw [traceLoop, if_neg (not_not.mpr (wait_going going)), found]
  split
  · exact ⟨⟨[], rfl⟩, .inr rfl⟩
  · exact killedStop_place words report.tracee requests

/-- A run starts with a resume. -/
theorem resumes_traceLoop (words : ℕ) (reports : List Report) :
    ∃ others, resumes (traceLoop words reports).log = 0 :: others := by
  cases reports with
  | nil => exact ⟨[], rfl⟩
  | cons report rest =>
    have behind (actions : List Action) (run : TraceRun) :
        resumes (run.behind (.cont 0 :: actions)).log = 0 :: resumes (actions ++ run.log) := rfl
    cases ends : ending report.change with
    | some code => exact ⟨[], by rw [traceLoop_ending ends]; rfl⟩
    | none =>
      by_cases killed : report.killed ≠ none
      · obtain ⟨⟨actions, starts⟩, -⟩ := traceLoop_killed words rest ends killed
        exact ⟨_, by rw [starts]; rfl⟩
      have kept := not_not.mp killed
      cases asked : requested report with
      | none =>
        rw [traceLoop_unrequested ends kept asked, behind]
        exact ⟨_, rfl⟩
      | some request =>
        rw [traceLoop_requested kept asked]
        cases readString report.tracee.memory request.2 words with
        | none => exact ⟨[], rfl⟩
        | some text =>
          rw [Option.elim_some, behind]
          exact ⟨_, rfl⟩

/-! ## What one change adds to what is followed -/

theorem beforeEnd_going (going : ending report.change = none) :
    beforeEnd (report :: rest) = report :: beforeEnd rest := by
  rw [beforeEnd, List.takeWhile_cons, going]
  rfl

private theorem place_going (going : ending report.change = none) :
    ((report :: rest).findSome? fun report => ending report.change) =
      rest.findSome? fun report => ending report.change := by
  rw [List.findSome?_cons, going]

/-- A worker that follows its tracee waits or has returned. -/
theorem FollowsTracee.settled (follows : FollowsTracee (report :: rest) run) :
    ¬(run.place = .reading ∨ run.place = .threw) := by
  rw [follows.place]
  cases (report :: rest).findSome? fun report => ending report.change with
  | none => exact not_or.mpr ⟨nofun, nofun⟩
  | some code => exact not_or.mpr ⟨nofun, nofun⟩

/-- The loop ends where the tracee does. -/
theorem follows_ending {code : ℕ} (ends : ending report.change = some code) :
    FollowsTracee (report :: rest) ⟨[.cont 0], .returned code⟩ ∧
      beforeEnd (report :: rest) = [] := by
  have none : beforeEnd (report :: rest) = [] := by
    rw [beforeEnd, List.takeWhile_cons, ends]
    rfl
  refine ⟨⟨?_, ?_, ?_⟩, none⟩
  · rw [List.findSome?_cons, ends]
    rfl
  · rw [none]
    exact .nil
  · rw [none]
    exact .nil

private theorem follows_unrequested (going : ending report.change = none)
    (unasked : requested report = none) {others : List ℕ} (starts : resumes run.log = 0 :: others) :
    FollowsTracee (report :: rest) (run.behind [.cont 0]) ↔
      (∀ signal, Delivers report signal → 0 = signal) ∧ FollowsTracee rest run := by
  have log : resumes (run.behind [.cont 0]).log = 0 :: 0 :: others := congrArg (0 :: ·) starts
  have tail : (resumes run.log).tail = others := by rw [starts, List.tail_cons]
  have same : calls (run.behind [.cont 0]).log = calls run.log := rfl
  have skipped : (beforeEnd (report :: rest)).filter (fun report => (requested report).isSome) =
      (beforeEnd rest).filter fun report => (requested report).isSome := by
    rw [beforeEnd_going going, List.filter_cons_of_neg (by simp [unasked])]
  constructor
  · rintro ⟨place, called, resumed⟩
    rw [place_going going] at place
    rw [skipped, same] at called
    rw [beforeEnd_going going, log, List.tail_cons, List.forall₂_cons] at resumed
    exact ⟨resumed.1, place, called, tail ▸ resumed.2⟩
  · rintro ⟨delivered, place, called, resumed⟩
    refine ⟨?_, ?_, ?_⟩
    · rw [place_going going]
      exact place
    · rw [skipped, same]
      exact called
    · rw [beforeEnd_going going, log, List.tail_cons, List.forall₂_cons]
      exact ⟨delivered, tail ▸ resumed⟩

private theorem follows_requested {handler : NativeTracer.Handler} {addr : UInt64} {text : Bytes}
    (going : ending report.change = none) (asked : requested report = some (handler, addr))
    {others : List ℕ} (starts : resumes run.log = 0 :: others) :
    FollowsTracee (report :: rest) (run.behind [.cont 0, .call handler text]) ↔
      (∀ signal, Delivers report signal → 0 = signal) ∧
        HoldsString report.tracee.memory addr text ∧ FollowsTracee rest run := by
  have log : resumes (run.behind [.cont 0, .call handler text]).log = 0 :: 0 :: others :=
    congrArg (0 :: ·) starts
  have tail : (resumes run.log).tail = others := by rw [starts, List.tail_cons]
  have more : calls (run.behind [.cont 0, .call handler text]).log =
      (handler, text) :: calls run.log := rfl
  have taken : (beforeEnd (report :: rest)).filter (fun report => (requested report).isSome) =
      report :: (beforeEnd rest).filter fun report => (requested report).isSome := by
    rw [beforeEnd_going going, List.filter_cons_of_pos (by simp [asked])]
  have path : CalledFor report (handler, text) ↔ HoldsString report.tracee.memory addr text := by
    constructor
    · rintro ⟨other, asks, holds⟩
      obtain ⟨-, rfl⟩ := Prod.mk.inj (Option.some.inj (asked.symm.trans asks))
      exact holds
    · exact fun holds => ⟨addr, asked, holds⟩
  constructor
  · rintro ⟨place, called, resumed⟩
    rw [place_going going] at place
    rw [taken, more, List.forall₂_cons, path] at called
    rw [beforeEnd_going going, log, List.tail_cons, List.forall₂_cons] at resumed
    exact ⟨resumed.1, called.1, place, called.2, tail ▸ resumed.2⟩
  · rintro ⟨delivered, holds, place, called, resumed⟩
    refine ⟨?_, ?_, ?_⟩
    · rw [place_going going]
      exact place
    · rw [taken, more, List.forall₂_cons, path]
      exact ⟨holds, called⟩
    · rw [beforeEnd_going going, log, List.tail_cons, List.forall₂_cons]
      exact ⟨delivered, tail ▸ resumed⟩

end Passes

/-- Continuing without a signal is right only where none is to be delivered. -/
theorem resumed_zero_iff (report : Report) :
    (∀ signal, Delivers report signal → 0 = signal) ↔ ∀ signal, ¬Delivers report signal := by
  constructor
  · intro zero signal delivers
    have same := zero signal delivers
    obtain ⟨-, -, number, -, rfl⟩ := delivers
    have positive := number.positive
    omega
  · exact fun undelivered signal delivers => absurd delivers (undelivered signal)

/-- Where every change before the end is harmless, the worker follows the tracee. -/
theorem follows_of_harmless (reports : List Report)
    (harmless : ∀ report ∈ beforeEnd reports, Harmless report) :
    ∃ enough, ∀ words, enough ≤ words → FollowsTracee reports (traceLoop words reports) := by
  induction reports with
  | nil => exact ⟨0, fun words _ => ⟨rfl, .nil, .nil⟩⟩
  | cons report rest ih =>
    cases ends : ending report.change with
    | some code =>
      refine ⟨0, fun words _ => ?_⟩
      rw [traceLoop_ending ends]
      exact (follows_ending ends).1
    | none =>
      rw [beforeEnd_going ends, List.forall_mem_cons] at harmless
      obtain ⟨here, later⟩ := harmless
      obtain ⟨enough, follows⟩ := ih later
      have zero := (resumed_zero_iff report).mpr here.undelivered
      cases asked : requested report with
      | none =>
        refine ⟨enough, fun words more => ?_⟩
        obtain ⟨others, starts⟩ := resumes_traceLoop words rest
        rw [traceLoop_unrequested ends here.kept asked, follows_unrequested ends asked starts]
        exact ⟨zero, follows words more⟩
      | some request =>
        obtain ⟨text, holds, mapped⟩ := here.readable request.1 request.2 asked
        obtain ⟨needed, reads⟩ := (readString_iff holds).mpr mapped
        refine ⟨max enough needed, fun words more => ?_⟩
        obtain ⟨others, starts⟩ := resumes_traceLoop words rest
        rw [traceLoop_requested here.kept asked, readString_mono reads (by omega), Option.elim_some,
          follows_requested ends asked starts]
        exact ⟨zero, holds, follows words (by omega)⟩

/-- And only there. -/
theorem harmless_of_follows {words : ℕ} (reports : List Report)
    (follows : FollowsTracee reports (traceLoop words reports)) :
    ∀ report ∈ beforeEnd reports, Harmless report := by
  induction reports with
  | nil => exact fun report mem => absurd mem List.not_mem_nil
  | cons report rest ih =>
    cases ends : ending report.change with
    | some code =>
      rw [(follows_ending ends).2]
      exact fun report mem => absurd mem List.not_mem_nil
    | none =>
      obtain ⟨others, starts⟩ := resumes_traceLoop words rest
      rw [beforeEnd_going ends, List.forall_mem_cons]
      have kept : report.killed = none := by
        by_contra killed
        exact follows.settled (traceLoop_killed _ _ ends killed).2
      cases asked : requested report with
      | none =>
        rw [traceLoop_unrequested ends kept asked, follows_unrequested ends asked starts] at follows
        refine ⟨⟨kept, (resumed_zero_iff report).mp follows.1, fun handler addr asks => ?_⟩,
          ih follows.2⟩
        rw [asked] at asks
        cases asks
      | some request =>
        rw [traceLoop_requested kept asked] at follows
        cases reads : readString report.tracee.memory request.2 words with
        | none =>
          rw [reads, Option.elim_none] at follows
          exact absurd (.inl rfl) follows.settled
        | some text =>
          rw [reads, Option.elim_some, follows_requested ends asked starts] at follows
          obtain ⟨zero, holds, later⟩ := follows
          refine ⟨⟨kept, (resumed_zero_iff report).mp zero, fun handler addr asks => ?_⟩, ih later⟩
          obtain rfl := Option.some.inj (asked.symm.trans asks)
          exact ⟨text, holds, (readString_iff holds).mp ⟨words, reads⟩⟩

/-- The worker follows the tracee exactly when the tracee is not killed in its first stop and every
change before the end is harmless: none is a stop that the tracee is killed in or the delivery of a
signal, and the path of each call with a handler lies in memory up to the end of its last word. -/
theorem start_follows_iff (alive : Bool) (reports : List Report) :
    (∃ words, FollowsTracee reports (start words alive reports)) ↔
      alive = true ∧ ∀ report ∈ beforeEnd reports, Harmless report := by
  cases alive with
  | false =>
    refine iff_of_false ?_ fun kept => Bool.false_ne_true kept.1
    rintro ⟨words, follows⟩
    have place : Place.threw = _ := follows.place
    cases found : reports.findSome? fun report => ending report.change with
    | none => rw [found] at place; cases place
    | some code => rw [found] at place; cases place
  | true =>
    constructor
    · rintro ⟨words, follows⟩
      exact ⟨rfl, harmless_of_follows reports follows⟩
    · rintro ⟨-, harmless⟩
      obtain ⟨enough, follows⟩ := follows_of_harmless reports harmless
      exact ⟨enough, follows enough le_rfl⟩

/-- A tracee that can be read nowhere. -/
def hiddenTracee : Tracee := ⟨fun _ => none, fun _ => 0⟩

/-- `SIGCHLD`. -/
def childSignal : Signal := ⟨17, Nat.succ_pos 16, Nat.le_add_left 17 47⟩

/-- A child of the tracee ends and the tracee exits. -/
def childReports : List Report :=
  [{ change := .signalStop childSignal, tracee := hiddenTracee },
    { change := .exited 0, tracee := hiddenTracee }]

/-- The signal of the child is swallowed. -/
theorem not_start_follows : ¬∃ words, FollowsTracee childReports (start words true childReports) := by
  rintro ⟨words, follows⟩
  have harmless := harmless_of_follows childReports follows
  apply (harmless ⟨.signalStop childSignal, hiddenTracee, none⟩ List.mem_cons_self).undelivered 17
  exact ⟨by decide, by decide, childSignal, rfl, rfl⟩

end DpcppTrace.Soundness
