import DpcppTrace.Model.Tracer

/-! # The calls that the tracer sees

The filter reaches every task, the attachment only the first. A watched call of any other task fails,
and so does one of the first task once the tool has ended.
-/

namespace DpcppTrace.Soundness

open Foundation Model NativeTracer

/-! ## The filter -/

def Watched (number : ℕ) : Prop :=
  number = NR_stat ∨ number = NR_newfstatat ∨ number = NR_openat

private theorem filter_answer (number : ℕ) :
    (Watched number → NativeTracer.filter.answer number = some .trace) ∧
      (¬Watched number → NativeTracer.filter.answer number = some .allow) := by
  rw [Filter.answer, NativeTracer.filter, Filter.run, Filter.run_test, Filter.run_test,
    Filter.run_test]
  split_ifs with newfstatat openat stat
  · exact ⟨fun _ => rfl, fun other => absurd (.inr (.inl newfstatat)) other⟩
  · exact ⟨fun _ => rfl, fun other => absurd (.inr (.inr openat)) other⟩
  · exact ⟨fun _ => rfl, fun other => absurd (.inl stat) other⟩
  · refine ⟨fun watched => ?_, fun _ => rfl⟩
    rcases watched with same | same | same
    · exact absurd same stat
    · exact absurd same newfstatat
    · exact absurd same openat

/-! ## The attributes of the tasks -/

/-- A task that is not traced. -/
def untraced : Task := ⟨some NativeTracer.filter, none⟩

/-- Every task has the filter, and the first is traced as long as there is the tool. -/
def Attached (state : State) : Prop :=
  ∃ others, state.tasks = ⟨some NativeTracer.filter,
    if state.worker = .ended then none else some { traceSeccomp := true }⟩ ::
      List.replicate others untraced

private theorem attached_forked : Attached forked := ⟨0, rfl⟩

private theorem dispose_unwatched {task : Task} (filtered : task.filter = some NativeTracer.filter)
    {number : ℕ} (other : ¬Watched number) : task.dispose number = .executes := by
  rw [Task.dispose, filtered, Option.bind_some, (filter_answer number).2 other]

private theorem dispose_untraced {task : Task} (filtered : task.filter = some NativeTracer.filter)
    (untraced : task.tracer = none) {number : ℕ} (watched : Watched number) :
    task.dispose number = .fails := by
  rw [Task.dispose, filtered, Option.bind_some, (filter_answer number).1 watched, untraced]
  rfl

private theorem dispose_traced {task : Task} (filtered : task.filter = some NativeTracer.filter)
    (traced : task.tracer = some { traceSeccomp := true }) {number : ℕ} (watched : Watched number) :
    task.dispose number = .stops := by
  rw [Task.dispose, filtered, Option.bind_some, (filter_answer number).1 watched, traced]
  rfl

/-! ## What becomes of a call -/

/-- The handler that is registered for a call. -/
def handlerOf (number : ℕ) : NativeTracer.Handler :=
  if number = NR_openat then .openFile else .stat

/-- The call was given to its handler, and went on after that. -/
def HandledAs (call : Call) (outcome : Outcome) : Prop :=
  ∃ filename, call.filename = some filename ∧ outcome = .delivered (handlerOf call.number) filename

/-- Every watched call was given to its handler. -/
def AllHandled (state : State) : Prop :=
  ∀ entry ∈ state.log, Watched entry.1.number → HandledAs entry.1 entry.2

/-- The first task makes the call while the worker is in its loop, and the name can be read. -/
def Seen (state : State) (call : Call) : Prop :=
  call.task = 0 ∧ state.worker = .running ∧ call.filename ≠ none

private theorem atSeccompStop_watched {number : ℕ} (watched : Watched number) (filename : Option Bytes) :
    atSeccompStop number filename = callHandler (handlerOf number) filename := by
  rcases watched with rfl | rfl | rfl <;> rfl

private theorem callHandler_worker (handler : NativeTracer.Handler) (filename : Option Bytes) :
    (callHandler handler filename).2 ≠ .ended := by
  rcases filename with _ | filename <;> exact nofun

private theorem delivered_callHandler (call : Call) :
    HandledAs call (callHandler (handlerOf call.number) call.filename).1 ↔ call.filename ≠ none := by
  rcases named : call.filename with _ | filename
  · constructor
    · rintro ⟨filename, absent, -⟩
      exact absurd (named.symm.trans absent) nofun
    · exact fun absent => absurd rfl absent
  · exact iff_of_true ⟨filename, named, rfl⟩ nofun

section Step

variable {state next : State} {call : Call}

theorem Attached.of_same (attached : Attached state) (tasks : next.tasks = state.tasks)
    (worker : next.worker = .ended ↔ state.worker = .ended) : Attached next := by
  obtain ⟨others, listed⟩ := attached
  refine ⟨others, ?_⟩
  simp only [tasks, listed, worker]

/-- The task that makes a call. -/
theorem Attached.task (attached : Attached state) {task : Task} {number : ℕ}
    (found : state.tasks[number]? = some task) :
    task.filter = some NativeTracer.filter ∧
      (number = 0 ∧ state.worker ≠ .ended → task.tracer = some { traceSeccomp := true }) ∧
      (¬(number = 0 ∧ state.worker ≠ .ended) → task.tracer = none) := by
  obtain ⟨others, listed⟩ := attached
  rw [listed] at found
  rcases number with _ | number
  · obtain rfl := Option.some.inj found
    refine ⟨rfl, fun here => ?_, fun gone => ?_⟩
    · exact if_neg here.2
    · exact if_pos (not_not.mp fun present => gone ⟨rfl, present⟩)
  · rw [List.getElem?_cons_succ] at found
    have same := List.eq_of_mem_replicate (List.mem_of_getElem? found)
    subst same
    exact ⟨rfl, nofun, fun _ => rfl⟩

/-- What a state is after one call with this outcome. -/
structure AfterCall (state : State) (call : Call) (next : State) (outcome : Outcome) : Prop where
  log : next.log = state.log ++ [(call, outcome)]
  tasks : next.tasks = state.tasks
  worker : next.worker = .ended ↔ state.worker = .ended
  delivered : Watched call.number → (HandledAs call outcome ↔ Seen state call)

private theorem called_spec (attached : Attached state) {task : Task}
    (found : state.tasks[call.task]? = some task) (runs : state.Runs call.task) :
    ∃ outcome, AfterCall state call (state.called task call) outcome := by
  obtain ⟨filtered, traced, untraced⟩ := attached.task found
  rcases Classical.em (Watched call.number) with watched | other
  swap
  · rw [State.called, dispose_unwatched filtered other]
    exact ⟨.executed, rfl, rfl, Iff.rfl, fun watched => absurd watched other⟩
  rcases Classical.em (call.task = 0 ∧ state.worker ≠ .ended) with ⟨first, present⟩ | unseen
  · have running : state.worker = .running := (runs.2 first).resolve_right present
    rw [State.called, dispose_traced filtered (traced ⟨first, present⟩) watched]
    simp only [first, running, and_self, if_true, atSeccompStop_watched watched]
    refine ⟨(callHandler (handlerOf call.number) call.filename).1, rfl, rfl, ?_, fun _ => ?_⟩
    · exact iff_of_false (callHandler_worker _ _) (by rw [running]; exact nofun)
    · rw [delivered_callHandler]
      exact ⟨fun named => ⟨first, running, named⟩, fun seen => seen.2.2⟩
  · rw [State.called, dispose_untraced filtered (untraced unseen) watched]
    refine ⟨.failed, rfl, rfl, Iff.rfl, fun _ => iff_of_false ?_ ?_⟩
    · rintro ⟨_, -, delivered⟩
      cases delivered
    · rintro ⟨first, running, -⟩
      exact unseen ⟨first, by rw [running]; exact nofun⟩

/-- The options let no new task be attached. -/
theorem child_untraced {task : Task} (filtered : task.filter = some NativeTracer.filter)
    (options : task.tracer = none ∨ task.tracer = some { traceSeccomp := true }) (how : Creation) :
    task.child how = untraced := by
  rw [Task.child, filtered]
  rcases options with none | seccomp
  · rw [none]
    rfl
  · rw [seccomp]
    cases how <;> rfl

/-- The events that are no calls. -/
theorem step_uncalled (attached : Attached state) {event : Event}
    (other : ∀ call, event ≠ .call call) (stepped : state.step event = some next) :
    Attached next ∧ next.log = state.log := by
  cases event with
  | call call => exact absurd rfl (other call)
  | create parent how =>
    rw [State.step] at stepped
    split at stepped
    swap
    · cases stepped
    obtain ⟨task, found, rfl⟩ := Option.map_eq_some_iff.mp stepped
    obtain ⟨filtered, traced, untraced⟩ := attached.task found
    have child := child_untraced filtered
      ((Classical.em _).symm.imp untraced traced) how
    obtain ⟨others, listed⟩ := attached
    refine ⟨⟨others + 1, ?_⟩, rfl⟩
    simp only [child, listed, List.replicate_succ', List.cons_append]
  | signal signal =>
    rw [State.step] at stepped
    split at stepped
    case h_1 running =>
      split at stepped <;> cases stepped
      · exact ⟨attached, rfl⟩
      · exact ⟨attached.of_same rfl (by simp [running]), rfl⟩
    case h_2 =>
      cases stepped
      exact ⟨attached, rfl⟩
    case h_3 => cases stepped
  | toolEnds =>
    rw [State.step] at stepped
    split at stepped <;> cases stepped
    obtain ⟨others, listed⟩ := attached
    refine ⟨⟨others, ?_⟩, rfl⟩
    simp [listed, untraced]

/-! ## Every run -/

/-- A watched call that is made at all is seen. -/
def CallsSeen (state : State) (event : Event) : Prop :=
  ∀ call, event = .call call → Watched call.number → state.Runs call.task → Seen state call

private theorem step_call (runs : state.Runs call.task) :
    ∃ task, state.tasks[call.task]? = some task ∧
      state.step (.call call) = some (state.called task call) := by
  have found := List.getElem?_eq_getElem runs.1
  exact ⟨_, found, by rw [State.step, if_pos runs, found]; rfl⟩

theorem AfterCall.allHandled {outcome : Outcome} (after : AfterCall state call next outcome)
    (before : AllHandled state) :
    AllHandled next ↔ (Watched call.number → Seen state call) := by
  rw [AllHandled, after.log]
  constructor
  · intro all watched
    exact (after.delivered watched).mp (all (call, outcome) (by simp) watched)
  · intro seen entry member watched
    rcases List.mem_append.mp member with earlier | last
    · exact before entry earlier watched
    · obtain rfl := List.mem_singleton.mp last
      exact (after.delivered watched).mpr (seen watched)

private theorem runs_of_step (stepped : state.step (.call call) = some next) : state.Runs call.task := by
  rw [State.step] at stepped
  split at stepped
  case isTrue runs => exact runs
  case isFalse => cases stepped

private theorem attached_step {event : Event} (attached : Attached state)
    (stepped : state.step event = some next) : Attached next := by
  rcases Classical.em (∃ call, event = .call call) with ⟨call, rfl⟩ | other
  · have runs := runs_of_step stepped
    obtain ⟨task, found, made⟩ := step_call runs
    obtain ⟨outcome, after⟩ := called_spec attached found runs
    obtain rfl := Option.some.inj (made.symm.trans stepped)
    exact attached.of_same after.tasks after.worker
  · exact (step_uncalled attached (fun call same => other ⟨call, same⟩) stepped).1

private theorem keeps_delivered {event : Event} (attached : Attached state) (before : AllHandled state)
    (seen : CallsSeen state event) (stepped : state.step event = some next) :
    AllHandled next := by
  rcases Classical.em (∃ call, event = .call call) with ⟨call, rfl⟩ | other
  · have runs := runs_of_step stepped
    obtain ⟨task, found, made⟩ := step_call runs
    obtain ⟨outcome, after⟩ := called_spec attached found runs
    obtain rfl := Option.some.inj (made.symm.trans stepped)
    exact (after.allHandled before).mpr fun watched => seen call rfl watched runs
  · obtain ⟨-, log⟩ := step_uncalled attached (fun call same => other ⟨call, same⟩) stepped
    rw [AllHandled, log]
    exact before

private theorem breaks_delivered {event : Event} (attached : Attached state) (before : AllHandled state)
    (unseen : ¬CallsSeen state event) :
    ∃ next, state.step event = some next ∧ ¬AllHandled next := by
  simp only [CallsSeen, not_forall] at unseen
  obtain ⟨call, rfl, watched, runs, unseen⟩ := unseen
  obtain ⟨task, found, made⟩ := step_call runs
  obtain ⟨outcome, after⟩ := called_spec attached found runs
  refine ⟨_, made, fun still => unseen ?_⟩
  exact (after.allHandled before).mp still watched

end Step

/-- Every watched call is given to its handler before it executes exactly if all of them are calls
of the first task that the worker sees. -/
theorem calls_delivered_iff (events : List Event) :
    (∀ sent final, sent <+: events → machine.run forked sent = some final → AllHandled final) ↔
      machine.Meets CallsSeen forked events := by
  have attached sent final (ran : machine.run forked sent = some final) : Attached final :=
    Machine.invariant (fun _ _ _ => attached_step) ran attached_forked
  have whole : (∀ sent final, sent <+: events → machine.run forked sent = some final →
      Attached final ∧ AllHandled final) ↔ machine.Meets CallsSeen forked events := by
    apply Machine.invariant_iff_meets _ _ ⟨attached_forked, nofun⟩
    · intro here event next holds seen stepped
      exact ⟨attached_step holds.1 stepped, keeps_delivered holds.1 holds.2 seen stepped⟩
    · intro here event holds unseen
      obtain ⟨next, stepped, broken⟩ := breaks_delivered holds.1 holds.2 unseen
      exact ⟨next, stepped, fun still => broken still.2⟩
  rw [← whole]
  constructor
  · intro delivered sent final front ran
    exact ⟨attached sent final ran, delivered sent final front ran⟩
  · intro holds sent final front ran
    exact (holds sent final front ran).2

/-- The second thread opens a file. -/
def openInThread : Call := ⟨1, NR_openat, some (str "/etc/hosts")⟩

/-- A thread of a traced program cannot open a file. -/
theorem not_calls_delivered :
    ¬∀ events sent final, sent <+: events → machine.run forked sent = some final →
      AllHandled final := by
  intro always
  have ran : machine.run forked [.create 0 .clone, .call openInThread] =
      some ⟨forked.tasks ++ [untraced], .running, [(openInThread, .failed)]⟩ := by
    decide
  obtain ⟨_, -, delivered⟩ := always _ _ _ List.prefix_rfl ran (openInThread, .failed) (by simp)
    (.inr (.inr rfl))
  cases delivered

end DpcppTrace.Soundness
