import DpcppTrace.Model.Threads

/-! # When the trace file of a thread is determined by its creation path

As long as nobody uses a name before its creator has assigned it, and no assigned name is too long
for the system, every settled thread carries the name of its path. Path names are injective, so the
threads of a run open different files, and two such runs pair the threads of equal paths.
-/

namespace DpcppTrace.Soundness

open Foundation Model Threads

/-- Different threads have different path names. -/
theorem pathName_injective : Function.Injective pathName := by
  apply qualified_injective
  · decide
  · intro index member
    have digit := digit_of_mem_decimal member
    revert digit
    decide
  · exact decimal_injective

private theorem pathName_concat (path : ThreadPath) (index : ℕ) :
    pathName (path ++ [index]) = pathName path ++ str "_" ++ decimal index := by
  rw [pathName, qualified_concat, List.append_assoc]
  rfl

@[simp] theorem setName_point (s : State) (thread : ThreadPath) (newName : Bytes) :
    (s.setName thread newName).point = s.point := by
  unfold State.setName
  split <;> rfl

/-- Settled threads carry their path names, creators are about to assign path names, and the open
files are those of path names. -/
structure Named (s : State) : Prop where
  settled : ∀ thread name, s.name thread = some name → s.settled thread → name = pathName thread
  created : ∀ self thread, s.point self = .created thread → thread = self ++ [s.threadCouner self]
  assigned : ∀ self thread newName, s.point self = .named thread newName →
    newName = pathName thread
  opened : ∀ thread file, s.opened thread = some file → file = pathName thread ++ kPiTraceExt

private theorem named_initial : Named initial where
  settled := by
    intro thread name named _
    by_cases main : thread = []
    · subst main
      exact (Option.some.inj named).symm
    · simp [initial, main] at named
  created := by simp [initial]
  assigned := by simp [initial]
  opened := by simp [initial]

section Steps

variable {s next : State} {self : ThreadPath}

private theorem named_create (named : Named s) (stepped : step s (.create self) = some next) :
    Named next := by
  obtain ⟨settled, created, assigned, opened⟩ := named
  rcases point : s.point self with _ | _ | _ <;> rcases name : s.name self with _ | own
  all_goals simp only [step, point, name, reduceCtorEq, Option.some.injEq] at stepped
  subst stepped
  constructor
  case settled =>
    intro thread given present idle
    by_cases child : thread = self ++ [s.threadCouner self]
    · have busy := (idle self []).1
      simp [State.goto, child] at busy
    · apply settled thread given
      · simpa [State.goto, Function.update_apply, child] using present
      · intro parent newName
        have quiet := idle parent newName
        by_cases same : parent = self
        · simp [same, point]
        · simpa [State.goto, Function.update_apply, same] using quiet
  all_goals
    simp only [State.goto, Function.update_apply]
    grind

/-- The creator has settled, so the name it reads is its path name. -/
private theorem named_readName (named : Named s) (good : orderly s (.readName self))
    (stepped : step s (.readName self) = some next) : Named next := by
  obtain ⟨settled, created, assigned, opened⟩ := named
  rcases point : s.point self with _ | thread | _ <;> rcases name : s.name self with _ | own
  all_goals simp only [step, point, name, reduceCtorEq, Option.some.injEq] at stepped
  subst stepped
  have path : own = pathName self := settled self own name good
  have child : thread = self ++ [s.threadCouner self] := created self thread point
  constructor
  case settled =>
    intro other given present idle
    apply settled other given present
    intro parent newName
    have quiet := idle parent (own ++ str "_" ++ decimal (s.threadCouner self))
    by_cases same : parent = self
    · subst same
      simp only [State.goto, Function.update_self, ne_eq, Point.named.injEq, and_true] at quiet
      simp [point, quiet.2]
    · have other := idle parent newName
      simpa [State.goto, Function.update_apply, same] using other
  all_goals
    simp only [State.goto, Function.update_apply]
    grind [pathName_concat]

/-- The name is not too long, so it is assigned. -/
private theorem named_rename (named : Named s) (good : orderly s (.rename self))
    (stepped : step s (.rename self) = some next) : Named next := by
  obtain ⟨settled, created, assigned, opened⟩ := named
  rcases point : s.point self with _ | _ | ⟨thread, newName⟩
  all_goals simp only [step, point, reduceCtorEq, Option.some.injEq] at stepped
  subst stepped
  have short := good thread newName point
  have path : newName = pathName thread := assigned self thread newName point
  constructor
  case settled =>
    intro other given present idle
    by_cases same : other = thread
    · subst same
      simp only [State.goto, State.setName, if_pos short, Function.update_self,
        Option.some.injEq] at present
      rw [← present, path]
    · apply settled other given
      · simpa [State.goto, State.setName, if_pos short, Function.update_apply, same] using present
      · intro parent assignedName
        have quiet := idle parent assignedName
        by_cases own : parent = self
        · subst own
          simp [point, Ne.symm same]
        · simpa [State.goto, State.setName, if_pos short, Function.update_apply, own] using quiet
  all_goals
    simp only [State.goto, State.setName, if_pos short, Function.update_apply]
    grind

/-- The first call of a settled thread opens the file of its path name. -/
private theorem named_piCall (named : Named s) (good : orderly s (.piCall self))
    (stepped : step s (.piCall self) = some next) : Named next := by
  obtain ⟨settled, created, assigned, opened⟩ := named
  rcases point : s.point self with _ | _ | _ <;> rcases name : s.name self with _ | own
  all_goals simp only [step, point, name, reduceCtorEq] at stepped
  by_cases first : s.opened self = none
  · simp only [first, if_true, Option.some.injEq] at stepped
    subst stepped
    have path : own = pathName self := settled self own name (good first)
    refine ⟨settled, created, assigned, ?_⟩
    grind [Function.update_apply]
  · simp only [first, if_false, Option.some.injEq] at stepped
    subst stepped
    exact ⟨settled, created, assigned, opened⟩

end Steps

private theorem named_step (s : State) (label : Label) (next : State) (named : Named s)
    (good : orderly s label) (stepped : step s label = some next) : Named next := by
  cases label with
  | create self => exact named_create named stepped
  | readName self => exact named_readName named good stepped
  | rename self => exact named_rename named good stepped
  | piCall self => exact named_piCall named good stepped

private theorem named_of_run {schedule : List Label} {s : State}
    (ran : machine.run initial schedule = some s)
    (orderlyRun : machine.Meets orderly initial schedule) : Named s :=
  Machine.invariant_of_meets named_step ran orderlyRun named_initial

/-- In an orderly run each thread opens the file of its creation path, no two threads open the same
file, and any other orderly run opens the same file for the same path. -/
theorem trace_files_of_paths (schedule : List Label) (s : State)
    (ran : machine.run initial schedule = some s)
    (orderlyRun : machine.Meets orderly initial schedule) :
    (∀ thread file, s.opened thread = some file → file = pathName thread ++ kPiTraceExt) ∧
    (∀ first second file, s.opened first = some file → s.opened second = some file →
      first = second) ∧
    ∀ otherSchedule other, machine.run initial otherSchedule = some other →
      machine.Meets orderly initial otherSchedule →
        ∀ thread file otherFile, s.opened thread = some file →
          other.opened thread = some otherFile → file = otherFile := by
  have named := named_of_run ran orderlyRun
  refine ⟨named.opened, ?_, ?_⟩
  · intro first second file opensFirst opensSecond
    have names := (named.opened first file opensFirst).symm.trans
      (named.opened second file opensSecond)
    exact pathName_injective (List.append_cancel_right names)
  · intro otherSchedule other otherRan otherOrderly thread file otherFile opens otherOpens
    rw [named.opened thread file opens,
      (named_of_run otherRan otherOrderly).opened thread otherFile otherOpens]

/-- The main thread creates and names a thread before that thread's first PI call. -/
theorem trace_files_of_paths_child :
    ∃ s, machine.run initial [.create [], .readName [], .rename [], .piCall [0], .piCall []] =
        some s ∧
      s.opened [0] = some (str "main_0.pi_trace") ∧ s.opened [] = some (str "main.pi_trace") ∧
      pathName [0] ++ kPiTraceExt = str "main_0.pi_trace" := by
  obtain ⟨s, ran, child, main⟩ : ∃ s,
      machine.run initial [.create [], .readName [], .rename [], .piCall [0], .piCall []] = some s ∧
        s.opened [0] = some (str "main_0.pi_trace") ∧ s.opened [] = some (str "main.pi_trace") :=
    ⟨_, rfl, rfl, rfl⟩
  have orderlyRun : machine.Meets orderly initial
      [.create [], .readName [], .rename [], .piCall [0], .piCall []] := by
    rw [Machine.meets_cons rfl, Machine.meets_cons rfl, Machine.meets_cons rfl,
      Machine.meets_cons rfl, Machine.meets_cons rfl]
    refine ⟨trivial, ?_, ?_, ?_, ?_, trivial⟩
    · intro parent newName
      by_cases main : parent = [] <;>
        simp [State.goto, initial, main]
    · intro thread newName point
      cases point
      decide
    · intro _ parent newName
      by_cases main : parent = [] <;>
        simp [State.goto, initial, main]
    · intro _ parent newName
      by_cases main : parent = [] <;>
        simp [State.goto, initial, main]
  exact ⟨s, ran, child, main,
    ((trace_files_of_paths _ s ran orderlyRun).1 [0] _ child).symm⟩

/-- The new thread makes its first PI call before it is renamed: both threads open one file. -/
theorem not_trace_files_of_paths :
    ¬∀ (schedule : List Label) (s : State), machine.run initial schedule = some s →
      ∀ first second file, s.opened first = some file → s.opened second = some file →
        first = second := by
  intro always
  obtain ⟨s, ran, child, main⟩ : ∃ s,
      machine.run initial [.create [], .piCall [0], .readName [], .rename [], .piCall []] = some s ∧
        s.opened [0] = some (str "main.pi_trace") ∧ s.opened [] = some (str "main.pi_trace") :=
    ⟨_, rfl, rfl, rfl⟩
  have same := always _ s ran [0] [] _ child main
  contradiction

end DpcppTrace.Soundness
