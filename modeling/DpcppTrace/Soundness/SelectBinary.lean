import DpcppTrace.Model.SelectBinary

/-! # Which runs of `handleSelectBinary` record every call

The images are dumped once whatever the schedule: the mutex admits one thread at a time, and the
second test lets only the first of them past. The record of a call is lost exactly when that second
test finds the flag set, because the early return that protects the dump also skips the rest of the
handler.
-/

namespace DpcppTrace.Soundness

open Foundation Model SelectBinary

variable {Thread : Type} [DecidableEq Thread]

section Fields

variable (s : State Thread) (thread other : Thread) (point : Point) (rest : List SelectBinary)

@[simp] theorem goto_point :
    (s.goto thread point).point other = if other = thread then point else s.point other := by
  simp [State.goto, Function.update_apply]

@[simp] theorem goto_pending : (s.goto thread point).pending = s.pending := rfl

@[simp] theorem goto_trace : (s.goto thread point).trace = s.trace := rfl

@[simp] theorem goto_collected :
    (s.goto thread point).GBinariesCollected = s.GBinariesCollected := rfl

@[simp] theorem goto_mutex : (s.goto thread point).GBinariesMutex = s.GBinariesMutex := rfl

@[simp] theorem goto_files : (s.goto thread point).files = s.files := rfl

@[simp] theorem goto_dumps : (s.goto thread point).dumps = s.dumps := rfl

@[simp] theorem leave_point : (s.leave thread rest).point other =
    if other = thread then .unlockedTest else s.point other := by
  simp [State.leave, Function.update_apply]

@[simp] theorem leave_pending :
    (s.leave thread rest).pending other = if other = thread then rest else s.pending other := by
  simp [State.leave, Function.update_apply]

@[simp] theorem leave_trace : (s.leave thread rest).trace = s.trace := rfl

@[simp] theorem leave_collected :
    (s.leave thread rest).GBinariesCollected = s.GBinariesCollected := rfl

@[simp] theorem leave_mutex : (s.leave thread rest).GBinariesMutex = s.GBinariesMutex := rfl

@[simp] theorem leave_files : (s.leave thread rest).files = s.files := rfl

@[simp] theorem leave_dumps : (s.leave thread rest).dumps = s.dumps := rfl

end Fields

/-- What one step of a thread can do in its call `call`, with the calls `rest` to follow. -/
inductive Move (s : State Thread) (thread : Thread) (call : SelectBinary)
    (rest : List SelectBinary) : State Thread → Prop
  | skip : s.point thread = .unlockedTest → s.GBinariesCollected = true →
      Move s thread call rest (s.goto thread .write)
  | enter : s.point thread = .unlockedTest → s.GBinariesCollected = false →
      Move s thread call rest (s.goto thread .lock)
  | take : s.point thread = .lock → s.GBinariesMutex = none →
      Move s thread call rest ({ s with GBinariesMutex := some thread }.goto thread .lockedTest)
  | late : s.point thread = .lockedTest → s.GBinariesCollected = true →
      Move s thread call rest (s.goto thread (.unlock true))
  | first : s.point thread = .lockedTest → s.GBinariesCollected = false →
      Move s thread call rest (s.goto thread .setFlag)
  | claim : s.point thread = .setFlag →
      Move s thread call rest ({ s with GBinariesCollected := true }.goto thread (.dump 0))
  | image (i : ℕ) (image : DeviceImage) : s.point thread = .dump i → call.images[i]? = some image →
      Move s thread call rest
        ({ s with files := s.files ++ imageFiles i image }.goto thread (.dump (i + 1)))
  | dumped (i : ℕ) : s.point thread = .dump i → call.images[i]? = none →
      Move s thread call rest ({ s with dumps := s.dumps + 1 }.goto thread (.unlock false))
  | drop : s.point thread = .unlock true →
      Move s thread call rest ({ s with GBinariesMutex := none }.leave thread rest)
  | free : s.point thread = .unlock false →
      Move s thread call rest ({ s with GBinariesMutex := none }.goto thread .write)
  | record : s.point thread = .write →
      Move s thread call rest ({ s with
        trace := Function.update s.trace thread (s.trace thread ++ [call.record])
        }.leave thread rest)

theorem step_cases {s next : State Thread} {thread : Thread} (stepped : step s thread = some next) :
    ∃ call rest, s.pending thread = call :: rest ∧ Move s thread call rest next := by
  rcases pending : s.pending thread with _ | ⟨call, rest⟩
  · simp [step, pending] at stepped
  refine ⟨call, rest, rfl, ?_⟩
  cases point : s.point thread with
  | unlockedTest =>
    cases set : s.GBinariesCollected
    · obtain rfl : s.goto thread .lock = next := by simpa [step, pending, point, set] using stepped
      exact .enter point set
    · obtain rfl : s.goto thread .write = next := by simpa [step, pending, point, set] using stepped
      exact .skip point set
  | lock =>
    simp only [step, pending, point, Option.ite_none_right_eq_some, Option.some.injEq] at stepped
    obtain ⟨free, rfl⟩ := stepped
    exact .take point free
  | lockedTest =>
    cases set : s.GBinariesCollected
    · obtain rfl : s.goto thread .setFlag = next := by
        simpa [step, pending, point, set] using stepped
      exact .first point set
    · obtain rfl : s.goto thread (.unlock true) = next := by
        simpa [step, pending, point, set] using stepped
      exact .late point set
  | setFlag =>
    simp only [step, pending, point, Option.some.injEq] at stepped
    exact stepped ▸ .claim point
  | dump i =>
    rcases present : call.images[i]? with _ | image
    all_goals simp only [step, pending, point, present, Option.some.injEq] at stepped
    · exact stepped ▸ .dumped i point present
    · exact stepped ▸ .image i image point present
  | unlock returns =>
    cases returns
    all_goals simp only [step, pending, point, Option.some.injEq] at stepped
    · exact stepped ▸ .free point
    · exact stepped ▸ .drop point
  | write =>
    simp only [step, pending, point, Option.some.injEq] at stepped
    exact stepped ▸ .record point

/-- A step leaves the calls, position and trace of every other thread alone. -/
theorem step_other {s next : State Thread} {thread other : Thread}
    (stepped : step s thread = some next) (different : other ≠ thread) :
    next.point other = s.point other ∧ next.pending other = s.pending other ∧
      next.trace other = s.trace other := by
  obtain ⟨call, rest, pending, move⟩ := step_cases stepped
  cases move <;> simp [different]

/-- What the moving thread's step establishes of its own calls, position and trace, and every other
thread had already, holds of all threads. -/
theorem forall_step {s next : State Thread} {thread : Thread} (stepped : step s thread = some next)
    (holds : Thread → Point → List SelectBinary → List APICall → Prop)
    (before : ∀ other, holds other (s.point other) (s.pending other) (s.trace other))
    (here : holds thread (next.point thread) (next.pending thread) (next.trace thread))
    (other : Thread) : holds other (next.point other) (next.pending other) (next.trace other) := by
  by_cases same : other = thread
  · exact same ▸ here
  · obtain ⟨point, pending, trace⟩ := step_other stepped same
    rw [point, pending, trace]
    exact before other

/-- The flag is never cleared. -/
theorem collected_step {s next : State Thread} {thread : Thread}
    (stepped : step s thread = some next) (set : s.GBinariesCollected = true) :
    next.GBinariesCollected = true := by
  obtain ⟨call, rest, pending, move⟩ := step_cases stepped
  cases move <;> simp [set]

/-- The points inside the locked region. -/
def critical : Point → Bool
  | .lockedTest | .setFlag | .dump _ | .unlock _ => true
  | .unlockedTest | .lock | .write => false

/-- Only the owner of the mutex is inside the locked region. -/
def Exclusive (s : State Thread) : Prop :=
  ∀ thread, critical (s.point thread) = true → s.GBinariesMutex = some thread

private theorem exclusive_step (s : State Thread) (thread : Thread) (next : State Thread)
    (exclusive : Exclusive s) (stepped : step s thread = some next) : Exclusive next := by
  intro other inside
  by_cases same : other = thread
  · subst same
    have owns := exclusive other
    obtain ⟨call, rest, pending, move⟩ := step_cases stepped
    cases move <;> simp_all [critical]
  · rw [(step_other stepped same).1] at inside
    have owned := exclusive other inside
    have owns := exclusive thread
    obtain ⟨call, rest, pending, move⟩ := step_cases stepped
    cases move <;> simp_all [critical]

omit [DecidableEq Thread] in
theorem Exclusive.unique {s : State Thread} (exclusive : Exclusive s) {first second : Thread}
    (inside : critical (s.point first) = true) (alsoInside : critical (s.point second) = true) :
    first = second :=
  Option.some.inj ((exclusive first inside).symm.trans (exclusive second alsoInside))

/-- Each thread works through its calls; between calls it stands at the unlocked test. -/
structure Ordered (calls : Thread → List SelectBinary) (s : State Thread) : Prop where
  remaining : ∀ thread, s.pending thread <:+ calls thread
  idle : ∀ thread, s.pending thread = [] → s.point thread = .unlockedTest

private theorem ordered_step (calls : Thread → List SelectBinary) (s : State Thread) (thread : Thread)
    (next : State Thread) (ordered : Ordered calls s) (stepped : step s thread = some next) :
    Ordered calls next := by
  obtain ⟨call, rest, pending, move⟩ := step_cases stepped
  constructor
  · apply forall_step stepped (fun thread _ pending _ => pending <:+ calls thread) ordered.remaining
    have remaining := ordered.remaining thread
    have tail : rest <:+ calls thread := (List.suffix_cons call rest).trans (pending ▸ remaining)
    cases move <;> simp [remaining, tail]
  · apply forall_step stepped (fun _ point pending _ => pending = [] → point = .unlockedTest)
      ordered.idle
    cases move <;> simp [pending]

/-- The points behind the setting of the flag. -/
def behindFlag : Point → Bool
  | .dump _ | .unlock _ | .write => true
  | .unlockedTest | .lock | .lockedTest | .setFlag => false

/-- The flag is clear while a thread is about to set it, and set once a thread is past that. -/
structure Flagged (calls : Thread → List SelectBinary) (s : State Thread) : Prop where
  setting : ∀ thread, s.point thread = .setFlag → s.GBinariesCollected = false
  behind : ∀ thread, behindFlag (s.point thread) = true → s.GBinariesCollected = true
  returned : ∀ thread, s.pending thread ≠ calls thread → s.GBinariesCollected = true

private theorem flagged_step (calls : Thread → List SelectBinary) (s : State Thread) (thread : Thread)
    (next : State Thread) (exclusive : Exclusive s) (flagged : Flagged calls s)
    (stepped : step s thread = some next) : Flagged calls next := by
  have behind := flagged.behind thread
  constructor
  · intro other setting
    by_cases same : other = thread
    · subst same
      have unset := flagged.setting other
      obtain ⟨call, rest, pending, move⟩ := step_cases stepped
      cases move <;> simp_all [behindFlag]
    · rw [(step_other stepped same).1] at setting
      have unset := flagged.setting other setting
      have alone : s.point thread ≠ .setFlag := fun alsoSetting =>
        same (exclusive.unique (by rw [setting]; rfl) (by rw [alsoSetting]; rfl))
      obtain ⟨call, rest, pending, move⟩ := step_cases stepped
      cases move <;> simp_all [behindFlag]
  · apply forall_step stepped
      (fun _ point _ _ => behindFlag point = true → next.GBinariesCollected = true)
    · exact fun other past => collected_step stepped (flagged.behind other past)
    · obtain ⟨call, rest, pending, move⟩ := step_cases stepped
      cases move <;> simp_all [behindFlag]
  · apply forall_step stepped
      (fun thread _ pending _ => pending ≠ calls thread → next.GBinariesCollected = true)
    · exact fun other moved => collected_step stepped (flagged.returned other moved)
    · have returned := flagged.returned thread
      obtain ⟨call, rest, pending, move⟩ := step_cases stepped
      cases move <;> simp_all [behindFlag]

/-- Writing one more image extends the files by those of that image. -/
theorem dumpFrom_take_succ {images : List DeviceImage} {i : ℕ} {image : DeviceImage}
    (present : images[i]? = some image) :
    dumpFrom 0 (images.take (i + 1)) = dumpFrom 0 (images.take i) ++ imageFiles i image := by
  obtain ⟨inside, rfl⟩ := List.getElem?_eq_some_iff.mp present
  have length : (images.take i).length = i := List.length_take_of_le inside.le
  rw [List.take_succ_eq_append_getElem inside, dumpFrom, dumpFrom, List.zipIdx_append, length,
    List.flatMap_append]
  simp

/-- How far the dump has come: not begun, at some image of one call, or complete. -/
inductive Progress (calls : Thread → List SelectBinary) (s : State Thread) : Prop
  | none : s.GBinariesCollected = false → s.dumps = 0 → s.files = [] → Progress calls s
  | dumping (thread : Thread) (call : SelectBinary) (rest : List SelectBinary) (i : ℕ) :
      s.GBinariesCollected = true → s.pending thread = call :: rest → s.point thread = .dump i →
      s.dumps = 0 → s.files = dumpFrom 0 (call.images.take i) → Progress calls s
  | dumped (thread : Thread) (call : SelectBinary) : s.GBinariesCollected = true →
      (∀ other i, s.point other ≠ .dump i) → s.dumps = 1 → call ∈ calls thread →
      s.files = dumpFrom 0 call.images → Progress calls s

private theorem progress_step (calls : Thread → List SelectBinary) (s : State Thread) (thread : Thread)
    (next : State Thread) (exclusive : Exclusive s) (ordered : Ordered calls s)
    (flagged : Flagged calls s) (progress : Progress calls s)
    (stepped : step s thread = some next) : Progress calls next := by
  have setting := flagged.setting thread
  have behind := flagged.behind thread
  obtain ⟨call, rest, pending, move⟩ := step_cases stepped
  rcases progress with ⟨unset, noDumps, noFiles⟩ |
    ⟨writer, current, later, i, set, waiting, at_, noDumps, written⟩ |
    ⟨source, complete, set, nobody, once, made, written⟩
  · cases move with
    | enter point _ => exact .none unset noDumps noFiles
    | take point _ => exact .none unset noDumps noFiles
    | first point _ => exact .none unset noDumps noFiles
    | claim point => exact .dumping thread call rest 0 rfl pending (by simp) noDumps noFiles
    | _ => simp_all [behindFlag]
  · by_cases own : thread = writer
    · subst own
      obtain ⟨rfl, rfl⟩ := List.cons.inj (pending.symm.trans waiting)
      have made : call ∈ calls thread := (ordered.remaining thread).subset (by rw [pending]; simp)
      cases move with
      | image j image point present =>
        obtain rfl := Point.dump.inj (point.symm.trans at_)
        refine .dumping thread call rest (j + 1) set pending (by simp) noDumps ?_
        rw [goto_files, written, dumpFrom_take_succ present]
      | dumped j point finished =>
        obtain rfl := Point.dump.inj (point.symm.trans at_)
        have whole := List.take_of_length_le (List.getElem?_eq_none_iff.mp finished)
        refine .dumped thread call set ?_ (by simp [noDumps]) made (by rw [goto_files, written, whole])
        intro other k elsewhere
        by_cases same : other = thread
        · simp [same] at elsewhere
        · have unique := exclusive.unique (by rw [at_]; rfl : critical (s.point thread) = true)
            (by simp only [goto_point, if_neg same] at elsewhere; rw [elsewhere]; rfl)
          exact same unique.symm
      | _ => simp_all
    · have unmoved := step_other stepped (Ne.symm own)
      have alone : critical (s.point thread) = false := by
        by_contra inside
        exact own (exclusive.unique (by simpa using inside) (by rw [at_]; rfl))
      have owned := exclusive writer (by rw [at_]; rfl)
      have waits := unmoved.2.1.trans waiting
      have stays := unmoved.1.trans at_
      cases move with
      | skip _ _ => exact .dumping writer current later i set waits stays noDumps written
      | record _ => exact .dumping writer current later i set waits stays noDumps written
      | _ => simp_all [critical]
  · have nowhere : (∀ k, next.point thread ≠ .dump k) → ∀ other k, next.point other ≠ .dump k :=
      forall_step stepped (fun _ point _ _ => ∀ k, point ≠ .dump k) nobody
    cases move with
    | claim point => simp_all
    | image j image point _ => exact absurd point (nobody thread j)
    | dumped j point _ => exact absurd point (nobody thread j)
    | _ => exact .dumped source complete set (nowhere (by simp)) once made written

/-- What every schedule keeps. -/
structure Consistent (calls : Thread → List SelectBinary) (s : State Thread) : Prop where
  exclusive : Exclusive s
  ordered : Ordered calls s
  flagged : Flagged calls s
  progress : Progress calls s

omit [DecidableEq Thread] in
private theorem consistent_initial (calls : Thread → List SelectBinary) :
    Consistent calls (initial calls) where
  exclusive _ inside := by simp [initial, critical] at inside
  ordered := ⟨fun _ => List.suffix_refl _, fun _ _ => rfl⟩
  flagged :=
    { setting := fun _ _ => rfl
      behind := fun _ past => by simp [initial, behindFlag] at past
      returned := fun _ moved => absurd rfl moved }
  progress := .none rfl rfl rfl

private theorem consistent_step (calls : Thread → List SelectBinary) (s : State Thread) (thread : Thread)
    (next : State Thread) (consistent : Consistent calls s) (stepped : step s thread = some next) :
    Consistent calls next := by
  obtain ⟨exclusive, ordered, flagged, progress⟩ := consistent
  exact ⟨exclusive_step s thread next exclusive stepped,
    ordered_step calls s thread next ordered stepped,
    flagged_step calls s thread next exclusive flagged stepped,
    progress_step calls s thread next exclusive ordered flagged progress stepped⟩

/-- Every call so far is in its thread's trace or still to come, and nobody is about to drop one. -/
structure Whole (calls : Thread → List SelectBinary) (s : State Thread) : Prop where
  records : ∀ thread,
    s.trace thread ++ (s.pending thread).map SelectBinary.record =
      (calls thread).map SelectBinary.record
  keeping : ∀ thread, s.point thread ≠ .unlock true

private theorem whole_step (calls : Thread → List SelectBinary) (s : State Thread) (thread : Thread)
    (next : State Thread) (whole : Whole calls s) (ahead : ¬overtaken s thread)
    (stepped : step s thread = some next) : Whole calls next := by
  obtain ⟨call, rest, pending, move⟩ := step_cases stepped
  have records := whole.records thread
  have keeping := whole.keeping thread
  rw [pending] at records
  constructor
  · apply forall_step stepped (fun thread _ pending trace =>
      trace ++ pending.map SelectBinary.record = (calls thread).map SelectBinary.record) whole.records
    cases move with
    | drop point => exact absurd point keeping
    | record _ => simpa using records
    | _ => simpa [pending] using records
  · apply forall_step stepped (fun _ point _ _ => point ≠ .unlock true) whole.keeping
    cases move with
    | late point set => exact absurd ⟨by simp [pending], point, set⟩ ahead
    | _ => simp

/-- The most records the trace of a thread can still come to hold. -/
def attainable (s : State Thread) (thread : Thread) : ℕ :=
  (s.trace thread).length + (s.pending thread).length -
    if s.point thread = .unlock true then 1 else 0

/-- No step ever brings back a record. -/
theorem attainable_step (s : State Thread) (thread : Thread) (next : State Thread)
    (stepped : step s thread = some next) (other : Thread) :
    attainable next other ≤ attainable s other := by
  by_cases same : other = thread
  · subst same
    obtain ⟨call, rest, pending, move⟩ := step_cases stepped
    cases move with
    | record point =>
      simp only [attainable, leave_trace, Function.update_self, leave_pending, leave_point, if_true,
        pending, point, List.length_append, List.length_cons, List.length_nil]
      simp only [reduceCtorEq, if_false]
      omega
    | _ => simp_all [attainable]
  · obtain ⟨point, pending, trace⟩ := step_other stepped same
    rw [attainable, attainable, point, pending, trace]

/-- A second test that finds the flag set costs its thread a record. -/
theorem attainable_overtaken (s : State Thread) (thread : Thread) (next : State Thread)
    (late : overtaken s thread) (stepped : step s thread = some next) :
    attainable next thread < attainable s thread := by
  obtain ⟨-, point, set⟩ := late
  obtain ⟨call, rest, pending, move⟩ := step_cases stepped
  cases move with
  | late _ _ => simp [attainable, pending, point]
  | _ => simp_all

/-- Each call appended its record to its own thread's trace in call order, and the images of one
call were dumped, once. -/
def RecordedOnce (calls : Thread → List SelectBinary) (s : State Thread) : Prop :=
  (∀ thread, s.trace thread = (calls thread).map SelectBinary.record) ∧ s.dumps = 1 ∧
    ∃ thread, ∃ call ∈ calls thread, s.files = dumpFrom 0 call.images

theorem consistent_of_run {calls : Thread → List SelectBinary} {schedule : List Thread}
    {s : State Thread} (ran : (machine Thread).run (initial calls) schedule = some s) :
    Consistent calls s :=
  Machine.invariant (consistent_step calls) ran (consistent_initial calls)

private theorem whole_of_run {calls : Thread → List SelectBinary} {schedule : List Thread}
    {s : State Thread} (ran : (machine Thread).run (initial calls) schedule = some s)
    (ahead : (machine Thread).Meets (fun s thread => ¬overtaken s thread) (initial calls) schedule) :
    Whole calls s := by
  apply Machine.invariant_of_meets (whole_step calls) ran ahead
  exact ⟨fun _ => by simp [initial], fun _ => by simp [initial]⟩

/-- A run with an overtaken step leaves some thread's trace too short for ever. -/
theorem short_of_run {calls : Thread → List SelectBinary} {schedule : List Thread}
    {s : State Thread} (ran : (machine Thread).run (initial calls) schedule = some s)
    (late : ¬(machine Thread).Meets (fun s thread => ¬overtaken s thread) (initial calls) schedule) :
    ∃ thread, attainable s thread < (calls thread).length := by
  obtain ⟨before, thread, after, here, next, -, reached, offends, stepped, left⟩ :=
    Machine.exists_violation ran late
  refine ⟨thread, ?_⟩
  have first : attainable here thread ≤ (calls thread).length :=
    Machine.invariant
      (fun s label next bound stepped => (attainable_step s label next stepped thread).trans bound)
      reached (by simp [attainable, initial])
  have dropped := attainable_overtaken here thread next (not_not.mp offends) stepped
  exact Machine.invariant
    (fun s label next bound stepped => (attainable_step s label next stepped thread).trans_lt bound)
    left (dropped.trans_le first)

/-- While no second test finds the flag set, every call so far is recorded in order and the images
are dumped at most once; a finished run has recorded each call and dumped the images once exactly
when no second test found the flag set and there was a call at all. -/
theorem recorded_once_iff_never_overtaken (calls : Thread → List SelectBinary)
    (schedule : List Thread) (s : State Thread)
    (ran : (machine Thread).run (initial calls) schedule = some s) :
    ((machine Thread).Meets (fun s thread => ¬overtaken s thread) (initial calls) schedule →
      (∀ thread, s.trace thread ++ (s.pending thread).map SelectBinary.record =
        (calls thread).map SelectBinary.record) ∧ s.dumps ≤ 1) ∧
    (s.finished → (RecordedOnce calls s ↔
      (machine Thread).Meets (fun s thread => ¬overtaken s thread) (initial calls) schedule ∧
        ∃ thread, calls thread ≠ [])) := by
  have consistent := consistent_of_run ran
  constructor
  · intro ahead
    refine ⟨(whole_of_run ran ahead).records, ?_⟩
    cases consistent.progress with
    | none _ noDumps _ => exact noDumps ▸ Nat.zero_le 1
    | dumping _ _ _ _ _ _ _ noDumps _ => exact noDumps ▸ Nat.zero_le 1
    | dumped _ _ _ _ once _ _ => exact once.le
  · intro finished
    constructor
    · rintro ⟨records, -, thread, call, member, -⟩
      refine ⟨?_, thread, List.ne_nil_of_mem member⟩
      by_contra late
      obtain ⟨loser, short⟩ := short_of_run ran late
      have idle := consistent.ordered.idle loser (finished loser)
      have length := congrArg List.length (records loser)
      simp only [attainable, finished loser, idle, List.length_map] at short length
      simp at short
      omega
    · rintro ⟨ahead, thread, called⟩
      refine ⟨fun other => ?_, ?_⟩
      · have records := (whole_of_run ran ahead).records other
        rw [finished other] at records
        simpa using records
      · have set := consistent.flagged.returned thread (by rw [finished thread]; exact called.symm)
        cases consistent.progress with
        | none unset _ _ => simp [set] at unset
        | dumping writer call rest _ _ waiting _ _ _ =>
          rw [finished writer] at waiting
          contradiction
        | dumped source call _ _ once made written => exact ⟨once, source, call, made, written⟩

/-- A call with one SPIR-V image. -/
def sampleSelect : SelectBinary :=
  { funcId := 6
    timeBegin := 10
    timeEnd := 20
    res := 0
    device := 0x1000
    binaries := 0x2000
    numBinaries := 1
    selectedBinary := 0x3000
    images := [⟨.PI_DEVICE_BINARY_TYPE_SPIRV, str "spir64", [3, 2, 0x23, 7], []⟩]
    counted := rfl
    selected := [0, 0, 0, 0, 0, 0, 0, 0]
    wide := rfl }

/-- Two threads one after the other. -/
theorem recorded_once_iff_never_overtaken_two :
    ∃ s, (machine Bool).run (initial fun _ => [sampleSelect])
        (List.replicate 8 false ++ List.replicate 2 true) = some s ∧
      RecordedOnce (fun _ => [sampleSelect]) s := by
  obtain ⟨s, ran, finished⟩ : ∃ s, (machine Bool).run (initial fun _ => [sampleSelect])
      (List.replicate 8 false ++ List.replicate 2 true) = some s ∧
      ∀ thread, s.pending thread = [] := ⟨_, rfl, by decide⟩
  exact ⟨s, ran, ((recorded_once_iff_never_overtaken _ _ s ran).2 finished).mpr
    ⟨by decide, false, by decide⟩⟩

/-- Both threads pass the unlocked test before either takes the mutex: the second loses its call. -/
theorem not_recorded_once_two :
    ¬∀ (schedule : List Bool) (s : State Bool),
      (machine Bool).run (initial fun _ => [sampleSelect]) schedule = some s → s.finished →
        RecordedOnce (fun _ => [sampleSelect]) s := by
  intro always
  obtain ⟨s, ran, finished, missing⟩ : ∃ s, (machine Bool).run (initial fun _ => [sampleSelect])
      (false :: true :: List.replicate 7 false ++ List.replicate 3 true) = some s ∧
      (∀ thread, s.pending thread = []) ∧ s.trace true = [] := ⟨_, rfl, by decide, rfl⟩
  have records := (always _ s ran finished).1 true
  rw [missing] at records
  contradiction

end DpcppTrace.Soundness
