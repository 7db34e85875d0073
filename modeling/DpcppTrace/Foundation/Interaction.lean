import Mathlib.Tactic.Common

/-! # Programs that question an environment

A program asks requests one after another and ends with a value, or breaks off. The environment is
deterministic and answers from a state of its own. A run is judged by the requests it made, the
environment's final state and the value; what holds at every end of a program holds of every run,
whatever the environment answers.
-/

namespace DpcppTrace.Foundation

universe u

/-- A program whose requests have answers of the types `Answer`. -/
inductive Program {Request : Type u} (Answer : Request → Type u) (α : Type u) : Type u where
  | done (value : α)
  | fail
  | call (request : Request) (next : Answer request → Program Answer α)

/-- What answers the requests, and how an answer changes its state. -/
def Environment {Request : Type u} (Answer : Request → Type u) (σ : Type u) :=
  σ → (request : Request) → Answer request × σ

/-- What answers the requests, or fails to. -/
def FallibleEnvironment {Request : Type u} (Answer : Request → Type u) (σ : Type u) :=
  σ → (request : Request) → Option (Answer request × σ)

def Environment.fallible {Request : Type u} {Answer : Request → Type u} {σ : Type u}
    (environment : Environment Answer σ) : FallibleEnvironment Answer σ :=
  fun state request => some (environment state request)

/-- What can be told of a finished run; there is no value when the program broke off. -/
structure Transcript (Request σ α : Type u) where
  calls : List Request
  final : σ
  value : Option α
deriving DecidableEq

namespace Program

variable {Request : Type u} {Answer : Request → Type u} {σ α β : Type u}

def bind (program : Program Answer α) (rest : α → Program Answer β) : Program Answer β :=
  match program with
  | .done value => rest value
  | .fail => .fail
  | .call request next => .call request fun answer => (next answer).bind rest

instance : Monad (Program Answer) where
  pure := .done
  bind := bind

/-- The program that asks one request and returns the answer. -/
def ask (request : Request) : Program Answer (Answer request) := .call request .done

def run (environment : Environment Answer σ) : Program Answer α → σ → Transcript Request σ α
  | .done value, state => ⟨[], state, some value⟩
  | .fail, state => ⟨[], state, none⟩
  | .call request next, state =>
    let (answer, state) := environment state request
    let rest := (next answer).run environment state
    { rest with calls := request :: rest.calls }

/-- What is computed from the value makes no requests. -/
theorem run_map (environment : Environment Answer σ) (program : Program Answer α) (f : α → β)
    (state : σ) :
    (program >>= fun value => pure (f value)).run environment state =
      { program.run environment state with
        value := (program.run environment state).value.map f } := by
  induction program generalizing state with
  | done value => rfl
  | fail => rfl
  | call request next ih =>
    have rest := ih (environment state request).1 (environment state request).2
    change (Program.call request fun answer => next answer >>= fun value => pure (f value)).run
      environment state = _
    simp only [run, rest]

/-- The value at every end of the program has the property. -/
def Always (holds : α → Prop) : Program Answer α → Prop
  | .done value => holds value
  | .fail => True
  | .call _ next => ∀ answer, (next answer).Always holds

/-- The ends of a sequence are the ends of what follows the ends of its first part. -/
theorem Always.bind {before : α → Prop} {holds : β → Prop} {program : Program Answer α}
    {rest : α → Program Answer β} (first : program.Always before)
    (then_ : ∀ value, before value → (rest value).Always holds) :
    (program >>= rest).Always holds := by
  induction program with
  | done value => exact then_ value first
  | fail => trivial
  | call request next ih => exact fun answer => ih answer (first answer)

/-- What holds at every end holds of the value of every run. -/
theorem Always.run {holds : α → Prop} {program : Program Answer α}
    (always : program.Always holds) {environment : Environment Answer σ} {state : σ} {value : α}
    (ran : (program.run environment state).value = some value) : holds value := by
  induction program generalizing state with
  | done other =>
    obtain rfl := Option.some.inj ran
    exact always
  | fail => cases ran
  | call request next ih => exact ih _ (always _) ran

/-- Whatever the environment answers, the program asks only requests of a kind, and breaks off only if
that is granted. -/
def Asks (allowed : Request → Prop) (breaks : Prop) : Program Answer α → Prop
  | .done _ => True
  | .fail => breaks
  | .call request next => allowed request ∧ ∀ answer, (next answer).Asks allowed breaks

/-- A run makes no other requests. -/
theorem Asks.calls {allowed : Request → Prop} {breaks : Prop} {program : Program Answer α}
    (asks : program.Asks allowed breaks) (environment : Environment Answer σ) (state : σ) :
    ∀ request ∈ (program.run environment state).calls, allowed request := by
  induction program generalizing state with
  | done value => simp [run]
  | fail => simp [run]
  | call request next ih =>
    intro other mem
    rcases List.mem_cons.mp mem with rfl | later
    · exact asks.1
    · exact ih _ (asks.2 _) _ other later

/-- What every allowed request keeps of the environment, a run keeps. -/
theorem Asks.final {allowed : Request → Prop} {breaks : Prop} {program : Program Answer α}
    (asks : program.Asks allowed breaks) {environment : Environment Answer σ} {holds : σ → Prop}
    (kept : ∀ state request, allowed request → holds state → holds (environment state request).2)
    {state : σ} (start : holds state) : holds (program.run environment state).final := by
  induction program generalizing state with
  | done value => exact start
  | fail => exact start
  | call request next ih => exact ih _ (asks.2 _) (kept state request asks.1 start)

/-! ## Requests that are not answered -/

/-- A run that ends at a request that is not answered. -/
def attempt (environment : FallibleEnvironment Answer σ) : Program Answer α → σ → Transcript Request σ α
  | .done value, state => ⟨[], state, some value⟩
  | .fail, state => ⟨[], state, none⟩
  | .call request next, state =>
    match environment state request with
    | none => ⟨[request], state, none⟩
    | some (answer, state) =>
      let rest := (next answer).attempt environment state
      { rest with calls := request :: rest.calls }

/-- The run comes to this request, with the environment in this state. -/
def Meets (environment : FallibleEnvironment Answer σ) :
    Program Answer α → σ → Request → σ → Prop
  | .done _, _, _, _ => False
  | .fail, _, _, _ => False
  | .call request next, state, asked, here =>
    (asked = request ∧ here = state) ∨ ∃ answer after, environment state request = some (answer, after) ∧
      (next answer).Meets environment after asked here

/-- The run comes to where the program itself breaks off. -/
def Fails (environment : FallibleEnvironment Answer σ) : Program Answer α → σ → Prop
  | .done _, _ => False
  | .fail, _ => True
  | .call request next, state =>
    ∃ answer after, environment state request = some (answer, after) ∧ (next answer).Fails environment after

/-- Where everything is answered these are the runs. -/
theorem attempt_fallible (environment : Environment Answer σ) (program : Program Answer α) (state : σ) :
    program.attempt environment.fallible state = program.run environment state := by
  induction program generalizing state with
  | done value => rfl
  | fail => rfl
  | call request next ih => simp only [attempt, run, Environment.fallible, ih]

/-- A program comes only to requests that it may make. -/
theorem Asks.meets {allowed : Request → Prop} {breaks : Prop} {program : Program Answer α}
    (asks : program.Asks allowed breaks) {environment : FallibleEnvironment Answer σ} {state here : σ}
    {request : Request} (meets : program.Meets environment state request here) : allowed request := by
  induction program generalizing state with
  | done value => exact meets.elim
  | fail => exact meets.elim
  | call first next ih =>
    rcases meets with ⟨rfl, -⟩ | ⟨answer, after, -, later⟩
    · exact asks.1
    · exact ih answer (asks.2 answer) later

/-- A program that comes to where it breaks off may do so. -/
theorem Asks.fails {allowed : Request → Prop} {breaks : Prop} {program : Program Answer α}
    (asks : program.Asks allowed breaks) {environment : FallibleEnvironment Answer σ} {state : σ}
    (fails : program.Fails environment state) : breaks := by
  induction program generalizing state with
  | done value => exact fails.elim
  | fail => exact asks
  | call request next ih =>
    obtain ⟨answer, after, -, later⟩ := fails
    exact ih answer (asks.2 answer) later

end Program

end DpcppTrace.Foundation
