import DgxSpark.Library.OrderedDict

/-
This file embeds the verification policy of `adaptive.py`: the acceptance statistics of a request, the cap a step
verifies, and the three maps that join a step's choice with the tokens that come back later.
Request objects are named by a number each; a weak reference is that number and finds the object while it lives.
The arithmetic of the statistics is that of any float type.
-/

namespace DgxSpark.Adaptive

/-- The float operations of the statistics. -/
class PyFloat (F : Type) where
  ofNat : Nat → F
  add : F → F → F
  mul : F → F → F
  div : F → F → F
  eq : F → F → Bool
  lt : F → F → Bool
  le : F → F → Bool
  isFinite : F → Bool
  nan : F
  /-- The literals 0.97 and 1.03. -/
  decay : F
  hysteresis : F

/-- Exact numbers with a value that is none of them. -/
instance exactFloat : PyFloat (Option ℚ) where
  ofNat n := some n
  add x y := x.bind fun x => y.map fun y => x + y
  mul x y := x.bind fun x => y.map fun y => x * y
  div x y := x.bind fun x => y.bind fun y => if y = 0 then none else some (x / y)
  eq x y := (x.bind fun x => y.map fun y => decide (x = y)).getD false
  lt x y := (x.bind fun x => y.map fun y => decide (x < y)).getD false
  le x y := (x.bind fun x => y.map fun y => decide (x ≤ y)).getD false
  isFinite x := x.isSome
  nan := none
  decay := some (97 / 100)
  hysteresis := some (103 / 100)

inductive Raised where
  | valueError (message : String)
  | runtimeError (message : String)
deriving DecidableEq

def CAPS : List Nat := [1, 3, 5, 7]

abbrev Cap : Type := { k : Nat // k ∈ CAPS }

def Cap.full : Cap := ⟨7, by decide⟩

theorem Cap.range (cap : Cap) : 1 ≤ cap.1 ∧ cap.1 ≤ 7 := by
  have known := cap.2
  simp only [CAPS, List.mem_cons, List.not_mem_nil, or_false] at known
  omega

section Statistics

variable {F : Type} [PyFloat F]

def PRIOR_STRENGTH : F := PyFloat.ofNat 2

structure PrefixStats (F : Type) where
  successes : Fin 7 → F
  trials : Fin 7 → F
  observations : Nat
  cap : Cap
  prior : Option (Fin 7 → F)

namespace PrefixStats

def fresh : PrefixStats F where
  successes := fun _ => PyFloat.ofNat 0
  trials := fun _ => PyFloat.ofNat 0
  observations := 0
  cap := .full
  prior := none

def observe (stats : PrefixStats F) (k accepted : Nat) : Except Raised (PrefixStats F) :=
  if ¬(1 ≤ k ∧ k ≤ 7) ∨ ¬accepted ≤ k then
    .error (.valueError "invalid accepted-prefix observation")
  else
    .ok { stats with
      successes := fun j =>
        let decayed := PyFloat.mul (stats.successes j) PyFloat.decay
        if j < k ∧ j ≤ accepted then PyFloat.add decayed (PyFloat.ofNat (if j < accepted then 1 else 0)) else decayed
      trials := fun j =>
        let decayed := PyFloat.mul (stats.trials j) PyFloat.decay
        if j < k ∧ j ≤ accepted then PyFloat.add decayed (PyFloat.ofNat 1) else decayed
      observations := stats.observations + 1 }

/-- The acceptance rate of position `j` given that its predecessors passed. -/
def conditional (stats : PrefixStats F) (j : Fin 7) : F :=
  match stats.prior with
  | some prior =>
      PyFloat.div (PyFloat.add (stats.successes j) (PyFloat.mul PRIOR_STRENGTH (prior j)))
        (PyFloat.add (stats.trials j) PRIOR_STRENGTH)
  | none =>
      if PyFloat.le (PyFloat.ofNat 2) (stats.trials j) then PyFloat.div (stats.successes j) (stats.trials j)
      else PyFloat.ofNat 1

def expected (stats : PrefixStats F) (k : Cap) (allowPriorOnly : Bool) : F :=
  if PyFloat.lt (stats.trials 0) (PyFloat.ofNat 2) ∧ ¬(allowPriorOnly ∧ stats.prior.isSome) then
    PyFloat.nan
  else
    (((List.finRange 7).take k).foldl (fun (survival, total) j =>
      let survival := PyFloat.mul survival (stats.conditional j)
      (survival, PyFloat.add total survival)) (PyFloat.ofNat 1, PyFloat.ofNat 1)).2

/-- A turn of the loop of `expected`. -/
def survive (stats : PrefixStats F) (state : F × F) (j : Fin 7) : F × F :=
  let survival := PyFloat.mul state.1 (stats.conditional j)
  (survival, PyFloat.add state.2 survival)

/-- `expected` for any number of positions. -/
def expectedUpTo (stats : PrefixStats F) (k : Nat) (allowPriorOnly : Bool) : F :=
  if 0 < k ∧ PyFloat.lt (stats.trials 0) (PyFloat.ofNat 2) ∧ ¬(allowPriorOnly ∧ stats.prior.isSome) then PyFloat.nan
  else (((List.finRange 7).take k).foldl stats.survive (PyFloat.ofNat 1, PyFloat.ofNat 1)).2

/-- `max(CAPS, key=lambda k: (rates[k], k))`. -/
def bestCap (rates : Cap → F) : Cap :=
  CAPS.attach.foldl (fun best k =>
    if PyFloat.eq (rates best) (rates k) then (if best.1 < k.1 then k else best)
    else if PyFloat.lt (rates best) (rates k) then k else best) ⟨1, by decide⟩

/-- The cap moves only to one that is better by more than the hysteresis. -/
def adapt (stats : PrefixStats F) (rates : Cap → F) : PrefixStats F :=
  let best := bestCap rates
  if PyFloat.lt (PyFloat.mul (rates stats.cap) PyFloat.hysteresis) (rates best) then { stats with cap := best }
  else stats

/-- `choose` returns the cap of a step and whether the step is a probe. -/
def choose (stats : PrefixStats F) (costs : OrderedDict Nat F) (scheduledSteps : Nat) (coldStart : Bool) :
    PrefixStats F × Cap × Bool :=
  let probe : Bool := scheduledSteps % 16 = 0
  let minimum := if coldStart ∧ stats.prior.isSome then 0 else 8
  if stats.observations < minimum ∨ probe ∨ ¬(costs.keys ⊆ CAPS ∧ CAPS ⊆ costs.keys) then
    (stats, .full, probe)
  else
    let rates (k : Cap) := PyFloat.div (stats.expected k coldStart) ((costs.get? k).getD PyFloat.nan)
    if ¬∀ k ∈ CAPS.attach, PyFloat.isFinite (rates k) ∧ PyFloat.lt (PyFloat.ofNat 0) (rates k) then
      (stats, .full, probe)
    else
      let stats := stats.adapt rates
      (stats, stats.cap, probe)

end PrefixStats

end Statistics

inductive Mode where
  | off
  | shadow
  | fixed
  | adaptive
deriving DecidableEq

/-- A value of `extra_args`: an integer, or of another type. -/
inductive Extra where
  | int (value : Int)
  | other

structure SamplingParams (F : Type) where
  temperature : F
  presencePenalty : F
  frequencyPenalty : F
  repetitionPenalty : F
  allowedTokenIds : List Int
  badWords : List String
  logitBias : List (Int × F)
  ignoreEos : Bool
  stopTokenIds : List Int
  allStopTokenIds : List Int
  stop : List String
  /-- `spec_policy` of `extra_args` where it names a mode, and `spec_verify_cap`. -/
  specPolicy : Option Mode
  specVerifyCap : Option Extra

structure Request (F : Type) where
  requestId : String
  samplingParams : Option (SamplingParams F)
  isPrefillChunk : Bool
  useStructuredOutput : Bool
  resumable : Bool
  loraRequest : Bool
  mmFeatures : List Nat
  asyncTokensToDiscard : Int
  numOutputTokens : Nat
  maxTokens : Int
  eosTokenId : Option Int
  isFinished : Bool

section Policy

variable {F : Type} [PyFloat F]

def SamplingParams.plain (sp : SamplingParams F) : Bool :=
  PyFloat.eq sp.temperature (PyFloat.ofNat 0) && PyFloat.eq sp.presencePenalty (PyFloat.ofNat 0) &&
  PyFloat.eq sp.frequencyPenalty (PyFloat.ofNat 0) && PyFloat.eq sp.repetitionPenalty (PyFloat.ofNat 1) &&
  sp.allowedTokenIds.isEmpty && sp.badWords.isEmpty && sp.logitBias.isEmpty

def eligible (request : Request F) (c1 : Bool) : Bool :=
  c1 && request.samplingParams.any SamplingParams.plain && !request.isPrefillChunk && !request.useStructuredOutput &&
  !request.resumable && !request.loraRequest && request.mmFeatures.isEmpty && request.asyncTokensToDiscard == 0

/-- The output ends here: its length is used up, or a token or a string may stop it. -/
def Request.terminal (request : Request F) (tokens : List Int) : Bool :=
  let sp := request.samplingParams
  let ignoreEos := sp.any (·.ignoreEos)
  request.maxTokens ≤ request.numOutputTokens + tokens.length
    || (!ignoreEos && request.eosTokenId.any (tokens.contains ·))
    || sp.any (·.stopTokenIds.any (tokens.contains ·))
    || (!ignoreEos && sp.any (·.allStopTokenIds.any (tokens.contains ·)))
    || sp.any (!·.stop.isEmpty)

/-- What the cost tables, the acceptance priors and the workload hints give a request at its context length. -/
structure Tariff (F : Type) where
  costs : OrderedDict Nat F
  prior : Option (Fin 7 → F)
  hinted : Bool

/-- A row of `chosen`. -/
structure Choice where
  request : Nat
  cap : Cap
  eligible : Bool
deriving DecidableEq

/-- A row of `pending`. -/
structure Feedback extends Choice where
  scheduledK : Nat
deriving DecidableEq

structure RequestState (F : Type) where
  stats : PrefixStats F
  scheduled : Nat

structure VerificationPolicy (F : Type) where
  mode : Mode
  fixed : Cap
  chosen : OrderedDict String Choice
  pending : OrderedDict Nat (OrderedDict String Feedback)
  /-- The weak dictionary of the states, by request object. -/
  states : Nat → Option (RequestState F)

/-- `SchedulerOutput`, and where the object lies in memory. -/
structure SchedulerOutput where
  id : Nat
  scheduledSpecDecodeTokens : OrderedDict String (List Int)

/-- `ModelRunnerOutput`: an index it gives is that of one of its rows of tokens, if there are any. -/
structure ModelRunnerOutput where
  invalidBlockIds : List Nat
  reqIdToIndex : OrderedDict String Nat
  sampledTokenIds : List (List Int)
  indexed : ∀ rid i, reqIdToIndex.get? rid = some i → sampledTokenIds ≠ [] → i < sampledTokenIds.length

/-- A call of `observe`, and the request whose statistics it is made on. -/
structure Observed where
  request : Nat
  k : Nat
  accepted : Nat
deriving DecidableEq

namespace VerificationPolicy

def init (mode : Mode) (fixed : Cap) : VerificationPolicy F := ⟨mode, fixed, .empty, .empty, fun _ => none⟩

/-- The cap of the fixed mode. -/
def fixedCap (policy : VerificationPolicy F) (request : Request F) : Cap :=
  match request.samplingParams.bind (·.specVerifyCap) with
  | none => policy.fixed
  | some (.int value) => if inside : value.toNat ∈ CAPS then ⟨value.toNat, inside⟩ else .full
  | some .other => .full

def begin (policy : VerificationPolicy F) : VerificationPolicy F := { policy with chosen := .empty }

/-- `select` for the request object of a number. -/
def select (policy : VerificationPolicy F) (ref : Nat) (request : Request F) (c1 : Bool) (tariff : Tariff F) :
    VerificationPolicy F × Cap :=
  let ok := eligible request c1
  let mode := (request.samplingParams.bind (·.specPolicy)).getD policy.mode
  let state := (policy.states ref).getD ⟨.fresh, 0⟩
  let stats := { state.stats with prior := tariff.prior }
  let scheduled := state.scheduled + if ok then 1 else 0
  let (stats, cap) :=
    if ok ∧ mode = .fixed then (stats, policy.fixedCap request)
    else if ok ∧ mode = .adaptive then
      let (stats, cap, _) := stats.choose tariff.costs scheduled tariff.hinted
      (stats, cap)
    else (stats, .full)
  ({ policy with
      chosen := policy.chosen.set request.requestId ⟨ref, cap, ok⟩
      states := Function.update policy.states ref (some ⟨stats, scheduled⟩) }, cap)

/-- A scheduled request that was chosen for gets a row. -/
def addRow (chosen : OrderedDict String Choice) (rows : OrderedDict String Feedback) (entry : String × List Int) :
    OrderedDict String Feedback :=
  match chosen.get? entry.1 with
  | some row => rows.set entry.1 { row with scheduledK := entry.2.length }
  | none => rows

def rowsOf (chosen : OrderedDict String Choice) (drafts : OrderedDict String (List Int)) : OrderedDict String Feedback :=
  drafts.entries.foldl (addRow chosen) .empty

def scheduled (policy : VerificationPolicy F) (output : SchedulerOutput) : Except Raised (VerificationPolicy F) :=
  let rows := rowsOf policy.chosen output.scheduledSpecDecodeTokens
  if rows.entries = [] then .ok policy
  else if 64 ≤ policy.pending.entries.length then
    .error (.runtimeError "Adaptive verification feedback queue exceeded 64 steps")
  else .ok { policy with pending := policy.pending.set output.id rows }

/-- What a row teaches: the drafts that were verified and how many of them were accepted. -/
def lesson (policy : VerificationPolicy F) (runnerOutput : ModelRunnerOutput) (requests : OrderedDict String Nat)
    (heap : Nat → Option (Request F)) (rid : String) (row : Feedback) : Option (Nat × Nat) := do
  let request ← heap row.request
  guard (requests.get? rid = some row.request ∧ request.isFinished = false)
  guard ((policy.states row.request).isSome ∧ request.asyncTokensToDiscard = 0)
  let i ← runnerOutput.reqIdToIndex.get? rid
  let tokens ← runnerOutput.sampledTokenIds[i]?
  let k := row.scheduledK
  guard (1 ≤ k ∧ k ≤ 7 ∧ 1 ≤ tokens.length ∧ tokens.length ≤ k + 1)
  guard (row.eligible ∧ request.terminal tokens = false ∧ k = row.cap)
  return (k, tokens.length - 1)

/-- `observe` on the statistics of a request, and the call in the record of calls. -/
def learn (policy : VerificationPolicy F) (calls : List Observed) (ref k accepted : Nat) :
    Except Raised (VerificationPolicy F × List Observed) :=
  match policy.states ref with
  | none => .ok (policy, calls)
  | some state => do
      let stats ← state.stats.observe k accepted
      return ({ policy with states := Function.update policy.states ref (some { state with stats := stats }) },
        calls ++ [⟨ref, k, accepted⟩])

/-- A row of a completed output: its lesson goes to the statistics of its request. -/
def teachRow (runnerOutput : ModelRunnerOutput) (requests : OrderedDict String Nat) (heap : Nat → Option (Request F))
    (state : VerificationPolicy F × List Observed) (entry : String × Feedback) :
    Except Raised (VerificationPolicy F × List Observed) :=
  match state.1.lesson runnerOutput requests heap entry.1 entry.2 with
  | some (k, accepted) => state.1.learn state.2 entry.2.request k accepted
  | none => .ok state

/-- `complete` also returns the calls of `observe` it makes, in their order. -/
def complete (policy : VerificationPolicy F) (id : Nat) (runnerOutput : ModelRunnerOutput)
    (requests : OrderedDict String Nat) (heap : Nat → Option (Request F)) :
    Except Raised (VerificationPolicy F × List Observed) :=
  let rows := (policy.pending.get? id).getD .empty
  let policy := { policy with pending := policy.pending.erase id }
  if runnerOutput.invalidBlockIds ≠ [] then .ok (policy, [])
  else rows.entries.foldlM (teachRow runnerOutput requests heap) (policy, [])

end VerificationPolicy

end Policy

end DgxSpark.Adaptive
