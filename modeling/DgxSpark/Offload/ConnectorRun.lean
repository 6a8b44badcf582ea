import DgxSpark.Library.Run
import DgxSpark.Offload.ConnectorFinals
import DgxSpark.Offload.ConnectorSteps

/-
This file runs the connector: the core scheduler calls it in any order, and its tables, jobs and requests are as they
should be in every state that is reached.
-/

namespace DgxSpark.Offload
open DgxSpark.Library

variable {config : SchedulerOffloadConfig} {ReqId Key Hash Source Target : Type} [DecidableEq ReqId] [DecidableEq Key]

/-- A call of the core scheduler, with the answers of the manager to the calls that it leads to. -/
inductive ConnectorAction (ReqId Key Hash Source Target : Type) where
  | newRequest (reqId : ReqId) (req : Request) (view : RequestView Hash) (maxOffloadTokens : Option Nat)
  | refresh (reqId : ReqId) (req : Request) (blockHashes : List Hash)
  | matched (manager : Key → Option Bool) (reqId : ReqId) (numComputedTokens : Nat)
  | allocated (prepareLoad : List Key → Source) (reqId : ReqId) (blocks : List (List KVCacheBlock))
      (numExternalTokens : Nat)
  | built (prepareStore : ReqId → List Key → Option (PrepareStoreOutput Key Target)) (output : SchedulerOutput ReqId)
  | completed (completedJobs : OrderedDict Nat Nat)
  | finished (reqId : ReqId)
  | reset

/-- What has come of a run: its history, the jobs that the workers were told to flush, and the requests that are
preempted. -/
structure Past (ReqId Key : Type) where
  history : History ReqId Key
  flushed : List Nat
  preempted : List ReqId

namespace ConnectorAction

/-- The reports of a call that count. -/
def reports (stale : Nat) : ConnectorAction ReqId Key Hash Source Target → List (Nat × Nat)
  | .completed completedJobs => completedJobs.entries.filter fun report => stale ≤ report.1
  | _ => []

/-- The requests that resume in a step. -/
def resumed (output : SchedulerOutput ReqId) : List ReqId :=
  (output.reqData.filter fun data => data.2.2).map Prod.fst

/-- The requests that are preempted after a call. -/
def preempted (before : List ReqId) : ConnectorAction ReqId Key Hash Source Target → List ReqId
  | .built _ output => (before ++ output.preemptedReqIds).filter (· ∉ resumed output)
  | _ => before

end ConnectorAction

namespace Connector

section Step

variable (makeOffloadKey : Hash → Nat → Key) (hashBlockSize : Nat) (mambaAlignSize : Option Nat)

/-- A call, with what it says to the manager and the jobs that it has flushed. -/
def step (connector : Connector config ReqId Key Hash Source) : ConnectorAction ReqId Key Hash Source Target →
    Except ConnectorFault (Connector config ReqId Key Hash Source × List (ManagerCall ReqId Key) × List Nat)
  | .newRequest reqId req view maxOffloadTokens => .ok (connector.onNewRequest reqId req view maxOffloadTokens, [], [])
  | .refresh reqId req blockHashes => .ok (connector.refresh reqId req blockHashes, [], [])
  | .matched manager reqId numComputedTokens => do
      let (next, _) ← connector.getNumNewMatchedTokens makeOffloadKey hashBlockSize mambaAlignSize manager reqId
        numComputedTokens
      return (next, [], [])
  | .allocated prepareLoad reqId blocks numExternalTokens => do
      let next ← connector.updateStateAfterAlloc prepareLoad reqId blocks numExternalTokens
      return (next, [], [])
  | .built prepareStore output => do
      let (next, metadata) ← connector.buildConnectorMeta makeOffloadKey hashBlockSize prepareStore output
      return (next, [], metadata.jobsToFlush)
  | .completed completedJobs => do
      let (next, calls) ← connector.updateConnectorOutput completedJobs
      return (next, calls, [])
  | .finished reqId => do
      let (next, calls) ← connector.requestFinished reqId
      return (next, calls, [])
  | .reset => do
      let (next, calls) ← connector.resetCache
      return (next, calls, [])

end Step

/-- The connector as it is made, with the requests as the core scheduler will make them. -/
def start (view : ReqId → RequestView Hash) (blocksBeingLoaded : Option (List Key)) :
    Connector config ReqId Key Hash Source where
  scheduler := ⟨.empty, .empty, .empty, 0⟩
  view := view
  currentBatchLoadJobs := .empty
  currentBatchJobsToFlush := []
  currentBatchAllocatedBlockIds := []
  blocksBeingLoaded := blocksBeingLoaded.map fun _ => []
  staleJobThreshold := 0

end Connector

/-- The past after a call. -/
def Past.after (past : Past ReqId Key) (connector next : Connector config ReqId Key Hash Source)
    (action : ConnectorAction ReqId Key Hash Source Target) (calls : List (ManagerCall ReqId Key)) (flush : List Nat) :
    Past ReqId Key where
  history := past.history.append
    ⟨numbered connector.scheduler next.scheduler, action.reports connector.staleJobThreshold, calls⟩
  flushed := past.flushed ++ flush
  preempted := action.preempted past.preempted

/-- The core scheduler makes a request once, finishes it once, and allocates and schedules only requests that go on. -/
def Orderly (connector : Connector config ReqId Key Hash Source) :
    ConnectorAction ReqId Key Hash Source Target → Prop
  | .newRequest reqId _ _ _ =>
      connector.scheduler.reqStatus.get? reqId = none ∧ (connector.view reqId).isFinished = false
  | .allocated _ reqId _ _ => (connector.view reqId).isFinished = false
  | .built _ output => ∀ reqId ∈ output.numScheduledTokens.keys, (connector.view reqId).isFinished = false
  | .finished reqId => (connector.view reqId).isFinished = false
  | _ => True

section Run

variable (makeOffloadKey : Hash → Nat → Key) (hashBlockSize : Nat) (mambaAlignSize : Option Nat)

/-- The states that runs reach whose calls keep a promise. -/
inductive Reach (promise : Connector config ReqId Key Hash Source → Past ReqId Key →
    ConnectorAction ReqId Key Hash Source Target → Prop) : Connector config ReqId Key Hash Source → Past ReqId Key → Prop
    where
  | start {view : ReqId → RequestView Hash} (fresh : ∀ reqId, (view reqId).isFinished = false)
      (blocksBeingLoaded : Option (List Key)) : Reach promise (Connector.start view blocksBeingLoaded) ⟨.empty, [], []⟩
  | step {connector next : Connector config ReqId Key Hash Source} {past : Past ReqId Key}
      {action : ConnectorAction ReqId Key Hash Source Target} {calls : List (ManagerCall ReqId Key)} {flush : List Nat}
      (reached : Reach promise connector past) (promised : promise connector past action)
      (taken : connector.step makeOffloadKey hashBlockSize mambaAlignSize action = .ok (next, calls, flush)) :
      Reach promise next (past.after connector next action calls flush)

variable {makeOffloadKey hashBlockSize mambaAlignSize} {connector next : Connector config ReqId Key Hash Source}
  {past : Past ReqId Key} {action : ConnectorAction ReqId Key Hash Source Target} {calls : List (ManagerCall ReqId Key)}
  {flush : List Nat}

omit [DecidableEq Key] in
/-- A call that issues nothing numbers nothing. -/
theorem Moves.still {first last : Books config ReqId Key} {reports : List (Nat × Nat)}
    {calls : List (ManagerCall ReqId Key)} (moves : Moves first ⟨[], reports, calls⟩ last) :
    Moves first ⟨numbered first.scheduler last.scheduler, reports, calls⟩ last := by
  rw [numbered_none moves.counter]
  exact moves

/-- Every call is a sequence of moves. -/
theorem step_moves (tracked : connector.books.Tracked) (orderly : Orderly connector action)
    (taken : connector.step makeOffloadKey hashBlockSize mambaAlignSize action = .ok (next, calls, flush)) :
    Moves connector.books
      ⟨numbered connector.scheduler next.scheduler, action.reports connector.staleJobThreshold, calls⟩ next.books := by
  cases action with
  | newRequest reqId req view maxOffloadTokens =>
      cases taken
      exact (Connector.onNewRequest_moves orderly.1 orderly.2 req view maxOffloadTokens).still
  | refresh reqId req blockHashes =>
      cases taken
      exact (Connector.refresh_moves reqId req blockHashes).still
  | matched manager reqId numComputedTokens =>
      obtain ⟨⟨after, numHitTokens⟩, matched, taken⟩ := Library.bind_ok.mp taken
      cases taken
      exact (Connector.getNumNewMatchedTokens_moves matched).still
  | allocated prepareLoad reqId blocks numExternalTokens =>
      obtain ⟨after, loaded, taken⟩ := Library.bind_ok.mp taken
      cases taken
      exact Connector.updateStateAfterAlloc_moves orderly loaded
  | built prepareStore output =>
      obtain ⟨⟨after, metadata⟩, made, taken⟩ := Library.bind_ok.mp taken
      cases taken
      exact Connector.buildConnectorMeta_moves tracked orderly made
  | completed completedJobs =>
      obtain ⟨⟨after, made⟩, reported, taken⟩ := Library.bind_ok.mp taken
      cases taken
      exact (Connector.updateConnectorOutput_moves tracked reported).1.still
  | finished reqId =>
      obtain ⟨⟨after, made⟩, ended, taken⟩ := Library.bind_ok.mp taken
      cases taken
      exact (Connector.requestFinished_moves tracked orderly ended).still
  | reset =>
      obtain ⟨⟨after, made⟩, cleared, taken⟩ := Library.bind_ok.mp taken
      cases taken
      exact (Connector.resetCache_moves cleared).still

/-- What orderly calls keep of the tables, the jobs and the requests. -/
structure Kept (connector : Connector config ReqId Key Hash Source) (past : Past ReqId Key) : Prop where
  tracked : connector.books.Tracked
  accounts : Accounts connector.books past.history
  finals : Finals connector.books past.history.calls

omit [DecidableEq Key] in
theorem kept_start {view : ReqId → RequestView Hash} (fresh : ∀ reqId, (view reqId).isFinished = false)
    (blocksBeingLoaded : Option (List Key)) :
    Kept (Connector.start view blocksBeingLoaded : Connector config ReqId Key Hash Source) ⟨.empty, [], []⟩ where
  tracked := tracked_empty
  accounts := accounts_empty
  finals := by
    have none : (fun reqId => (view reqId).isFinished) = fun _ => false := funext fresh
    rw [Connector.books, Connector.start]
    simp only [none]
    exact finals_empty

/-- An orderly call keeps them. -/
theorem Kept.step (kept : Kept connector past) (orderly : Orderly connector action)
    (taken : connector.step makeOffloadKey hashBlockSize mambaAlignSize action = .ok (next, calls, flush)) :
    Kept next (past.after connector next action calls flush) := by
  have moves := step_moves kept.tracked orderly taken
  exact ⟨moves.tracked kept.tracked, moves.accounts kept.tracked kept.accounts, moves.finals kept.finals⟩

theorem Reach.kept (reached : Reach makeOffloadKey hashBlockSize mambaAlignSize
    (fun connector _ (action : ConnectorAction ReqId Key Hash Source Target) => Orderly connector action) connector past) :
    Kept connector past := by
  induction reached with
  | start fresh blocksBeingLoaded => exact kept_start fresh blocksBeingLoaded
  | step _ orderly taken ih => exact ih.step orderly taken

section Play

variable (makeOffloadKey hashBlockSize mambaAlignSize)

instance (connector : Connector config ReqId Key Hash Source) (action : ConnectorAction ReqId Key Hash Source Target) :
    Decidable (Orderly connector action) := by
  cases action <;> unfold Orderly <;> infer_instance

variable (promise : Connector config ReqId Key Hash Source → Past ReqId Key →
  ConnectorAction ReqId Key Hash Source Target → Prop) [∀ connector past action, Decidable (promise connector past action)]

/-- A call that keeps a promise, with the past that it leaves. -/
def play (state : Connector config ReqId Key Hash Source × Past ReqId Key)
    (action : ConnectorAction ReqId Key Hash Source Target) :
    Option (Connector config ReqId Key Hash Source × Past ReqId Key) :=
  if promise state.1 state.2 action then
    match state.1.step makeOffloadKey hashBlockSize mambaAlignSize action with
    | .ok (next, calls, flush) => some (next, state.2.after state.1 next action calls flush)
    | .error _ => none
  else none

variable {makeOffloadKey hashBlockSize mambaAlignSize promise}

theorem reach_play {view : ReqId → RequestView Hash} (fresh : ∀ reqId, (view reqId).isFinished = false)
    {blocksBeingLoaded : Option (List Key)} {actions : List (ConnectorAction ReqId Key Hash Source Target)}
    {last : Connector config ReqId Key Hash Source × Past ReqId Key}
    (played : Run.run (play makeOffloadKey hashBlockSize mambaAlignSize promise)
      (Connector.start view blocksBeingLoaded, ⟨.empty, [], []⟩) actions = some last) :
    Reach makeOffloadKey hashBlockSize mambaAlignSize promise last.1 last.2 := by
  refine @Run.run_invariant _ _ _ (fun state : Connector config ReqId Key Hash Source × Past ReqId Key =>
    Reach makeOffloadKey hashBlockSize mambaAlignSize promise state.1 state.2)
    (fun state action next reached taken => ?_) _ _ _ (.start fresh blocksBeingLoaded) played
  unfold play at taken
  split at taken
  case isTrue orderly =>
    split at taken
    case h_1 after calls flush stepped =>
      cases taken
      exact .step reached orderly stepped
    case h_2 => cases taken
  case isFalse => cases taken

end Play

end Run

theorem unwindowed_aligned : ∀ count ∈ (none : Option Nat), ∃ window ∈ (none : Option Nat), window < count :=
  fun _ absent => absurd absent (Option.not_mem_none _)

/-- A cache of one group that two workers share. -/
def pairConfig : SchedulerOffloadConfig where
  kvGroupConfigs := [⟨1, none, none, false, Nat.one_pos, unwindowed_aligned⟩]
  blockSizeFactor := 1
  numWorkers := 2
  offloadPromptOnly := false
  factored := Nat.one_pos

/-- A request stores two blocks, and finishes before the workers report. -/
def pairActions : List (ConnectorAction Nat Nat Nat Unit Unit) :=
  [.newRequest 0 ⟨2, 2, 0⟩ ⟨[7, 8], true, false, .blockLevel, 0⟩ none,
    .matched (fun _ => some false) 0 0,
    .built (fun _ keys => some ⟨keys, ()⟩) ⟨[(0, some [[3, 4]], false)], OrderedDict.empty.set 0 2, []⟩,
    .finished 0,
    .completed (OrderedDict.empty.set 0 1),
    .completed (OrderedDict.empty.set 0 1)]

def pairStart : Connector pairConfig Nat Nat Nat Unit × Past Nat Nat :=
  (Connector.start (fun _ => ⟨[], true, false, .blockLevel, 0⟩) none, ⟨.empty, [], []⟩)

/-- The orderly calls of the pair. -/
def pairPlay (state : Connector pairConfig Nat Nat Nat Unit × Past Nat Nat)
    (action : ConnectorAction Nat Nat Nat Unit Unit) : Option (Connector pairConfig Nat Nat Nat Unit × Past Nat Nat) :=
  play (fun hash _ => hash) 1 none (fun connector _ action => Orderly connector action) state action

theorem pair_played : ∃ last, Run.run pairPlay pairStart pairActions = some last ∧
    (last.2.history.ended, last.1.scheduler.jobCounter, last.2.history.calls.filterMap ManagerCall.finished?) =
      ([0], 1, [0]) :=
  Option.map_eq_some_iff.mp (by decide +kernel : (Run.run pairPlay pairStart pairActions).map
    (fun last => (last.2.history.ended, last.1.scheduler.jobCounter,
      last.2.history.calls.filterMap ManagerCall.finished?)) = some ([0], 1, [0]))

section Run

variable {makeOffloadKey : Hash → Nat → Key} {hashBlockSize : Nat} {mambaAlignSize : Option Nat}
  {connector : Connector config ReqId Key Hash Source} {past : Past ReqId Key}

/-- In every state that orderly calls reach, in any order and with any answers of the manager, the jobs, the requests that
name them and the blocks that are watched for them agree. -/
theorem connector_tracked (reached : Reach makeOffloadKey hashBlockSize mambaAlignSize
    (fun connector _ (action : ConnectorAction ReqId Key Hash Source Target) => Orderly connector action) connector past) :
    Tracked connector.scheduler (fun reqId => (connector.view reqId).isFinished) connector.staleJobThreshold :=
  reached.kept.tracked

theorem connector_tracked_pair : ∃ last : Connector pairConfig Nat Nat Nat Unit × Past Nat Nat,
    last.1.scheduler.jobCounter = 1 ∧
      Tracked last.1.scheduler (fun reqId => (last.1.view reqId).isFinished) last.1.staleJobThreshold := by
  obtain ⟨last, played, same⟩ := pair_played
  exact ⟨last, congrArg (fun triple => triple.2.1) same, connector_tracked (reach_play (fun _ => rfl) played)⟩

/-- Each job ends toward the manager at most once, with the keys, the kind and the request that it was issued for, and once
all workers have reported it. A job that has not ended waits for the reports that are left, or is older than a reset. -/
theorem connector_once (reached : Reach makeOffloadKey hashBlockSize mambaAlignSize
    (fun connector _ (action : ConnectorAction ReqId Key Hash Source Target) => Orderly connector action) connector past) :
    past.history.ended.Nodup ∧ (past.history.issued.map Prod.fst).Nodup ∧
      (∀ call ∈ past.history.calls, ∀ jobId ∈ call.job?, ∃ job, (jobId, job) ∈ past.history.issued ∧
        call = .ending jobId job ∧ past.history.reported jobId = config.numWorkers) ∧
      ∀ entry ∈ past.history.issued, entry.1 ∈ past.history.ended ∨ entry.1 < connector.staleJobThreshold ∨
        ∃ job, connector.scheduler.jobs.get? entry.1 = some job ∧ entry.1 ∉ past.history.ended ∧
          job.pendingCount + past.history.reported entry.1 = config.numWorkers := by
  have accounts := reached.kept.accounts
  refine ⟨accounts.once, accounts.ids, accounts.made, fun entry member => ?_⟩
  rcases accounts.settled entry member with ended | old | ⟨job, found⟩
  · exact .inl ended
  · exact .inr (.inl old)
  · obtain ⟨_, _, _, due, out⟩ := accounts.live entry.1 job found
    exact .inr (.inr ⟨job, found, out, due⟩)

theorem connector_once_pair : ∃ last : Connector pairConfig Nat Nat Nat Unit × Past Nat Nat,
    last.2.history.ended = [0] ∧ last.2.history.ended.Nodup := by
  obtain ⟨last, played, same⟩ := pair_played
  exact ⟨last, congrArg Prod.fst same, (connector_once (reach_play (fun _ => rfl) played)).1⟩

/-- The manager hears of each request at most once that it has finished, and of none of its jobs after that. A request that
has finished is named to the manager, or has a job that is still there. -/
theorem connector_finished (reached : Reach makeOffloadKey hashBlockSize mambaAlignSize
    (fun connector _ (action : ConnectorAction ReqId Key Hash Source Target) => Orderly connector action) connector past) :
    (past.history.calls.filterMap ManagerCall.finished?).Nodup ∧ Ordered past.history.calls ∧
      (∀ reqId, .onRequestFinished reqId ∈ past.history.calls → (connector.view reqId).isFinished = true) ∧
        ∀ reqId, (connector.view reqId).isFinished = true → .onRequestFinished reqId ∈ past.history.calls ∨
          ∃ jobId job, connector.scheduler.jobs.get? jobId = some job ∧ job.reqId = reqId := by
  obtain ⟨tracked, _, finals⟩ := reached.kept
  refine ⟨finals.once, finals.ordered, fun reqId called => (finals.called reqId called).1, fun reqId ended => ?_⟩
  cases named : connector.scheduler.transfers reqId with
  | none => exact .inl (finals.due reqId ended named)
  | some ids =>
      obtain ⟨some, fresh⟩ := tracked.waits reqId ids named ended
      obtain ⟨jobId, member⟩ := List.exists_mem_of_ne_nil ids some
      obtain ⟨job, found, own⟩ := tracked.known reqId ids named jobId member (fresh jobId member)
      exact .inr ⟨jobId, job, found, own⟩

theorem connector_finished_pair : ∃ last : Connector pairConfig Nat Nat Nat Unit × Past Nat Nat,
    last.2.history.calls.filterMap ManagerCall.finished? = [0] ∧ Ordered last.2.history.calls := by
  obtain ⟨last, played, same⟩ := pair_played
  exact ⟨last, congrArg (fun triple => triple.2.2) same, (connector_finished (reach_play (fun _ => rfl) played)).2.1⟩

end Run

end DgxSpark.Offload
