import Mathlib.Logic.Relation
import DgxSpark.Offload.ConnectorRun

/-
This file shows what a reset leaves behind: a request that goes on keeps the names of its old jobs, and can neither finish
nor be preempted.
-/

namespace DgxSpark.Offload
open DgxSpark.Library

variable {config : SchedulerOffloadConfig} {ReqId Key Hash Source Target : Type} [DecidableEq ReqId]

/-- A request that goes on names a job from before a reset. -/
def Books.Stranded (books : Books config ReqId Key) (reqId : ReqId) : Prop :=
  books.finished reqId = false ∧
    ∃ ids, books.scheduler.transfers reqId = some ids ∧ ∃ jobId ∈ ids, jobId < books.stale

/-- No move takes the name away: reports of the job are not counted. -/
theorem Move.stranded {first last : Books config ReqId Key} {history : History ReqId Key} (move : Move first history last)
    (tracked : first.Tracked) {reqId : ReqId} (stranded : first.Stranded reqId) : last.Stranded reqId := by
  obtain ⟨running, ids, named, jobId, member, below⟩ := stranded
  cases move with
  | kept transfers => exact ⟨running, ids, (transfers reqId).trans named, jobId, member, below⟩
  | @added scheduler finished stale other status untracked =>
      have different : reqId ≠ other := by
        rintro rfl
        rw [untracked] at named
        cases named
      exact ⟨running, ids, by rw [transfers_set, if_neg different, named], jobId, member, below⟩
  | @issued scheduler next finished stale other present job there _ _ _ _ transfers =>
      by_cases same : reqId = other
      · subst same
        rw [there, Option.some.injEq] at named
        refine ⟨running, _, (transfers reqId).trans (if_pos rfl), jobId, ?_, below⟩
        exact List.mem_insert_of_mem (named ▸ member)
      · exact ⟨running, ids, by rw [transfers, if_neg same, named], jobId, member, below⟩
  | counted => exact ⟨running, ids, named, jobId, member, below⟩
  | @ended scheduler next finished stale endedId job present found there transfers =>
      by_cases same : reqId = job.reqId
      · subst same
        rw [there, Option.some.injEq] at named
        -- The job that ends is not older than the reset.
        have kept : jobId ∈ present.erase endedId := by
          refine (List.mem_erase_of_ne ?_).mpr (named ▸ member)
          exact Nat.ne_of_lt (below.trans_le (tracked.range endedId job found).1)
        refine ⟨running, present.erase endedId, ?_, jobId, kept, below⟩
        rw [transfers, if_pos rfl, leftOver, if_neg fun left => absurd left.1 (List.ne_nil_of_mem kept)]
      · exact ⟨running, ids, by rw [transfers, if_neg same, named], jobId, member, below⟩
  | @finished scheduler next finished stale other calls goes waits _ transfers =>
      have different : reqId ≠ other := by
        rintro rfl
        rcases transfers reqId with left | ⟨_, none, _⟩
        · exact absurd ((waits ids (left.trans named)).2.2 jobId member) (Nat.not_le.mpr below)
        · rw [none, Option.some.injEq] at named
          rw [← named] at member
          cases member
      refine ⟨(Function.update_of_ne different _ _).trans running, ids, ?_, jobId, member, below⟩
      rcases transfers reqId with left | ⟨same, _⟩
      · exact left.trans named
      · exact absurd same different
  | reset _ _ transfers =>
      refine ⟨running, ids, ?_, jobId, member, below.trans_le tracked.old⟩
      exact (transfers reqId).trans ((if_neg (ne_true_of_eq_false running)).trans named)

theorem Moves.stranded {first last : Books config ReqId Key} {history : History ReqId Key}
    (moves : Moves first history last) (tracked : first.Tracked) {reqId : ReqId} (stranded : first.Stranded reqId) :
    last.Stranded reqId := by
  induction moves with
  | none => exact stranded
  | step moves move ih => exact move.stranded (moves.tracked tracked) ih

section Reset

variable {connector next : Connector config ReqId Key Hash Source} {calls : List (ManagerCall ReqId Key)}

/-- A reset leaves the names of the jobs that it drops. -/
theorem resetCache_stranded (tracked : connector.books.Tracked) (reset : connector.resetCache = .ok (next, calls))
    {jobId : Nat} {job : TransferJobStatus ReqId Key} (found : connector.scheduler.jobs.get? jobId = some job)
    (running : (connector.view job.reqId).isFinished = false) : next.books.Stranded job.reqId := by
  obtain ⟨ids, named, member⟩ := tracked.owned jobId job found
  have below : jobId < connector.scheduler.jobCounter := (tracked.range jobId job found).2
  unfold Connector.resetCache at reset
  split at reset
  case isTrue => cases reset
  case isFalse =>
    cases reset
    refine ⟨running, ids, ?_, jobId, member, below⟩
    simp only [Connector.books, OffloadingConnectorScheduler.transfers, OrderedDict.get?_filterMap] at named ⊢
    cases status : connector.scheduler.reqStatus.get? job.reqId with
    | none =>
        rw [status] at named
        cases named
    | some status' =>
        rw [status] at named
        simp only [Option.bind_some, running]
        exact named

/-- The jobs of a stranded request are unknown. -/
theorem stranded_unknown (tracked : connector.books.Tracked) {reqId : ReqId} (stranded : connector.books.Stranded reqId) :
    ∃ status first rest, connector.scheduler.reqStatus.get? reqId = some status ∧
      status.transferJobs = first :: rest ∧ connector.scheduler.jobs.get? first = none := by
  obtain ⟨_, ids, named, jobId, member, below⟩ := stranded
  obtain ⟨status, found, same⟩ := Option.map_eq_some_iff.mp named
  cases ids with
  | nil => cases member
  | cons first rest =>
      refine ⟨status, first, rest, found, same, ?_⟩
      have old : first < connector.staleJobThreshold := by
        rcases tracked.uniform reqId _ named with fresh | old
        · exact absurd (fresh jobId member) (Nat.not_le.mpr below)
        · exact old first List.mem_cons_self
      cases there : connector.scheduler.jobs.get? first with
      | none => rfl
      | some job => exact absurd (tracked.range first job there).1 (Nat.not_le.mpr old)

theorem requestFinished_stranded (tracked : connector.books.Tracked) {reqId : ReqId}
    (stranded : connector.books.Stranded reqId) : connector.requestFinished reqId = .error .unknownJob := by
  obtain ⟨status, first, rest, found, named, unknown⟩ := stranded_unknown tracked stranded
  unfold Connector.requestFinished
  simp only [found, named, List.cons_ne_nil, if_false, List.foldlM_cons, Connector.watchJob, unknown]
  rfl

theorem flushPreempted_stranded (tracked : connector.books.Tracked) {reqId : ReqId}
    (stranded : connector.books.Stranded reqId) (flush : List Nat) :
    connector.flushPreempted flush reqId = .error .unknownJob := by
  obtain ⟨status, first, rest, found, named, unknown⟩ := stranded_unknown tracked stranded
  simp only [Connector.flushPreempted, found, checkPending, named, List.head?_cons, unknown]
  rfl

end Reset

section Run

variable [DecidableEq Key] (makeOffloadKey : Hash → Nat → Key) (hashBlockSize : Nat) (mambaAlignSize : Option Nat) (Target)

/-- An orderly call that succeeds. -/
def Onward (connector next : Connector config ReqId Key Hash Source) : Prop :=
  ∃ (action : ConnectorAction ReqId Key Hash Source Target) (calls : List (ManagerCall ReqId Key)) (flush : List Nat),
    Orderly connector action ∧
      connector.step makeOffloadKey hashBlockSize mambaAlignSize action = .ok (next, calls, flush)

variable {makeOffloadKey hashBlockSize mambaAlignSize Target} {connector next last : Connector config ReqId Key Hash Source}

theorem onward_stranded (tracked : connector.books.Tracked) {reqId : ReqId} (stranded : connector.books.Stranded reqId)
    (later : Relation.ReflTransGen (Onward Target makeOffloadKey hashBlockSize mambaAlignSize) connector last) :
    last.books.Tracked ∧ last.books.Stranded reqId := by
  induction later with
  | refl => exact ⟨tracked, stranded⟩
  | tail _ call ih =>
      obtain ⟨action, calls, flush, orderly, taken⟩ := call
      have moves := step_moves ih.1 orderly taken
      exact ⟨moves.tracked ih.1, moves.stranded ih.1 ih.2⟩

end Run

theorem pair_reset : ∃ last, Run.run pairPlay pairStart (pairActions.take 3) = some last ∧
    ((last.1.scheduler.jobs.get? 0).map TransferJobStatus.reqId, (last.1.view 0).isFinished, last.1.resetCache.isOk) =
      (some 0, false, true) :=
  Option.map_eq_some_iff.mp (by decide +kernel : (Run.run pairPlay pairStart (pairActions.take 3)).map
    (fun last => ((last.1.scheduler.jobs.get? 0).map TransferJobStatus.reqId, (last.1.view 0).isFinished,
      last.1.resetCache.isOk)) = some (some 0, false, true))

end DgxSpark.Offload
