import DgxSpark.Offload.ConnectorAccounts

/-
This file keeps account of the requests over the moves of the tables: the manager hears once that a request has finished,
and nothing of its jobs after that.
-/

namespace DgxSpark.Offload
open DgxSpark.Library

variable {config : SchedulerOffloadConfig} {ReqId Key : Type}

/-- The request that a call finishes. -/
def ManagerCall.finished? : ManagerCall ReqId Key → Option ReqId
  | .onRequestFinished reqId => some reqId
  | .completeStore _ _ _ => none
  | .completeLoad _ _ _ => none
  | .resetCache => none

/-- The request whose job a call ends. -/
def ManagerCall.owner? : ManagerCall ReqId Key → Option ReqId
  | .completeStore _ reqId _ => some reqId
  | .completeLoad _ reqId _ => some reqId
  | .onRequestFinished _ => none
  | .resetCache => none

@[simp] theorem ManagerCall.finished?_ending (jobId : Nat) (job : TransferJobStatus ReqId Key) :
    (ManagerCall.ending jobId job).finished? = none := by
  unfold ending
  split <;> rfl

@[simp] theorem ManagerCall.owner?_ending (jobId : Nat) (job : TransferJobStatus ReqId Key) :
    (ManagerCall.ending jobId job).owner? = some job.reqId := by
  unfold ending
  split <;> rfl

theorem ManagerCall.finished?_eq_some {call : ManagerCall ReqId Key} {reqId : ReqId} :
    call.finished? = some reqId ↔ call = .onRequestFinished reqId := by
  cases call <;> simp [finished?]

/-- No job of a request ends after the request. -/
def Ordered (calls : List (ManagerCall ReqId Key)) : Prop :=
  calls.Pairwise fun before after => ∀ reqId, before.finished? = some reqId → after.owner? ≠ some reqId

variable [DecidableEq ReqId]

/-- The account of the requests. -/
structure Finals (books : Books config ReqId Key) (calls : List (ManagerCall ReqId Key)) : Prop where
  called : ∀ reqId, .onRequestFinished reqId ∈ calls →
    books.finished reqId = true ∧ books.scheduler.transfers reqId = none
  due : ∀ reqId, books.finished reqId = true → books.scheduler.transfers reqId = none →
    .onRequestFinished reqId ∈ calls
  once : (calls.filterMap ManagerCall.finished?).Nodup
  ordered : Ordered calls

variable {first last : Books config ReqId Key} {calls more : List (ManagerCall ReqId Key)}

theorem finals_empty : Finals (⟨⟨.empty, .empty, .empty, 0⟩, fun _ => false, 0⟩ : Books config ReqId Key) [] where
  called _ member := by cases member
  due _ ended := by cases ended
  once := List.nodup_nil
  ordered := .nil

/-- The requests that a step finishes are those that are finished and no longer tracked after it, and not before. Their
jobs end before them. -/
theorem Finals.step (finals : Finals first calls)
    (ends : ∀ reqId, .onRequestFinished reqId ∈ more ↔
      (last.finished reqId = true ∧ last.scheduler.transfers reqId = none) ∧
        ¬(first.finished reqId = true ∧ first.scheduler.transfers reqId = none))
    (stays : ∀ reqId, first.finished reqId = true → first.scheduler.transfers reqId = none →
      last.finished reqId = true ∧ last.scheduler.transfers reqId = none)
    (once : (more.filterMap ManagerCall.finished?).Nodup) (ordered : Ordered more)
    (tracked : ∀ call ∈ more, ∀ reqId, call.owner? = some reqId → first.scheduler.transfers reqId ≠ none) :
    Finals last (calls ++ more) := by
  constructor
  · intro reqId member
    rcases List.mem_append.mp member with member | member
    · obtain ⟨ended, gone⟩ := finals.called reqId member
      exact stays reqId ended gone
    · exact ((ends reqId).mp member).1
  · intro reqId ended gone
    by_cases before : first.finished reqId = true ∧ first.scheduler.transfers reqId = none
    · exact List.mem_append_left _ (finals.due reqId before.1 before.2)
    · exact List.mem_append_right _ ((ends reqId).mpr ⟨⟨ended, gone⟩, before⟩)
  · rw [List.filterMap_append, List.nodup_append]
    refine ⟨finals.once, once, ?_⟩
    rintro reqId member other here rfl
    obtain ⟨call, inside, same⟩ := List.mem_filterMap.mp member
    obtain ⟨later, within, also⟩ := List.mem_filterMap.mp here
    rw [ManagerCall.finished?_eq_some] at same also
    exact ((ends reqId).mp (also ▸ within)).2 (finals.called reqId (same ▸ inside))
  · refine List.pairwise_append.mpr ⟨finals.ordered, ordered, ?_⟩
    intro before member after here reqId ended own
    rw [ManagerCall.finished?_eq_some] at ended
    exact tracked after here reqId own (finals.called reqId (ended ▸ member)).2

/-- A step without calls may track requests that go on, and gives none up. -/
theorem Finals.quiet (finals : Finals first calls) (finished : last.finished = first.finished)
    (kept : ∀ reqId, last.scheduler.transfers reqId = none → first.scheduler.transfers reqId = none)
    (goes : ∀ reqId, first.finished reqId = true → first.scheduler.transfers reqId = none →
      last.scheduler.transfers reqId = none) : Finals last calls := by
  have step := @Finals.step config ReqId Key _ first last calls [] finals
  rw [List.append_nil] at step
  refine step (fun reqId => ?_) (fun reqId ended gone => ⟨finished ▸ ended, goes reqId ended gone⟩) List.nodup_nil .nil
    (fun call member => ?_)
  · constructor
    · intro member
      cases member
    · rintro ⟨⟨ended, gone⟩, before⟩
      exact absurd ⟨finished ▸ ended, kept reqId gone⟩ before
  · cases member

theorem Move.finals {history : History ReqId Key} (move : Move first history last) (finals : Finals first calls) :
    Finals last (calls ++ history.calls) := by
  cases move with
  | kept transfers =>
      rw [History.empty, List.append_nil]
      exact finals.quiet rfl (fun reqId gone => (transfers reqId).symm.trans gone)
        (fun reqId _ gone => (transfers reqId).trans gone)
  | @added scheduler finished stale reqId status untracked running =>
      have left := @transfers_set config ReqId Key _ scheduler reqId
      rw [History.empty, List.append_nil]
      refine finals.quiet rfl (fun other gone => ?_) (fun other ended gone => ?_)
      · rw [left] at gone
        split at gone
        · cases gone
        · exact gone
      · have different : other ≠ reqId := by
          rintro rfl
          change finished other = true at ended
          rw [running] at ended
          cases ended
        rw [left, if_neg different]
        exact gone
  | @issued scheduler next finished stale reqId ids job named _ _ _ _ transfers =>
      rw [List.append_nil]
      refine finals.quiet rfl (fun other gone => ?_) (fun other _ gone => ?_)
      · change next.transfers other = none at gone
        rw [transfers] at gone
        split at gone
        · cases gone
        · exact gone
      · have different : other ≠ reqId := by
          rintro rfl
          rw [named] at gone
          cases gone
        exact (transfers other).trans ((if_neg different).trans gone)
  | counted =>
      rw [List.append_nil]
      exact finals.quiet rfl (fun _ gone => gone) (fun _ _ gone => gone)
  | @ended scheduler next finished stale jobId job ids found named transfers =>
      have given : ∀ reqId, ManagerCall.onRequestFinished reqId ∈ ManagerCall.ending jobId job ::
          (if ids.erase jobId = [] ∧ finished job.reqId = true then [.onRequestFinished job.reqId] else []) ↔
            reqId = job.reqId ∧ ids.erase jobId = [] ∧ finished job.reqId = true := by
        intro reqId
        have other : ManagerCall.onRequestFinished reqId ≠ .ending jobId job := by
          intro same
          have ends := ManagerCall.finished?_ending jobId job
          rw [← same] at ends
          cases ends
        rw [List.mem_cons, or_iff_right other]
        split
        · rename_i both
          simp [both]
        · rename_i few
          exact iff_of_false List.not_mem_nil fun both => few both.2
      have tail : ∀ call ∈ (if ids.erase jobId = [] ∧ finished job.reqId = true then
          [ManagerCall.onRequestFinished job.reqId] else [] : List (ManagerCall ReqId Key)),
            call = .onRequestFinished job.reqId := by
        intro call member
        split at member
        · exact List.mem_singleton.mp member
        · cases member
      refine finals.step (fun reqId => ?_) (fun reqId ended gone => ⟨ended, ?_⟩) ?_ ?_ ?_
      · rw [given]
        constructor
        · rintro ⟨rfl, none, ended⟩
          refine ⟨⟨ended, ?_⟩, fun before => ?_⟩
          · show next.transfers job.reqId = Option.none
            rw [transfers, if_pos rfl, leftOver, if_pos ⟨none, ended⟩]
          · have gone := before.2
            change scheduler.transfers job.reqId = Option.none at gone
            rw [named] at gone
            cases gone
        · rintro ⟨⟨ended, gone⟩, before⟩
          change next.transfers reqId = Option.none at gone
          rw [transfers] at gone
          split at gone
          case isTrue same =>
            unfold leftOver at gone
            split at gone
            case isTrue both => exact ⟨same, both⟩
            case isFalse => cases gone
          case isFalse => exact absurd ⟨ended, gone⟩ before
      · have different : reqId ≠ job.reqId := by
          rintro rfl
          change scheduler.transfers job.reqId = none at gone
          rw [named] at gone
          cases gone
        exact (transfers reqId).trans ((if_neg different).trans gone)
      · rw [List.filterMap_cons_none (ManagerCall.finished?_ending jobId job)]
        by_cases both : ids.erase jobId = [] ∧ finished job.reqId = true
        · rw [if_pos both]
          exact List.nodup_singleton _
        · rw [if_neg both]
          exact List.nodup_nil
      · refine List.pairwise_cons.mpr ⟨fun after member reqId ended => ?_, ?_⟩
        · rw [ManagerCall.finished?_ending] at ended
          cases ended
        · split
          · exact List.pairwise_singleton _ _
          · exact .nil
      · intro call member reqId own
        rcases List.mem_cons.mp member with rfl | member
        · rw [ManagerCall.owner?_ending, Option.some.injEq] at own
          subst own
          show scheduler.transfers job.reqId ≠ none
          rw [named]
          exact Option.some_ne_none _
        · rw [tail call member] at own
          cases own
  | @finished scheduler next finished stale reqId calls' running waits called transfers =>
      have parts : (next.transfers reqId = none ∧ calls' = [.onRequestFinished reqId]) ∨
          (next.transfers reqId ≠ none ∧ calls' = []) := by
        cases named : next.transfers reqId with
        | none => exact .inl ⟨rfl, called named⟩
        | some ids => exact .inr ⟨Option.some_ne_none _, (waits ids named).1⟩
      have others : ∀ other, other ≠ reqId → next.transfers other = scheduler.transfers other := fun other different =>
        (transfers other).resolve_right fun ended => different ended.1
      have given : ∀ other, ManagerCall.onRequestFinished other ∈ calls' ↔ other = reqId ∧ next.transfers reqId = none := by
        intro other
        rcases parts with ⟨gone, rfl⟩ | ⟨there, rfl⟩
        · simp [gone]
        · simp [there]
      have single : ∀ call ∈ calls', call = .onRequestFinished reqId := by
        intro call member
        rcases parts with ⟨_, rfl⟩ | ⟨_, rfl⟩
        · exact List.mem_singleton.mp member
        · cases member
      refine finals.step (fun other => ?_) (fun other ended gone => ?_) ?_ ?_ ?_
      · rw [given]
        constructor
        · rintro ⟨rfl, gone⟩
          refine ⟨⟨Function.update_self _ _ _, gone⟩, fun before => ?_⟩
          have ended := before.1
          change finished other = true at ended
          rw [running] at ended
          cases ended
        · rintro ⟨⟨ended, gone⟩, before⟩
          by_cases same : other = reqId
          · exact ⟨same, same ▸ gone⟩
          · change Function.update finished reqId true other = true at ended
            rw [Function.update_of_ne same] at ended
            exact absurd ⟨ended, (others other same).symm.trans gone⟩ before
      · have different : other ≠ reqId := by
          rintro rfl
          change finished other = true at ended
          rw [running] at ended
          cases ended
        refine ⟨?_, (others other different).trans gone⟩
        show Function.update finished reqId true other = true
        rw [Function.update_of_ne different]
        exact ended
      · rcases parts with ⟨_, rfl⟩ | ⟨_, rfl⟩
        · exact List.nodup_singleton _
        · exact List.nodup_nil
      · rcases parts with ⟨_, rfl⟩ | ⟨_, rfl⟩
        · exact List.pairwise_singleton _ _
        · exact .nil
      · intro call member other own
        rw [single call member] at own
        cases own
  | @reset scheduler next finished stale ended once all transfers =>
      have given : ∀ reqId, ManagerCall.onRequestFinished reqId ∈
          (ended.map ManagerCall.onRequestFinished ++ [.resetCache] : List (ManagerCall ReqId Key)) ↔ reqId ∈ ended := by
        intro reqId
        simp
      have ownerless : ∀ call ∈ (ended.map ManagerCall.onRequestFinished ++ [.resetCache] : List (ManagerCall ReqId Key)),
          ∀ reqId, call.owner? ≠ some reqId := by
        intro call member reqId own
        rcases List.mem_append.mp member with member | member
        · obtain ⟨other, _, rfl⟩ := List.mem_map.mp member
          cases own
        · rw [List.mem_singleton.mp member] at own
          cases own
      refine finals.step (fun reqId => ?_) (fun reqId done gone => ⟨done, ?_⟩) ?_ ?_ ?_
      · rw [given, all]
        constructor
        · rintro ⟨done, there⟩
          refine ⟨⟨done, (transfers reqId).trans (if_pos done)⟩, fun before => there before.2⟩
        · rintro ⟨⟨done, _⟩, before⟩
          exact ⟨done, fun gone => before ⟨done, gone⟩⟩
      · exact (transfers reqId).trans (if_pos done)
      · rw [List.filterMap_append, List.filterMap_map]
        have same : (ManagerCall.finished? ∘ @ManagerCall.onRequestFinished ReqId Key) = some := rfl
        rw [same, List.filterMap_some, List.filterMap_cons_none rfl, List.filterMap_nil, List.append_nil]
        exact once
      · refine List.pairwise_of_forall_mem_list fun before _ after member reqId _ own => ?_
        exact absurd own (ownerless after member reqId)
      · intro call member reqId own
        exact absurd own (ownerless call member reqId)

theorem Moves.finals {history : History ReqId Key} (moves : Moves first history last) (finals : Finals first calls) :
    Finals last (calls ++ history.calls) := by
  induction moves with
  | none => simpa [History.empty] using finals
  | step _ move ih =>
      have whole := move.finals ih
      rwa [List.append_assoc] at whole

end DgxSpark.Offload
