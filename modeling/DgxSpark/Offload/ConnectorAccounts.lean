import DgxSpark.Offload.ConnectorMoves

/-
This file keeps account of the jobs over the moves of the tables: each job that was issued is there with the reports that
are still due, or has ended with one call to the manager, or is from before a reset.
-/

namespace DgxSpark.Offload
open DgxSpark.Library

variable {config : SchedulerOffloadConfig} {ReqId Key : Type}

/-- The job that a call ends. -/
def ManagerCall.job? : ManagerCall ReqId Key → Option Nat
  | .completeStore jobId _ _ => some jobId
  | .completeLoad jobId _ _ => some jobId
  | .onRequestFinished _ => none
  | .resetCache => none

@[simp] theorem ManagerCall.job?_ending (jobId : Nat) (job : TransferJobStatus ReqId Key) :
    (ManagerCall.ending jobId job).job? = some jobId := by
  unfold ending
  split <;> rfl

/-- The call of a job does not read its count. -/
theorem ManagerCall.ending_count (jobId : Nat) (job : TransferJobStatus ReqId Key) (pendingCount : Nat) :
    ManagerCall.ending jobId { job with pendingCount := pendingCount } = ending jobId job := rfl

namespace History

/-- The workers that have reported a job. -/
def reported (history : History ReqId Key) (jobId : Nat) : Nat :=
  ((history.reports.filter (·.1 = jobId)).map Prod.snd).sum

theorem reported_append (first second : History ReqId Key) (jobId : Nat) :
    (first.append second).reported jobId = first.reported jobId + second.reported jobId := by
  simp [reported, append]

theorem reported_none {history : History ReqId Key} (none : history.reports = []) (jobId : Nat) :
    history.reported jobId = 0 := by
  simp [reported, none]

theorem reported_one (issued : List (Nat × TransferJobStatus ReqId Key)) (calls : List (ManagerCall ReqId Key))
    (jobId count other : Nat) :
    (⟨issued, [(jobId, count)], calls⟩ : History ReqId Key).reported other = if other = jobId then count else 0 := by
  unfold reported
  by_cases same : jobId = other
  · simp [same]
  · simp [same, Ne.symm same]

/-- The jobs that have been ended toward the manager. -/
def ended (history : History ReqId Key) : List Nat := history.calls.filterMap ManagerCall.job?

theorem ended_append (first second : History ReqId Key) :
    (first.append second).ended = first.ended ++ second.ended := List.filterMap_append ..

end History

/-- The account of the jobs. -/
structure Accounts (books : Books config ReqId Key) (history : History ReqId Key) : Prop where
  ids : (history.issued.map Prod.fst).Nodup
  range : ∀ entry ∈ history.issued, entry.1 < books.scheduler.jobCounter
  whole : ∀ entry ∈ history.issued, entry.2.pendingCount = config.numWorkers
  live : ∀ jobId job, books.scheduler.jobs.get? jobId = some job → ∃ first, (jobId, first) ∈ history.issued ∧
    job = { first with pendingCount := job.pendingCount } ∧
      job.pendingCount + history.reported jobId = config.numWorkers ∧ jobId ∉ history.ended
  unseen : ∀ jobId, books.scheduler.jobCounter ≤ jobId → history.reported jobId = 0 ∧ jobId ∉ history.ended
  made : ∀ call ∈ history.calls, ∀ jobId ∈ call.job?, ∃ first, (jobId, first) ∈ history.issued ∧
    call = .ending jobId first ∧ history.reported jobId = config.numWorkers
  once : history.ended.Nodup
  settled : ∀ entry ∈ history.issued, entry.1 ∈ history.ended ∨ entry.1 < books.stale ∨
    ∃ job, books.scheduler.jobs.get? entry.1 = some job

theorem accounts_empty {finished : ReqId → Bool} : Accounts (⟨⟨.empty, .empty, .empty, 0⟩, finished, 0⟩ : Books config ReqId Key) .empty where
  ids := List.nodup_nil
  range _ member := by cases member
  whole _ member := by cases member
  live _ _ found := by cases found
  unseen _ _ := ⟨rfl, List.not_mem_nil⟩
  made _ member := by cases member
  once := List.nodup_nil
  settled _ member := by cases member

variable {first last : Books config ReqId Key} {earlier later : History ReqId Key}

/-- A move that issues, counts and ends nothing keeps the account. -/
theorem Accounts.idle (accounts : Accounts first earlier) (jobs : last.scheduler.jobs = first.scheduler.jobs)
    (counter : last.scheduler.jobCounter = first.scheduler.jobCounter) (stale : last.stale = first.stale)
    (issued : later.issued = []) (reports : later.reports = []) (quiet : later.ended = []) :
    Accounts last (earlier.append later) := by
  have sum : ∀ jobId, (earlier.append later).reported jobId = earlier.reported jobId := by
    intro jobId
    rw [History.reported_append, History.reported_none reports, Nat.add_zero]
  have gone : (earlier.append later).ended = earlier.ended := by
    rw [History.ended_append, quiet, List.append_nil]
  have same : (earlier.append later).issued = earlier.issued := by
    rw [History.append, issued, List.append_nil]
  have calls : ∀ call ∈ (earlier.append later).calls, ∀ jobId ∈ call.job?, call ∈ earlier.calls := by
    intro call member jobId here
    rcases List.mem_append.mp member with member | member
    · exact member
    · have inside : jobId ∈ later.ended := List.mem_filterMap.mpr ⟨call, member, here⟩
      rw [quiet] at inside
      cases inside
  constructor
  · rw [same]
    exact accounts.ids
  · rw [same, counter]
    exact accounts.range
  · rw [same]
    exact accounts.whole
  · simpa only [jobs, same, sum, gone] using accounts.live
  · simpa only [counter, sum, gone] using accounts.unseen
  · intro call member jobId here
    simpa only [same, sum] using accounts.made call (calls call member jobId here) jobId here
  · rw [gone]
    exact accounts.once
  · simpa only [same, gone, stale, jobs] using accounts.settled

/-- A new job has all its reports before it. -/
theorem Accounts.issue (accounts : Accounts first earlier) {job : TransferJobStatus ReqId Key}
    (whole : job.pendingCount = config.numWorkers)
    (jobs : last.scheduler.jobs = first.scheduler.jobs.set first.scheduler.jobCounter job)
    (counter : last.scheduler.jobCounter = first.scheduler.jobCounter + 1) (stale : last.stale = first.stale) :
    Accounts last (earlier.append ⟨[(first.scheduler.jobCounter, job)], [], []⟩) := by
  have sum : ∀ jobId, (earlier.append ⟨[(first.scheduler.jobCounter, job)], [], []⟩).reported jobId =
      earlier.reported jobId := by
    intro jobId
    have none : (⟨[(first.scheduler.jobCounter, job)], [], []⟩ : History ReqId Key).reported jobId = 0 :=
      History.reported_none rfl jobId
    rw [History.reported_append, none, Nat.add_zero]
  have gone : (earlier.append ⟨[(first.scheduler.jobCounter, job)], [], []⟩).ended = earlier.ended := by
    rw [History.ended_append]
    exact List.append_nil _
  have split : ∀ entry, entry ∈ (earlier.append ⟨[(first.scheduler.jobCounter, job)], [], []⟩).issued ↔
      entry ∈ earlier.issued ∨ entry = (first.scheduler.jobCounter, job) := by
    intro entry
    rw [History.append, List.mem_append, List.mem_singleton]
  have fresh : first.scheduler.jobCounter ∉ earlier.issued.map Prod.fst := by
    intro member
    obtain ⟨entry, inside, same⟩ := List.mem_map.mp member
    have below := accounts.range entry inside
    omega
  constructor
  · rw [History.append, List.map_append, List.nodup_append]
    refine ⟨accounts.ids, by simp, ?_⟩
    rintro jobId member other here rfl
    simp only [List.map_cons, List.map_nil, List.mem_singleton] at here
    exact fresh (here ▸ member)
  · intro entry member
    rw [counter]
    rcases (split entry).mp member with before | rfl
    · exact Nat.lt_succ_of_lt (accounts.range entry before)
    · exact Nat.lt_succ_self _
  · intro entry member
    rcases (split entry).mp member with before | rfl
    · exact accounts.whole entry before
    · exact whole
  · intro jobId found present
    rw [sum, gone]
    rw [jobs] at present
    rcases OrderedDict.get?_set_cases present with ⟨rfl, rfl⟩ | ⟨_, present⟩
    · obtain ⟨none, apart⟩ := accounts.unseen _ (Nat.le_refl _)
      exact ⟨found, (split _).mpr (.inr rfl), rfl, by rw [none, whole, Nat.add_zero], apart⟩
    · obtain ⟨original, member, same, rest⟩ := accounts.live jobId found present
      exact ⟨original, (split _).mpr (.inl member), same, rest⟩
  · intro jobId above
    rw [counter] at above
    rw [sum, gone]
    exact accounts.unseen jobId (Nat.le_of_succ_le above)
  · intro call member jobId here
    rw [History.append] at member
    simp only [List.append_nil] at member
    obtain ⟨original, inside, same, rest⟩ := accounts.made call member jobId here
    rw [sum]
    exact ⟨original, (split _).mpr (.inl inside), same, rest⟩
  · rw [gone]
    exact accounts.once
  · intro entry member
    rw [gone, stale, jobs]
    rcases (split entry).mp member with before | rfl
    · rcases accounts.settled entry before with ended | old | ⟨found, present⟩
      · exact .inl ended
      · exact .inr (.inl old)
      · refine .inr (.inr ⟨found, ?_⟩)
        rw [OrderedDict.get?_set_of_ne _ _ (Nat.ne_of_lt (accounts.range entry before)), present]
    · exact .inr (.inr ⟨job, OrderedDict.get?_set_self _ _ _⟩)

/-- Some reports of a job count. -/
theorem Accounts.count (accounts : Accounts first earlier) {jobId count : Nat} {job : TransferJobStatus ReqId Key}
    (found : first.scheduler.jobs.get? jobId = some job) (part : count < job.pendingCount)
    (below : jobId < first.scheduler.jobCounter)
    (jobs : last.scheduler.jobs =
      first.scheduler.jobs.set jobId { job with pendingCount := job.pendingCount - count })
    (counter : last.scheduler.jobCounter = first.scheduler.jobCounter) (stale : last.stale = first.stale) :
    Accounts last (earlier.append ⟨[], [(jobId, count)], []⟩) := by
  have sum : ∀ other, (earlier.append ⟨[], [(jobId, count)], []⟩).reported other =
      earlier.reported other + if other = jobId then count else 0 := by
    intro other
    rw [History.reported_append, History.reported_one]
  have gone : (earlier.append ⟨[], [(jobId, count)], []⟩).ended = earlier.ended := by
    rw [History.ended_append]
    exact List.append_nil _
  have same : (earlier.append ⟨[], [(jobId, count)], []⟩).issued = earlier.issued := List.append_nil _
  obtain ⟨original, inside, kept, due, open'⟩ := accounts.live jobId job found
  constructor
  · rw [same]
    exact accounts.ids
  · rw [same, counter]
    exact accounts.range
  · rw [same]
    exact accounts.whole
  · intro other here present
    rw [same, sum, gone]
    rw [jobs] at present
    rcases OrderedDict.get?_set_cases present with ⟨rfl, rfl⟩ | ⟨different, present⟩
    · refine ⟨original, inside, ?_, ?_, open'⟩
      · rw [kept]
      · rw [if_pos rfl]
        show job.pendingCount - count + _ = _
        omega
    · rw [if_neg different]
      exact accounts.live other here present
  · intro other above
    rw [counter] at above
    rw [sum, gone, if_neg (Nat.ne_of_gt (below.trans_le above))]
    exact accounts.unseen other above
  · intro call member other here
    simp only [History.append, List.append_nil] at member
    obtain ⟨first', inside', made, all⟩ := accounts.made call member other here
    have ended : other ∈ earlier.ended := List.mem_filterMap.mpr ⟨call, member, here⟩
    rw [same, sum, if_neg (fun equal : other = jobId => open' (equal ▸ ended))]
    exact ⟨first', inside', made, all⟩
  · rw [gone]
    exact accounts.once
  · intro entry member
    rw [same] at member
    rw [gone, stale, jobs]
    rcases accounts.settled entry member with ended | old | ⟨here, present⟩
    · exact .inl ended
    · exact .inr (.inl old)
    · refine .inr (.inr ?_)
      rw [OrderedDict.get?_set]
      split
      · exact ⟨_, rfl⟩
      · exact ⟨here, present⟩

/-- The last report of a job ends it toward the manager, with what it was issued for. -/
theorem Accounts.finish (accounts : Accounts first earlier) {jobId : Nat} {job : TransferJobStatus ReqId Key}
    {calls : List (ManagerCall ReqId Key)} (found : first.scheduler.jobs.get? jobId = some job)
    (below : jobId < first.scheduler.jobCounter) (jobs : last.scheduler.jobs = first.scheduler.jobs.erase jobId)
    (counter : last.scheduler.jobCounter = first.scheduler.jobCounter) (stale : last.stale = first.stale)
    (quiet : calls.filterMap ManagerCall.job? = []) :
    Accounts last (earlier.append ⟨[], [(jobId, job.pendingCount)], .ending jobId job :: calls⟩) := by
  have sum : ∀ other, (earlier.append ⟨[], [(jobId, job.pendingCount)], .ending jobId job :: calls⟩).reported other =
      earlier.reported other + if other = jobId then job.pendingCount else 0 := by
    intro other
    rw [History.reported_append, History.reported_one]
  have gone : (earlier.append ⟨[], [(jobId, job.pendingCount)], .ending jobId job :: calls⟩).ended =
      earlier.ended ++ [jobId] := by
    rw [History.ended_append]
    refine congrArg _ ?_
    simp [History.ended, quiet]
  have same : (earlier.append ⟨[], [(jobId, job.pendingCount)], .ending jobId job :: calls⟩).issued = earlier.issued :=
    List.append_nil _
  obtain ⟨original, inside, kept, due, open'⟩ := accounts.live jobId job found
  constructor
  · rw [same]
    exact accounts.ids
  · rw [same, counter]
    exact accounts.range
  · rw [same]
    exact accounts.whole
  · intro other here present
    rw [jobs, OrderedDict.get?_erase] at present
    split at present
    · cases present
    · rename_i different
      rw [same, sum, gone, if_neg different]
      obtain ⟨first', inside', made, rest, out⟩ := accounts.live other here present
      refine ⟨first', inside', made, rest, fun member => ?_⟩
      rcases List.mem_append.mp member with member | member
      · exact out member
      · exact different (List.mem_singleton.mp member)
  · intro other above
    rw [counter] at above
    have different : other ≠ jobId := Nat.ne_of_gt (below.trans_le above)
    obtain ⟨none, out⟩ := accounts.unseen other above
    rw [sum, gone, if_neg different]
    refine ⟨none, fun member => ?_⟩
    rcases List.mem_append.mp member with member | member
    · exact out member
    · exact different (List.mem_singleton.mp member)
  · intro call member other here
    rw [same, sum]
    rcases List.mem_append.mp member with member | member
    · obtain ⟨first', inside', made, all⟩ := accounts.made call member other here
      have ended : other ∈ earlier.ended := List.mem_filterMap.mpr ⟨call, member, here⟩
      rw [if_neg (fun equal : other = jobId => open' (equal ▸ ended))]
      exact ⟨first', inside', made, all⟩
    · rcases List.mem_cons.mp member with rfl | member
      · rw [ManagerCall.job?_ending, Option.mem_some] at here
        subst here
        refine ⟨original, inside, ?_, ?_⟩
        · rw [kept, ManagerCall.ending_count]
        · rw [if_pos rfl]
          omega
      · have quietly : other ∈ calls.filterMap ManagerCall.job? := List.mem_filterMap.mpr ⟨call, member, here⟩
        rw [quiet] at quietly
        cases quietly
  · rw [gone, List.nodup_append]
    refine ⟨accounts.once, List.nodup_singleton _, ?_⟩
    rintro other member _ here rfl
    exact open' (List.mem_singleton.mp here ▸ member)
  · intro entry member
    rw [same] at member
    rw [gone, stale, jobs]
    rcases accounts.settled entry member with ended | old | ⟨here, present⟩
    · exact .inl (List.mem_append_left _ ended)
    · exact .inr (.inl old)
    · by_cases equal : entry.1 = jobId
      · exact .inl (List.mem_append_right _ (List.mem_singleton.mpr equal))
      · exact .inr (.inr ⟨here, by rw [OrderedDict.get?_erase_of_ne _ equal, present]⟩)

/-- After a reset all jobs of before are from before a reset. -/
theorem Accounts.reset (accounts : Accounts first earlier) (jobs : last.scheduler.jobs = .empty)
    (counter : last.scheduler.jobCounter = first.scheduler.jobCounter) (stale : last.stale = first.scheduler.jobCounter)
    {calls : List (ManagerCall ReqId Key)} (quiet : calls.filterMap ManagerCall.job? = []) :
    Accounts last (earlier.append ⟨[], [], calls⟩) := by
  have kept : Accounts (⟨{ first.scheduler with jobs := first.scheduler.jobs }, first.finished, first.stale⟩ :
      Books config ReqId Key) (earlier.append ⟨[], [], calls⟩) := accounts.idle rfl rfl rfl rfl rfl quiet
  constructor
  · exact kept.ids
  · rw [counter]
    exact kept.range
  · exact kept.whole
  · intro jobId job found
    rw [jobs] at found
    cases found
  · rw [counter]
    exact kept.unseen
  · exact kept.made
  · exact kept.once
  · intro entry member
    rw [stale]
    exact .inr (.inl (kept.range entry member))

variable [DecidableEq ReqId]

theorem Move.accounts {history : History ReqId Key} (move : Move first history last) (tracked : first.Tracked)
    (accounts : Accounts first earlier) : Accounts last (earlier.append history) := by
  have quiet : ∀ (last : Bool) (reqId : ReqId),
      (if last then [ManagerCall.onRequestFinished reqId] else []).filterMap (@ManagerCall.job? ReqId Key) = [] := by
    intro last reqId
    cases last <;> rfl
  cases move with
  | kept _ jobs _ counter => exact accounts.idle jobs counter rfl rfl rfl rfl
  | added => exact accounts.idle rfl rfl rfl rfl rfl rfl
  | issued _ _ _ whole _ _ jobs _ counter => exact accounts.issue whole jobs counter rfl
  | counted found part => exact accounts.count found part (tracked.range _ _ found).2 rfl rfl rfl
  | ended found _ _ jobs counter =>
      refine accounts.finish found (tracked.range _ _ found).2 jobs counter rfl ?_
      split <;> rfl
  | @finished scheduler next finished stale reqId calls _ waits called _ jobs counter =>
      refine accounts.idle jobs counter rfl rfl rfl ?_
      cases named : next.transfers reqId with
      | none =>
          rw [called named]
          rfl
      | some ids =>
          rw [(waits ids named).1]
          rfl
  | reset _ _ _ jobs _ counter =>
      refine accounts.reset jobs counter rfl ?_
      rw [List.filterMap_append, List.filterMap_map]
      simp [ManagerCall.job?, Function.comp_def]

theorem Moves.accounts {history : History ReqId Key} (moves : Moves first history last) (tracked : first.Tracked)
    (accounts : Accounts first earlier) : Accounts last (earlier.append history) := by
  induction moves with
  | none => rwa [History.append_empty]
  | step moves move ih =>
      rw [← History.append_assoc]
      exact move.accounts (moves.tracked tracked) ih

end DgxSpark.Offload
