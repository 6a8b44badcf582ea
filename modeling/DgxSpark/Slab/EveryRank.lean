import DgxSpark.Slab.Fleet

/-
This file proves that a block becomes visible only when every rank stored it, and that a failed load
takes its blocks out at once.
-/

namespace DgxSpark.Slab.Fleet

open SlabOffloadingManager FailureAwareScheduler

variable {Key : Type} [DecidableEq Key] {groups workers : Nat} {group : Key → Fin groups}
  {fleet : Fleet Key groups workers}

/-- The completions of a job that are not in the report at a place. -/
def outside (fleet : Fleet Key groups workers) (place job : Nat) : Nat :=
  ∑ worker, fleet.owed job worker + onTheWay (fleet.outbox.eraseIdx place) job

/-- Another report than the one at a place still carries the failure of the job. -/
def FailsElsewhere (fleet : Fleet Key groups workers) (place job : Nat) : Prop :=
  (∃ worker, job ∈ (fleet.gathered worker).failedJobs) ∨
    ∃ report ∈ fleet.outbox.eraseIdx place, job ∈ report.failedJobs

omit [DecidableEq Key] in
/-- Nothing is outside when every worker has reported the job and no other report holds it. -/
theorem outside_eq_zero_iff {place job : Nat} : fleet.outside place job = 0 ↔
    (∀ worker, job ∈ fleet.reported worker ∧ (fleet.gathered worker).count job = 0) ∧
      ∀ report ∈ fleet.outbox.eraseIdx place, report.count job = 0 := by
  have owes : ∀ worker, fleet.owed job worker = 0 ↔
      job ∈ fleet.reported worker ∧ (fleet.gathered worker).count job = 0 := by
    intro worker
    rw [owed]
    by_cases said : job ∈ fleet.reported worker
    · simp [said]
    · simp [said]
  rw [outside, Nat.add_eq_zero_iff, Finset.sum_eq_zero_iff, onTheWay, List.sum_eq_zero_iff]
  simp only [Finset.mem_univ, true_implies, owes, List.forall_mem_map]

/-- The failures of a report are marked before its completions are counted. -/
theorem Sound.marked (sound : fleet.Sound group) {place : Nat} {report : WorkerMetadata} {failed : List Nat}
    (here : fleet.outbox[place]? = some report) (listed : failed.toFinset = report.failedJobs) :
    During group fleet.scheduler.jobs fleet.scheduler.jobCounter fleet.failed fleet.specs
      (fleet.outside place) (fleet.FailsElsewhere place) (taken fleet.scheduler failed ++ fleet.dropped)
      report.completedJobs.entries (failed.foldl (markFailed group) fleet.scheduler) := by
  have mine := sound.outbox report ((mem_of_mem_eraseIdx here).mpr (.inl rfl))
  have others : ∀ other ∈ fleet.outbox.eraseIdx place, other.Carries fleet.scheduler.jobCounter fleet.failed :=
    fun other inside => sound.outbox other ((mem_of_mem_eraseIdx here).mpr (.inr inside))
  have named : ∀ job, job ∈ failed ↔ job ∈ report.failedJobs := fun job => by
    rw [← listed, List.mem_toFinset]
  obtain ⟨issued, stale⟩ := markAll_counters group failed fleet.scheduler
  constructor
  · exact stale.trans sound.stale
  · exact issued
  · rw [markAll_jobs]
    exact Books.markAll failed fleet.scheduler sound.books fun job inside =>
      (mine.failures job ((named job).mp inside)).2
  · intro job known
    rw [markAll_jobs, sound.tallied job known, expected, onTheWay_eraseIdx here, outside]
    change _ = _ + ((report.count job : Nat) : Int)
    push_cast
    ring
  · intro job status found isStore bad
    rw [markAll_jobs] at found
    have mark : (∀ key ∈ status.keys, key ∈ fleet.scheduler.manager.failedStore) ∨ job ∈ failed →
        ∀ key ∈ status.keys, key ∈ (failed.foldl (markFailed group) fleet.scheduler).manager.failedStore := by
      rintro (old | now) key inside
      · exact (markAll_marks failed fleet.scheduler key).mpr (.inl (old key inside))
      · exact (markAll_marks failed fleet.scheduler key).mpr (.inr ⟨job, now, status, found, isStore, inside⟩)
    rcases sound.failures job status found isStore bad with old | gathered | ⟨other, away, inside⟩
    · exact .inl (mark (.inl old))
    · exact .inr (.inl gathered)
    · rcases (mem_of_mem_eraseIdx here).mp away with rfl | rest
      · exact .inl (mark (.inr ((named job).mpr inside)))
      · exact .inr (.inr ⟨other, rest, inside⟩)
  · rintro job (⟨worker, inside⟩ | ⟨other, rest, inside⟩)
    · have some := (sound.gathered worker).count_pos inside
      have part : fleet.owed job worker ≤ ∑ one, fleet.owed job one :=
        Finset.single_le_sum (fun _ _ => Nat.zero_le _) (Finset.mem_univ worker)
      rw [owed] at part
      rw [outside]
      omega
    · have some := (others other rest).count_pos inside
      have part : other.count job ≤ onTheWay (fleet.outbox.eraseIdx place) job :=
        List.le_sum_of_mem (List.mem_map.mpr ⟨other, rest, rfl⟩)
      rw [outside]
      omega
  · intro job status found
    rw [markAll_jobs] at found
    exact ⟨status, found, rfl, rfl⟩
  · intro job status found
    rw [markAll_jobs] at found
    exact .inl found
  · intro job status found _ missing
    rw [markAll_jobs, found] at missing
    cases missing
  · intro key inside shown
    obtain ⟨untaken, before⟩ := (markAll_visible failed fleet.scheduler key).mp shown
    rcases List.mem_append.mp inside with now | old
    · exact absurd now untaken
    · exact absurd before (sound.dropped key old)

/-- A report that arrives never makes the scheduler raise, and the call keeps the invariant. -/
theorem Sound.arrive (sound : fleet.Sound group) {place : Nat} {report : WorkerMetadata} {failed : List Nat}
    (here : fleet.outbox[place]? = some report) (listed : failed.toFinset = report.failedJobs) :
    ∃ scheduler, fleet.scheduler.updateConnectorOutput group report failed = some scheduler ∧
      During group fleet.scheduler.jobs fleet.scheduler.jobCounter fleet.failed fleet.specs
        (fleet.outside place) (fleet.FailsElsewhere place) (taken fleet.scheduler failed ++ fleet.dropped)
        [] scheduler := by
  have mine := sound.outbox report ((mem_of_mem_eraseIdx here).mpr (.inl rfl))
  refine (sound.marked here listed).run report.completedJobs.nodup ?_
  intro entry inside
  have both := mine.completed entry.1 entry.2 (OrderedDict.get?_eq_some_iff.mpr inside)
  exact ⟨both.2, both.1⟩

theorem Sound.deliver (sound : fleet.Sound group) (place : Nat) (failed : List Nat)
    {merge : OrderedDict Nat Nat → OrderedDict Nat Nat → OrderedDict Nat Nat}
    {next : Fleet Key groups workers}
    (step : fleet.step group merge (.deliver place failed) = some next) : next.Sound group := by
  simp only [Fleet.step, Option.bind_eq_some_iff] at step
  obtain ⟨report, here, step⟩ := step
  split at step
  case isFalse => cases step
  case isTrue listing =>
    obtain ⟨scheduler, reached, after⟩ := sound.arrive here listing.2
    rw [reached] at step
    cases step
    have issued := after.issued
    constructor
    · exact after.stale
    · intro job present
      obtain ⟨status, found⟩ := Option.ne_none_iff_exists'.mp present
      obtain ⟨old, begun, -, -⟩ := after.kept job status found
      change job < scheduler.jobCounter
      rw [issued]
      exact sound.below job (begun ▸ Option.some_ne_none _)
    · exact after.books
    · intro job known
      exact after.tallied job (issued ▸ known)
    · intro some job status found
      rcases after.waiting job status found with same | more
      · exact sound.waiting some job status same
      · exact more
    · exact fun worker job inside => issued.symm ▸ sound.reported worker job inside
    · exact fun job inside => issued.symm ▸ sound.failed job inside
    · exact fun worker => issued.symm ▸ sound.gathered worker
    · exact fun other inside =>
        issued.symm ▸ sound.outbox other ((mem_of_mem_eraseIdx here).mpr (.inr inside))
    · exact after.failures
    · intro key inside shown
      obtain ⟨before, unrestored⟩ := List.mem_filter.mp inside
      obtain ⟨job, status, begun, isStore, good, missing, named⟩ := after.gone key before shown
      exact (of_decide_eq_true unrestored) ⟨(job, status), OrderedDict.get?_eq_some_iff.mp begun, isStore, good,
        OrderedDict.get?_eq_none_iff.mp missing, named⟩

theorem step_sound {merge : OrderedDict Nat Nat → OrderedDict Nat Nat → OrderedDict Nat Nat}
    (adds : WorkerMetadata.AddsCounts merge) :
    ∀ (fleet : Fleet Key groups workers) action next, fleet.Sound group →
      fleet.step group merge action = some next → next.Sound group := by
  intro fleet action next sound step
  cases action with
  | lookup key =>
      cases step
      obtain ⟨stored, marks⟩ : (fleet.scheduler.manager.lookup group key).2.inflightStore =
          fleet.scheduler.manager.inflightStore ∧
            (fleet.scheduler.manager.lookup group key).2.failedStore = fleet.scheduler.manager.failedStore := by
        unfold SlabOffloadingManager.lookup
        split
        · exact ⟨rfl, rfl⟩
        · split
          · exact ⟨rfl, rfl⟩
          · exact ⟨rfl, rfl⟩
      exact sound.withManager _ (lookup_custody sound.books.custody key) stored marks
        fun other => (lookup_visible fleet.scheduler.manager key other).mp
  | touch keys =>
      cases step
      exact sound.withManager _ (touch_custody sound.books.custody keys) rfl rfl
        fun other => (touch_visible fleet.scheduler.manager keys other).mp
  | issueStore keys listing => exact sound.issueStore keys listing step
  | issueLoad keys listing => exact sound.issueLoad keys listing step
  | finish worker job success => exact sound.finish worker job success step
  | build worker => exact sound.build worker step
  | merge first second => exact sound.merge first second adds step
  | deliver place failed => exact sound.deliver place failed step

/-- A job that a worker has not reported is still in flight. -/
theorem Sound.waits (sound : fleet.Sound group) {job : Nat} (known : job < fleet.scheduler.jobCounter)
    {worker : Fin workers} (unreported : job ∉ fleet.reported worker) :
    ∃ status, fleet.scheduler.jobs.get? job = some status := by
  rw [← Option.ne_none_iff_exists']
  intro missing
  have tally := sound.tallied job known
  have part : fleet.owed job worker ≤ ∑ one, fleet.owed job one :=
    Finset.single_le_sum (fun _ _ => Nat.zero_le _) (Finset.mem_univ worker)
  rw [owed, if_neg unreported] at part
  rw [pendingOf, missing, expected] at tally
  change (0 : Int) = _ at tally
  omega

/-- A job whose failure is in a report is still in flight. -/
theorem Sound.inFlight (sound : fleet.Sound group) {place job : Nat} {report : WorkerMetadata}
    (here : fleet.outbox[place]? = some report) (bad : job ∈ report.failedJobs) :
    ∃ status, fleet.scheduler.jobs.get? job = some status := by
  rw [← Option.ne_none_iff_exists']
  intro missing
  have mine := sound.outbox report ((mem_of_mem_eraseIdx here).mpr (.inl rfl))
  have some := mine.count_pos bad
  have known : job < fleet.scheduler.jobCounter := by
    by_contra fresh
    rw [mine.count_fresh (not_lt.mp fresh)] at some
    exact lt_irrefl _ some
  have tally := sound.tallied job known
  rw [pendingOf, missing, expected, onTheWay_eraseIdx here] at tally
  change (0 : Int) = _ at tally
  omega

variable (group) in
/-- What one delivered report does to the jobs in flight. -/
structure Delivers (fleet : Fleet Key groups workers) (failed : List Nat)
    (next : Fleet Key groups workers) : Prop where
  last : 0 < workers → ∀ job status, fleet.scheduler.jobs.get? job = some status →
    (next.scheduler.jobs.get? job = none ↔
      (∀ worker, job ∈ fleet.reported worker ∧ (fleet.gathered worker).count job = 0) ∧
        ∀ report ∈ next.outbox, report.count job = 0)
  stored : ∀ job status, fleet.scheduler.jobs.get? job = some status → status.isStore = true →
    next.scheduler.jobs.get? job = none → ∀ key ∈ status.keys,
      (next.scheduler.manager.Visible group key ↔ job ∉ fleet.failed)
  dropped : ∀ job ∈ failed, ∃ status, fleet.scheduler.jobs.get? job = some status ∧
    (status.isStore = false → ∀ key ∈ status.keys, key ∈ next.dropped ∨ fleet.Restored next.scheduler key)

variable (group) in
/-- What holds between the calls: a dropped key is never a hit, and the slots of an open load go to
no store. A job is open as long as one worker has not reported it. -/
structure Guards (fleet : Fleet Key groups workers) : Prop where
  notHit : ∀ key ∈ fleet.dropped, ¬fleet.scheduler.manager.Visible group key ∧
    (fleet.scheduler.manager.lookup group key).1 =
      if fleet.scheduler.manager.inflightStore.get? key = none then .miss else .hitPending
  waiting : ∀ job < fleet.scheduler.jobCounter, ∀ worker, job ∉ fleet.reported worker →
    ∃ status, fleet.scheduler.jobs.get? job = some status
  kept : ∀ job status, fleet.scheduler.jobs.get? job = some status → status.isStore = false →
    ∀ key (slot : Nat), (key, (slot : Int)) ∈ fleet.specs job →
      slot ∉ fleet.scheduler.manager.free (group key) ∧
        ∀ other, group other = group key → fleet.scheduler.manager.inflightStore.get? other ≠ some slot

theorem Sound.guards (sound : fleet.Sound group) : fleet.Guards group where
  notHit key inside := by
    have hidden := sound.dropped key inside
    refine ⟨hidden, ?_⟩
    rw [Visible] at hidden
    unfold SlabOffloadingManager.lookup
    rw [if_neg hidden]
    by_cases idle : fleet.scheduler.manager.inflightStore.get? key = none
    · rw [if_pos idle, if_neg (OrderedDict.get?_eq_none_iff.mp idle)]
    · rw [if_neg idle, if_pos (not_not.mp fun absent => idle (OrderedDict.get?_eq_none_iff.mpr absent))]
  waiting _ known _ unreported := sound.waits known unreported
  kept job status found isLoad key slot inside := by
    have reading : (key, (slot : Int)) ∈ openLoads fleet.scheduler.jobs fleet.specs := by
      refine List.mem_flatMap.mpr ⟨(job, status), OrderedDict.get?_eq_some_iff.mp found, ?_⟩
      rw [loadsOf, if_neg (by simp [isLoad])]
      exact inside
    have guard := sound.books.custody.guarded key slot reading
    exact ⟨guard.notFree, guard.notStored⟩

theorem Sound.delivers (sound : fleet.Sound group) {place : Nat} {report : WorkerMetadata} {failed : List Nat}
    (merge : OrderedDict Nat Nat → OrderedDict Nat Nat → OrderedDict Nat Nat)
    (here : fleet.outbox[place]? = some report) (nodup : failed.Nodup)
    (listed : failed.toFinset = report.failedJobs) :
    ∃ next, fleet.step group merge (.deliver place failed) = some next ∧ fleet.Delivers group failed next := by
  obtain ⟨scheduler, reached, after⟩ := sound.arrive here listed
  simp only [Fleet.step, here, Option.bind_some, nodup, listed, true_and, if_true, reached, Option.map_some]
  refine ⟨_, rfl, ?_, ?_, ?_⟩
  · intro some job status found
    have tally := after.tallied job (sound.below job (found ▸ Option.some_ne_none _))
    rw [← outside_eq_zero_iff]
    cases present : scheduler.jobs.get? job with
    | none =>
        rw [pendingOf, present] at tally
        change (0 : Int) = _ + ((0 : Nat) : Int) at tally
        simp only [true_iff]
        omega
    | some left =>
        rw [During.pendingOf_some present] at tally
        change left.pendingCount = _ + ((0 : Nat) : Int) at tally
        have more : 0 < left.pendingCount := by
          rcases after.waiting job left present with same | more
          · exact sound.waiting some job left same
          · exact more
        simp only [reduceCtorEq, false_iff]
        omega
  · intro job status found isStore missing key inside
    exact (after.settled job status found isStore missing key inside).2
  · intro job bad
    obtain ⟨status, found⟩ := sound.inFlight here (listed ▸ List.mem_toFinset.mpr bad)
    refine ⟨status, found, fun isLoad key inside => ?_⟩
    have gone : key ∈ taken fleet.scheduler failed := by
      refine List.mem_flatMap.mpr ⟨job, bad, ?_⟩
      rw [takenBy, found]
      simpa [isLoad] using inside
    by_cases restored : fleet.Restored scheduler key
    · exact .inr restored
    · exact .inl (List.mem_filter.mpr ⟨List.mem_append.mpr (.inl gone), decide_eq_true restored⟩)

/-- For every number of workers, and every order and batching of their reports: no report makes the
scheduler raise; the keys of a store become visible with its last report if and only if no worker
failed it; the keys of a failed load leave the index, are no hit until a store of them completes,
and their slots go to no store as long as a worker still has the load. -/
theorem visible_only_when_stored {merge : OrderedDict Nat Nat → OrderedDict Nat Nat → OrderedDict Nat Nat}
    (adds : WorkerMetadata.AddsCounts merge) (counts : Fin groups → Nat) (epoch : Int)
    (header : Fin groups → Nat → Option (Nat × Key)) (actions : List (FleetAction Key workers))
    (fleet : Fleet Key groups workers)
    (reached : Run.run (Fleet.step group merge) (opened counts epoch header) actions = some fleet) :
    fleet.Guards group ∧
      ∀ place report failed, fleet.outbox[place]? = some report → failed.Nodup →
        failed.toFinset = report.failedJobs →
          ∃ next, fleet.step group merge (.deliver place failed) = some next ∧
            fleet.Delivers group failed next := by
  have sound := Run.run_invariant (step_sound adds) (opened_sound counts epoch header) reached
  exact ⟨sound.guards, fun place report failed here nodup listed => sound.delivers merge here nodup listed⟩

/-- A base `aggregate` that adds the counts entry by entry. -/
def addCounts (first second : OrderedDict Nat Nat) : OrderedDict Nat Nat :=
  second.entries.foldl (fun dict entry => dict.set entry.1 ((dict.get? entry.1).getD 0 + entry.2)) first

theorem addCounts_adds : WorkerMetadata.AddsCounts addCounts := by
  intro first second job
  have each : ∀ (entries : List (Nat × Nat)) (start : OrderedDict Nat Nat), (entries.map Prod.fst).Nodup →
      (entries.foldl (fun dict entry => dict.set entry.1 ((dict.get? entry.1).getD 0 + entry.2)) start).get? job =
        Option.merge (fun here there => here + there) (start.get? job) (entries.lookup job) := by
    intro entries
    induction entries with
    | nil => exact fun start _ => Option.merge_none_right.symm
    | cons entry tail ih =>
        intro start nodup
        rw [List.map_cons, List.nodup_cons] at nodup
        rw [List.foldl_cons, ih _ nodup.2, OrderedDict.get?_set, List.lookup_cons]
        by_cases same : job = entry.1
        · subst same
          have absent : tail.lookup entry.1 = none := by
            rw [List.lookup_eq_none_iff]
            intro other inside
            have different : entry.1 ≠ other.1 := fun equal =>
              nodup.1 (List.mem_map.mpr ⟨other, inside, equal.symm⟩)
            simpa using different
          cases start.get? entry.1 with
          | none => simp [absent]
          | some here => simp [absent]
        · have unequal : (job == entry.1) = false := by simpa using same
          rw [if_neg same, unequal]
  exact each second.entries first second.nodup

/-- Two workers store key 7; two loads of it fail on worker 0, and 7 is being stored again in
between. -/
def failedWhileStored : List (FleetAction Nat 2) :=
  [.issueStore [7] [7], .finish 0 0 true, .finish 1 0 true, .build 0, .build 1, .merge 0 0, .deliver 0 [],
    .issueLoad [7] [7], .issueLoad [7] [7], .finish 0 1 false, .build 0, .deliver 0 [1],
    .issueStore [7] [7], .finish 0 2 false, .build 0]

/-- The second failure is processed, no store of the key has completed since the first one, and a
lookup of the key is pending. -/
theorem lookup_pending_failedWhileStored :
    ∃ fleet next : Fleet Nat 1 2,
      Run.run (Fleet.step Desk.loneGroup addCounts) (opened (fun _ => 2) 0 fun _ _ => none) failedWhileStored =
        some fleet ∧
      fleet.step Desk.loneGroup addCounts (.deliver 0 [2]) = some next ∧
      fleet.scheduler.jobs.get? 2 = some ⟨2, [7], false⟩ ∧ 7 ∈ next.dropped ∧
      (next.scheduler.manager.lookup Desk.loneGroup 7).1 ≠ .miss := by
  refine ⟨_, _, rfl, rfl, rfl, ?_, ?_⟩
  · decide
  · decide

theorem visible_only_when_stored_failedWhileStored :
    ∃ fleet : Fleet Nat 1 2,
      Run.run (Fleet.step Desk.loneGroup addCounts) (opened (fun _ => 2) 0 fun _ _ => none) failedWhileStored =
        some fleet ∧ fleet.Guards Desk.loneGroup ∧
          ∃ next, fleet.step Desk.loneGroup addCounts (.deliver 0 [2]) = some next ∧
            fleet.Delivers Desk.loneGroup [2] next := by
  obtain ⟨fleet, reached⟩ : ∃ fleet : Fleet Nat 1 2, Run.run (Fleet.step Desk.loneGroup addCounts)
      (opened (fun _ => 2) 0 fun _ _ => none) failedWhileStored = some fleet := ⟨_, rfl⟩
  obtain ⟨guards, arrives⟩ := visible_only_when_stored addCounts_adds (fun _ => 2) 0 (fun _ _ => none)
    failedWhileStored fleet reached
  cases reached
  exact ⟨_, rfl, guards, arrives 0 _ [2] rfl (by decide) (by decide)⟩

end DgxSpark.Slab.Fleet
