import DgxSpark.Slab.Delivery

/-
This file runs the scheduler against all workers, with every order and batching of their reports.
-/

namespace DgxSpark.Slab

open SlabOffloadingManager

variable {Key : Type} [DecidableEq Key] {groups workers : Nat} {group : Key → Fin groups}

/-- A report names issued jobs only, each completed, and its failures are failures of the run. -/
structure WorkerMetadata.Carries (report : WorkerMetadata) (counter : Nat) (failed : Finset Nat) : Prop where
  completed : ∀ job count, report.completedJobs.get? job = some count → 0 < count ∧ job < counter
  failures : ∀ job ∈ report.failedJobs, report.completedJobs.get? job ≠ none ∧ job ∈ failed

namespace WorkerMetadata

variable {report other : WorkerMetadata} {counter : Nat} {failed : Finset Nat}

theorem Carries.count_pos (carries : report.Carries counter failed) {job : Nat}
    (bad : job ∈ report.failedJobs) : 0 < report.count job := by
  obtain ⟨count, found⟩ := Option.ne_none_iff_exists'.mp (carries.failures job bad).1
  rw [WorkerMetadata.count, found]
  exact (carries.completed job count found).1

theorem Carries.count_fresh (carries : report.Carries counter failed) {job : Nat} (fresh : counter ≤ job) :
    report.count job = 0 := by
  cases found : report.completedJobs.get? job with
  | none => rw [WorkerMetadata.count, found]; rfl
  | some count =>
      have known := (carries.completed job count found).2
      omega

theorem Carries.mono (carries : report.Carries counter failed) {later : Nat} {more : Finset Nat}
    (grown : counter ≤ later) (wider : failed ⊆ more) : report.Carries later more where
  completed job count found :=
    have both := carries.completed job count found
    ⟨both.1, both.2.trans_le grown⟩
  failures job bad := ⟨(carries.failures job bad).1, wider (carries.failures job bad).2⟩

theorem empty_carries : WorkerMetadata.empty.Carries counter failed where
  completed _ _ found := absurd found (Option.some_ne_none _).symm
  failures _ bad := absurd bad (Finset.notMem_empty _)

theorem count_empty (job : Nat) : WorkerMetadata.empty.count job = 0 := rfl

theorem count_record (report : WorkerMetadata) (job other : Nat) (success : Bool) :
    (report.record job success).count other = report.count other + if other = job then 1 else 0 := by
  have kept : (report.record job success).completedJobs =
      report.completedJobs.set job (report.count job + 1) := by
    cases success with
    | true => rfl
    | false => rfl
  rw [count, kept, OrderedDict.get?_set]
  by_cases same : other = job
  · subst same
    simp
  · rw [if_neg same, if_neg same]
    rfl

theorem record_failedJobs (report : WorkerMetadata) (job : Nat) (success : Bool) :
    (report.record job success).failedJobs =
      if success then report.failedJobs else insert job report.failedJobs := by
  cases success with
  | true => rfl
  | false => rfl

theorem Carries.record (carries : report.Carries counter failed) {job : Nat} (known : job < counter)
    (success : Bool) :
    (report.record job success).Carries counter (if success then failed else insert job failed) := by
  have kept : (report.record job success).completedJobs =
      report.completedJobs.set job (report.count job + 1) := by
    cases success with
    | true => rfl
    | false => rfl
  constructor
  · intro other count found
    rw [kept, OrderedDict.get?_set] at found
    split at found
    case isTrue same =>
      cases found
      exact ⟨Nat.succ_pos _, same ▸ known⟩
    case isFalse => exact carries.completed other count found
  · intro other bad
    rw [record_failedJobs] at bad
    have present : other = job ∨ other ∈ report.failedJobs → (report.record job success).completedJobs.get? other ≠ none := by
      rintro here
      rw [kept, OrderedDict.get?_set]
      by_cases same : other = job
      · simp [same]
      · rw [if_neg same]
        rcases here with equal | old
        · exact absurd equal same
        · exact (carries.failures other old).1
    cases success with
    | true => exact ⟨present (.inr bad), (carries.failures other bad).2⟩
    | false =>
        rcases Finset.mem_insert.mp bad with same | old
        · exact ⟨present (.inl same), Finset.mem_insert.mpr (.inl same)⟩
        · exact ⟨present (.inr old), Finset.mem_insert_of_mem (carries.failures other old).2⟩

section Aggregate

variable {merge : OrderedDict Nat Nat → OrderedDict Nat Nat → OrderedDict Nat Nat}

theorem count_aggregate (adds : AddsCounts merge) (report other : WorkerMetadata) (job : Nat) :
    (report.aggregate merge other).count job = report.count job + other.count job := by
  rw [count, aggregate, adds, count, count]
  cases report.completedJobs.get? job with
  | none => cases other.completedJobs.get? job with
    | none => rfl
    | some there => simp
  | some here => cases other.completedJobs.get? job with
    | none => rfl
    | some there => rfl

theorem Carries.aggregate (adds : AddsCounts merge) (carries : report.Carries counter failed)
    (others : other.Carries counter failed) : (report.aggregate merge other).Carries counter failed where
  completed job count found := by
    rw [WorkerMetadata.aggregate, adds] at found
    cases here : report.completedJobs.get? job with
    | none =>
        rw [here, Option.merge_none_left] at found
        exact others.completed job count found
    | some first =>
        have known := carries.completed job first here
        cases there : other.completedJobs.get? job with
        | none =>
            rw [here, there] at found
            cases found
            exact known
        | some second =>
            rw [here, there] at found
            cases found
            exact ⟨Nat.add_pos_left known.1 _, known.2⟩
  failures job bad := by
    rw [WorkerMetadata.aggregate, adds]
    rcases Finset.mem_union.mp bad with mine | theirs
    · obtain ⟨present, inside⟩ := carries.failures job mine
      refine ⟨?_, inside⟩
      obtain ⟨count, found⟩ := Option.ne_none_iff_exists'.mp present
      rw [found]
      cases other.completedJobs.get? job with
      | none => exact Option.some_ne_none _
      | some there => exact Option.some_ne_none _
    · obtain ⟨present, inside⟩ := others.failures job theirs
      refine ⟨?_, inside⟩
      obtain ⟨count, found⟩ := Option.ne_none_iff_exists'.mp present
      rw [found]
      cases report.completedJobs.get? job with
      | none => exact Option.some_ne_none _
      | some here => exact Option.some_ne_none _

end Aggregate

end WorkerMetadata

namespace Fleet

/-- What a worker still owes the scheduler for a job: its result, or the report that holds it. -/
def owed (fleet : Fleet Key groups workers) (job : Nat) (worker : Fin workers) : Nat :=
  (if job ∈ fleet.reported worker then 0 else 1) + (fleet.gathered worker).count job

/-- The completions of a job on their way in a list of reports. -/
def onTheWay (outbox : List WorkerMetadata) (job : Nat) : Nat :=
  (outbox.map fun report => report.count job).sum

def expected (fleet : Fleet Key groups workers) (job : Nat) : Nat :=
  ∑ worker, fleet.owed job worker + onTheWay fleet.outbox job

variable (group) in
/-- The scheduler waits for exactly what the workers still owe, and knows or will learn every
failure. -/
structure Sound (fleet : Fleet Key groups workers) : Prop where
  stale : fleet.scheduler.staleJobThreshold = 0
  below : ∀ job, fleet.scheduler.jobs.get? job ≠ none → job < fleet.scheduler.jobCounter
  books : Books group fleet.scheduler.manager fleet.scheduler.jobs fleet.failed fleet.specs
  tallied : ∀ job < fleet.scheduler.jobCounter, pendingOf fleet.scheduler.jobs job = fleet.expected job
  waiting : 0 < workers → ∀ job status, fleet.scheduler.jobs.get? job = some status → 0 < status.pendingCount
  reported : ∀ worker, ∀ job ∈ fleet.reported worker, job < fleet.scheduler.jobCounter
  failed : ∀ job ∈ fleet.failed, job < fleet.scheduler.jobCounter
  gathered : ∀ worker, (fleet.gathered worker).Carries fleet.scheduler.jobCounter fleet.failed
  outbox : ∀ report ∈ fleet.outbox, report.Carries fleet.scheduler.jobCounter fleet.failed
  failures : ∀ job status, fleet.scheduler.jobs.get? job = some status → status.isStore = true →
    job ∈ fleet.failed → (∀ key ∈ status.keys, key ∈ fleet.scheduler.manager.failedStore) ∨
      (∃ worker, job ∈ (fleet.gathered worker).failedJobs) ∨ ∃ report ∈ fleet.outbox, job ∈ report.failedJobs
  dropped : ∀ key ∈ fleet.dropped, ¬fleet.scheduler.manager.Visible group key

variable {fleet : Fleet Key groups workers}

theorem opened_sound (counts : Fin groups → Nat) (epoch : Int)
    (header : Fin groups → Nat → Option (Nat × Key)) :
    (opened counts epoch header : Fleet Key groups workers).Sound group where
  stale := rfl
  below _ present := absurd rfl present
  books := {
    custody := attach_custody group counts epoch header
    storing := fun _ _ found => absurd found (Option.some_ne_none _).symm
    single := fun _ _ _ _ found => absurd found (Option.some_ne_none _).symm
    marked := fun _ mark => absurd mark (Finset.notMem_empty _)
    loading := fun _ _ found => absurd found (Option.some_ne_none _).symm }
  tallied _ known := absurd known (Nat.not_lt_zero _)
  waiting _ _ _ found := absurd found (Option.some_ne_none _).symm
  reported _ _ inside := absurd inside (Finset.notMem_empty _)
  failed _ inside := absurd inside (Finset.notMem_empty _)
  gathered _ := WorkerMetadata.empty_carries
  outbox _ inside := absurd inside List.not_mem_nil
  failures _ _ found := absurd found (Option.some_ne_none _).symm
  dropped _ inside := absurd inside List.not_mem_nil

/-- Nobody has anything to say about a job that is not issued yet. -/
theorem Sound.expected_fresh (sound : fleet.Sound group) :
    fleet.expected fleet.scheduler.jobCounter = workers := by
  have quiet : onTheWay fleet.outbox fleet.scheduler.jobCounter = 0 := by
    apply List.sum_eq_zero
    intro count inside
    obtain ⟨report, present, rfl⟩ := List.mem_map.mp inside
    exact (sound.outbox report present).count_fresh (le_refl _)
  have each : ∀ worker, fleet.owed fleet.scheduler.jobCounter worker = 1 := by
    intro worker
    have unreported : fleet.scheduler.jobCounter ∉ fleet.reported worker := fun inside =>
      absurd (sound.reported worker _ inside) (lt_irrefl _)
    rw [owed, if_neg unreported, (sound.gathered worker).count_fresh (le_refl _)]
  rw [expected, quiet, Finset.sum_congr rfl fun worker _ => each worker]
  simp

/-- A call that keeps custody, the stores in flight, the marks and the index keeps everything. -/
theorem Sound.withManager (sound : fleet.Sound group) (manager : SlabOffloadingManager Key groups)
    (custody : manager.Custody group (openLoads fleet.scheduler.jobs fleet.specs))
    (stored : manager.inflightStore = fleet.scheduler.manager.inflightStore)
    (marks : manager.failedStore = fleet.scheduler.manager.failedStore)
    (shows : ∀ key, manager.Visible group key → fleet.scheduler.manager.Visible group key) :
    ({ fleet with scheduler := { fleet.scheduler with manager := manager } } :
      Fleet Key groups workers).Sound group where
  stale := sound.stale
  below := sound.below
  books := sound.books.withManager custody (fun _ flies => stored ▸ flies) (fun _ mark => marks ▸ mark)
  tallied := sound.tallied
  waiting := sound.waiting
  reported := sound.reported
  failed := sound.failed
  gathered := sound.gathered
  outbox := sound.outbox
  failures job status found isStore bad := by
    rw [marks]
    exact sound.failures job status found isStore bad
  dropped key inside shown := sound.dropped key inside (shows key shown)

/-- A new job that nobody has reported keeps the tallies. -/
theorem Sound.addJob (sound : fleet.Sound group) {manager : SlabOffloadingManager Key groups}
    {listing : List Key} {isStore : Bool} {specs : Nat → List (Key × Int)}
    (books : Books group manager (fleet.scheduler.jobs.set fleet.scheduler.jobCounter ⟨workers, listing, isStore⟩)
      fleet.failed specs)
    (marks : manager.failedStore = fleet.scheduler.manager.failedStore)
    (shows : ∀ key, manager.Visible group key → fleet.scheduler.manager.Visible group key) :
    ({ fleet with
        scheduler := ({ fleet.scheduler with manager := manager } :
          FailureAwareScheduler Key groups).addJob workers listing isStore
        specs := specs } : Fleet Key groups workers).Sound group where
  stale := sound.stale
  below job present := by
    change (fleet.scheduler.jobs.set fleet.scheduler.jobCounter _).get? job ≠ none at present
    change job < fleet.scheduler.jobCounter + 1
    by_cases same : job = fleet.scheduler.jobCounter
    · omega
    · rw [OrderedDict.get?_set_of_ne _ _ same] at present
      have known := sound.below job present
      omega
  books := books
  tallied job known := by
    change pendingOf (fleet.scheduler.jobs.set fleet.scheduler.jobCounter _) job = fleet.expected job
    change job < fleet.scheduler.jobCounter + 1 at known
    by_cases same : job = fleet.scheduler.jobCounter
    · rw [same, During.pendingOf_some (OrderedDict.get?_set_self _ _ _), sound.expected_fresh]
    · rw [pendingOf, OrderedDict.get?_set_of_ne _ _ same]
      exact sound.tallied job (by omega)
  waiting some job status found := by
    change (fleet.scheduler.jobs.set fleet.scheduler.jobCounter _).get? job = _ at found
    rw [OrderedDict.get?_set] at found
    split at found
    · cases found
      exact Int.natCast_pos.mpr some
    · exact sound.waiting some job status found
  reported worker job inside := Nat.lt_succ_of_lt (sound.reported worker job inside)
  failed job inside := Nat.lt_succ_of_lt (sound.failed job inside)
  gathered worker := (sound.gathered worker).mono (Nat.le_succ _) subset_rfl
  outbox report inside := (sound.outbox report inside).mono (Nat.le_succ _) subset_rfl
  failures job status found isStore bad := by
    change (fleet.scheduler.jobs.set fleet.scheduler.jobCounter _).get? job = some status at found
    have known := sound.failed job bad
    rw [OrderedDict.get?_set_of_ne _ _ known.ne] at found
    change (∀ key ∈ status.keys, key ∈ manager.failedStore) ∨ _
    rw [marks]
    exact sound.failures job status found isStore bad
  dropped key inside shown := sound.dropped key inside (shows key shown)

theorem Sound.fresh (sound : fleet.Sound group) :
    fleet.scheduler.jobs.get? fleet.scheduler.jobCounter = none := by
  by_contra present
  exact absurd (sound.below _ present) (lt_irrefl _)

/-! ### Jobs -/

theorem Sound.issueStore (sound : fleet.Sound group) (keys listing : List Key)
    {merge : OrderedDict Nat Nat → OrderedDict Nat Nat → OrderedDict Nat Nat}
    {next : Fleet Key groups workers}
    (step : fleet.step group merge (.issueStore keys listing) = some next) : next.Sound group := by
  have custody := (prepareStore_custody sound.books.custody keys).1
  simp only [Fleet.step] at step
  rcases prepareStore_effect group fleet.scheduler.manager keys with retry |
    ⟨output, manager, stored, nodup, new, marks, flying, shows⟩
  · rw [retry] at step
    cases step
    exact sound
  · rw [stored] at step custody
    dsimp only at step custody
    split at step
    case isTrue nothing =>
      cases step
      have same : ∀ key, manager.inflightStore.get? key ≠ none ↔
          fleet.scheduler.manager.inflightStore.get? key ≠ none := by
        intro key
        rw [flying, nothing]
        simp
      refine ⟨sound.stale, sound.below, ?_, sound.tallied, sound.waiting, sound.reported, sound.failed, sound.gathered,
        sound.outbox, ?_, fun key inside shown => sound.dropped key inside (shows key shown)⟩
      · exact sound.books.withManager custody (fun key flies => (same key).mpr flies) fun _ mark => marks ▸ mark
      · intro job status found isStore bad
        rw [marks]
        exact sound.failures job status found isStore bad
    case isFalse =>
      split at step
      case isTrue listed =>
        cases step
        refine sound.addJob ?_ marks shows
        refine sound.books.addStore sound.fresh _ custody ?_ ?_ marks
        · exact fun key inside => new key (listed.mem_iff.mp inside)
        · intro key
          rw [flying, listed.mem_iff]
      case isFalse => cases step

theorem Sound.issueLoad (sound : fleet.Sound group) (keys listing : List Key)
    {merge : OrderedDict Nat Nat → OrderedDict Nat Nat → OrderedDict Nat Nat}
    {next : Fleet Key groups workers}
    (step : fleet.step group merge (.issueLoad keys listing) = some next) : next.Sound group := by
  have custody := (prepareLoad_custody keys sound.books.custody).1
  obtain ⟨-, -, stored⟩ := prepareLoad_frame group fleet.scheduler.manager keys
  obtain ⟨index, marks⟩ := prepareLoad_index group keys fleet.scheduler.manager
  have pairs : (fleet.scheduler.manager.prepareLoad group keys).1.keys.zip
      (fleet.scheduler.manager.prepareLoad group keys).1.slots =
        keys.map fun key => (key, fleet.scheduler.manager.loadSlot group key) := by
    change keys.zip (keys.map (fleet.scheduler.manager.loadSlot group)) = _
    rw [← List.map_prod_left_eq_zip]
  simp only [Fleet.step] at step
  split at step
  case isTrue listed =>
    cases step
    have named : (keys.map fun key => (key, fleet.scheduler.manager.loadSlot group key)).map Prod.fst = keys := by
      rw [List.map_map]
      exact List.map_id keys
    refine sound.addJob ?_ marks fun key => ?_
    · rw [pairs]
      refine sound.books.addLoad sound.fresh _ custody ?_ stored marks
      rw [named]
      refine List.subperm_of_subset listed.1 fun key inside => ?_
      rw [← List.mem_toFinset, ← listed.2]
      exact List.mem_toFinset.mpr inside
    · rw [Visible, Visible, index]
      exact id
  case isFalse => cases step

/-! ### Reports -/

theorem onTheWay_cons (report : WorkerMetadata) (rest : List WorkerMetadata) (job : Nat) :
    onTheWay (report :: rest) job = report.count job + onTheWay rest job := List.sum_cons

theorem onTheWay_eraseIdx {outbox : List WorkerMetadata} {place : Nat} {report : WorkerMetadata}
    (here : outbox[place]? = some report) (job : Nat) :
    onTheWay outbox job = report.count job + onTheWay (outbox.eraseIdx place) job := by
  obtain ⟨bound, rfl⟩ := List.getElem?_eq_some_iff.mp here
  rw [← onTheWay_cons]
  exact ((List.getElem_cons_eraseIdx_perm bound).map fun report => report.count job).sum_eq.symm

theorem mem_of_mem_eraseIdx {outbox : List WorkerMetadata} {place : Nat} {report other : WorkerMetadata}
    (here : outbox[place]? = some report) :
    other ∈ outbox ↔ other = report ∨ other ∈ outbox.eraseIdx place := by
  obtain ⟨bound, rfl⟩ := List.getElem?_eq_some_iff.mp here
  rw [← List.mem_cons]
  exact (List.getElem_cons_eraseIdx_perm bound).mem_iff.symm

/-- A worker that finishes a job still owes the report of it. -/
theorem Sound.finish (sound : fleet.Sound group) (worker : Fin workers) (job : Nat) (success : Bool)
    {merge : OrderedDict Nat Nat → OrderedDict Nat Nat → OrderedDict Nat Nat}
    {next : Fleet Key groups workers}
    (step : fleet.step group merge (.finish worker job success) = some next) : next.Sound group := by
  simp only [Fleet.step] at step
  split at step
  case isFalse => cases step
  case isTrue allowed =>
    obtain ⟨known, first⟩ := allowed
    cases step
    have wider : fleet.failed ⊆ if success then fleet.failed else insert job fleet.failed := by
      cases success with
      | true => exact subset_rfl
      | false => exact Finset.subset_insert _ _
    constructor
    · exact sound.stale
    · exact sound.below
    · cases success with
      | true => exact sound.books
      | false => exact sound.books.moreFailed job
    · intro other issued
      rw [sound.tallied other issued]
      have each : ∀ one, (if other ∈ Function.update fleet.reported worker
            (insert job (fleet.reported worker)) one then 0 else 1) +
          (Function.update fleet.gathered worker ((fleet.gathered worker).record job success) one).count other =
            fleet.owed other one := by
        intro one
        by_cases same : one = worker
        · subst same
          rw [Function.update_self, Function.update_self, WorkerMetadata.count_record, owed]
          simp only [Finset.mem_insert]
          by_cases this : other = job
          · subst this
            rw [if_pos (.inl rfl), if_pos rfl, if_neg first]
            omega
          · simp only [this, false_or, if_false, add_zero]
        · rw [Function.update_of_ne same, Function.update_of_ne same, owed]
      rw [expected, expected, Finset.sum_congr rfl fun one _ => (each one).symm]
      rfl
    · exact sound.waiting
    · intro one other inside
      by_cases same : one = worker
      · subst same
        dsimp only at inside
        rw [Function.update_self] at inside
        rcases Finset.mem_insert.mp inside with rfl | old
        · exact known
        · exact sound.reported one other old
      · dsimp only at inside
        rw [Function.update_of_ne same] at inside
        exact sound.reported one other inside
    · intro other bad
      dsimp only at bad
      cases success with
      | true => exact sound.failed other bad
      | false =>
          rcases Finset.mem_insert.mp bad with rfl | old
          · exact known
          · exact sound.failed other old
    · intro one
      dsimp only
      by_cases same : one = worker
      · subst same
        rw [Function.update_self]
        exact (sound.gathered one).record known success
      · rw [Function.update_of_ne same]
        exact (sound.gathered one).mono le_rfl wider
    · exact fun report inside => (sound.outbox report inside).mono le_rfl wider
    · intro other status found isStore bad
      dsimp only at bad ⊢
      -- a failure that is new is in the metadata of its worker
      have keep : ∀ one, other ∈ (fleet.gathered one).failedJobs →
          other ∈ (Function.update fleet.gathered worker
            ((fleet.gathered worker).record job success) one).failedJobs := by
        intro one inside
        by_cases same : one = worker
        · subst same
          rw [Function.update_self, WorkerMetadata.record_failedJobs]
          split
          · exact inside
          · exact Finset.mem_insert_of_mem inside
        · rwa [Function.update_of_ne same]
      have old : other ∈ fleet.failed → (∀ key ∈ status.keys, key ∈ fleet.scheduler.manager.failedStore) ∨
          (∃ one, other ∈ (Function.update fleet.gathered worker
            ((fleet.gathered worker).record job success) one).failedJobs) ∨
              ∃ report ∈ fleet.outbox, other ∈ report.failedJobs := by
        intro before
        rcases sound.failures other status found isStore before with marked | ⟨one, inside⟩ | away
        · exact .inl marked
        · exact .inr (.inl ⟨one, keep one inside⟩)
        · exact .inr (.inr away)
      cases success with
      | true => exact old bad
      | false =>
          rcases Finset.mem_insert.mp bad with rfl | before
          · refine .inr (.inl ⟨worker, ?_⟩)
            rw [Function.update_self, WorkerMetadata.record_failedJobs]
            exact Finset.mem_insert_self _ _
          · exact old before
    · exact sound.dropped

/-- Handing the gathered metadata over moves it to the way. -/
theorem Sound.build (sound : fleet.Sound group) (worker : Fin workers)
    {merge : OrderedDict Nat Nat → OrderedDict Nat Nat → OrderedDict Nat Nat}
    {next : Fleet Key groups workers}
    (step : fleet.step group merge (.build worker) = some next) : next.Sound group := by
  simp only [Fleet.step] at step
  split at step
  · cases step
    exact sound
  · cases step
    have split : ∀ job, ∑ one, fleet.owed job one =
        ∑ one, ((if job ∈ fleet.reported one then 0 else 1) +
          (Function.update fleet.gathered worker WorkerMetadata.empty one).count job) +
            (fleet.gathered worker).count job := by
      intro job
      have moved : ∀ one, fleet.owed job one = ((if job ∈ fleet.reported one then 0 else 1) +
          (Function.update fleet.gathered worker WorkerMetadata.empty one).count job) +
            if one = worker then (fleet.gathered worker).count job else 0 := by
        intro one
        by_cases same : one = worker
        · subst same
          rw [Function.update_self, WorkerMetadata.count_empty, owed, if_pos rfl]
          omega
        · rw [Function.update_of_ne same, if_neg same, owed]
          omega
      rw [Finset.sum_congr rfl fun one _ => moved one, Finset.sum_add_distrib,
        Finset.sum_ite_eq' Finset.univ worker, if_pos (Finset.mem_univ worker)]
    constructor
    · exact sound.stale
    · exact sound.below
    · exact sound.books
    · intro job issued
      rw [sound.tallied job issued, expected, split, expected, onTheWay_cons]
      simp only [owed]
      push_cast
      ring
    · exact sound.waiting
    · exact sound.reported
    · exact sound.failed
    · intro one
      dsimp only
      by_cases same : one = worker
      · rw [same, Function.update_self]
        exact WorkerMetadata.empty_carries
      · rw [Function.update_of_ne same]
        exact sound.gathered one
    · intro report inside
      rcases List.mem_cons.mp inside with rfl | old
      · exact sound.gathered worker
      · exact sound.outbox report old
    · intro job status found isStore bad
      rcases sound.failures job status found isStore bad with marked | ⟨one, inside⟩ | ⟨report, old, inside⟩
      · exact .inl marked
      · by_cases same : one = worker
        · exact .inr (.inr ⟨_, List.mem_cons_self, same ▸ inside⟩)
        · refine .inr (.inl ⟨one, ?_⟩)
          dsimp only
          rwa [Function.update_of_ne same]
      · exact .inr (.inr ⟨report, List.mem_cons_of_mem _ old, inside⟩)
    · exact sound.dropped

/-- Two reports that are merged on the way say together what they said apart. -/
theorem Sound.merge (sound : fleet.Sound group) (first second : Nat)
    {merge : OrderedDict Nat Nat → OrderedDict Nat Nat → OrderedDict Nat Nat}
    (adds : WorkerMetadata.AddsCounts merge) {next : Fleet Key groups workers}
    (step : fleet.step group merge (.merge first second) = some next) : next.Sound group := by
  simp only [Fleet.step, Option.bind_eq_some_iff, Option.map_eq_some_iff] at step
  obtain ⟨one, here, other, there, rfl⟩ := step
  have reports : ∀ report, report ∈ fleet.outbox ↔ report = one ∨ report = other ∨
      report ∈ (fleet.outbox.eraseIdx first).eraseIdx second := by
    intro report
    rw [mem_of_mem_eraseIdx here, mem_of_mem_eraseIdx there]
  have mine := sound.outbox one ((reports one).mpr (.inl rfl))
  have theirs := sound.outbox other ((reports other).mpr (.inr (.inl rfl)))
  constructor
  · exact sound.stale
  · exact sound.below
  · exact sound.books
  · intro job issued
    rw [sound.tallied job issued, expected, expected, onTheWay_cons, WorkerMetadata.count_aggregate adds,
      onTheWay_eraseIdx here, onTheWay_eraseIdx there, add_assoc]
    rfl
  · exact sound.waiting
  · exact sound.reported
  · exact sound.failed
  · exact sound.gathered
  · intro report inside
    rcases List.mem_cons.mp inside with rfl | old
    · exact mine.aggregate adds theirs
    · exact sound.outbox report ((reports report).mpr (.inr (.inr old)))
  · intro job status found isStore bad
    rcases sound.failures job status found isStore bad with marked | gathered | ⟨report, old, inside⟩
    · exact .inl marked
    · exact .inr (.inl gathered)
    · refine .inr (.inr ?_)
      rcases (reports report).mp old with rfl | rfl | rest
      · exact ⟨_, List.mem_cons_self, Finset.mem_union_left _ inside⟩
      · exact ⟨_, List.mem_cons_self, Finset.mem_union_right _ inside⟩
      · exact ⟨report, List.mem_cons_of_mem _ rest, inside⟩
  · exact sound.dropped

end Fleet

end DgxSpark.Slab
