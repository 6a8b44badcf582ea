import DgxSpark.Slab.Reports
import DgxSpark.Slab.Visibility

/-
This file follows the jobs in flight against the manager: a store's keys are in flight, its failure
marks them, and the loads that are still open keep their slots.
-/

namespace DgxSpark.Slab

open SlabOffloadingManager

variable {Key : Type} [DecidableEq Key] {groups workers : Nat} {group : Key → Fin groups}

/-- What an open job still reads. -/
def loadsOf (specs : Nat → List (Key × Int)) (entry : Nat × TransferJobStatus Key) : List (Key × Int) :=
  if entry.2.isStore then [] else specs entry.1

/-- What all open loads still read. -/
def openLoads (jobs : OrderedDict Nat (TransferJobStatus Key)) (specs : Nat → List (Key × Int)) :
    List (Key × Int) := jobs.entries.flatMap (loadsOf specs)

variable (group) in
/-- The jobs in flight agree with the manager. -/
structure Books (manager : SlabOffloadingManager Key groups)
    (jobs : OrderedDict Nat (TransferJobStatus Key)) (failed : Finset Nat)
    (specs : Nat → List (Key × Int)) : Prop where
  custody : manager.Custody group (openLoads jobs specs)
  storing : ∀ job status, jobs.get? job = some status → status.isStore = true →
    ∀ key ∈ status.keys, manager.inflightStore.get? key ≠ none
  single : ∀ one other first second, jobs.get? one = some first → jobs.get? other = some second →
    first.isStore = true → second.isStore = true → ∀ key ∈ first.keys, key ∈ second.keys → one = other
  marked : ∀ key ∈ manager.failedStore, ∃ job status, jobs.get? job = some status ∧
    status.isStore = true ∧ key ∈ status.keys ∧ job ∈ failed
  loading : ∀ job status, jobs.get? job = some status → status.isStore = false →
    status.keys.Subperm ((specs job).map Prod.fst)

namespace Books

variable {manager : SlabOffloadingManager Key groups} {jobs : OrderedDict Nat (TransferJobStatus Key)}
  {failed : Finset Nat} {specs : Nat → List (Key × Int)}

variable (specs) in
omit [DecidableEq Key] in
theorem openLoads_perm {first second : List (Nat × TransferJobStatus Key)} (same : first.Perm second) :
    (first.flatMap (loadsOf specs)).Perm (second.flatMap (loadsOf specs)) :=
  same.flatMap_right (loadsOf specs)

/-- Another manager that keeps custody, the stores in flight and the marks has the same books. -/
theorem withManager (books : Books group manager jobs failed specs)
    {next : SlabOffloadingManager Key groups} (custody : next.Custody group (openLoads jobs specs))
    (stored : ∀ key, manager.inflightStore.get? key ≠ none → next.inflightStore.get? key ≠ none)
    (marks : ∀ key ∈ next.failedStore, key ∈ manager.failedStore) :
    Books group next jobs failed specs where
  custody := custody
  storing job status found isStore key inside := stored key (books.storing job status found isStore key inside)
  single := books.single
  marked key mark := books.marked key (marks key mark)
  loading := books.loading

/-- One more failed job changes none of the books. -/
theorem moreFailed (books : Books group manager jobs failed specs) (job : Nat) :
    Books group manager jobs (insert job failed) specs where
  custody := books.custody
  storing := books.storing
  single := books.single
  marked key mark := by
    obtain ⟨other, status, found, isStore, inside, bad⟩ := books.marked key mark
    exact ⟨other, status, found, isStore, inside, Finset.mem_insert_of_mem bad⟩
  loading := books.loading

/-- Counting down a job keeps the books. -/
theorem recount (books : Books group manager jobs failed specs) {job : Nat}
    {status : TransferJobStatus Key} (found : jobs.get? job = some status) (pending : Int) :
    Books group manager (jobs.set job { status with pendingCount := pending }) failed specs := by
  have lift : ∀ other next, (jobs.set job { status with pendingCount := pending }).get? other = some next →
      ∃ old, jobs.get? other = some old ∧ old.keys = next.keys ∧ old.isStore = next.isStore := by
    intro other next present
    rw [OrderedDict.get?_set] at present
    split at present
    case isTrue same =>
      cases present
      exact ⟨status, same ▸ found, rfl, rfl⟩
    case isFalse => exact ⟨next, present, rfl, rfl⟩
  constructor
  · refine books.custody.mono (List.Perm.subperm ?_)
    exact (openLoads_perm specs (OrderedDict.set_perm jobs job _)).trans
      (openLoads_perm specs (OrderedDict.erase_perm found)).symm
  · intro other next present isStore key inside
    obtain ⟨old, there, keys, kind⟩ := lift other next present
    exact books.storing other old there (kind.trans isStore) key (keys ▸ inside)
  · intro one other first second firstThere secondThere firstStore secondStore key firstKey secondKey
    obtain ⟨oldFirst, there, keys, kind⟩ := lift one first firstThere
    obtain ⟨oldSecond, there', keys', kind'⟩ := lift other second secondThere
    exact books.single one other oldFirst oldSecond there there' (kind.trans firstStore)
      (kind'.trans secondStore) key (keys ▸ firstKey) (keys' ▸ secondKey)
  · intro key mark
    obtain ⟨other, old, there, isStore, inside, bad⟩ := books.marked key mark
    by_cases same : other = job
    · subst same
      obtain rfl : status = old := Option.some.inj (found.symm.trans there)
      exact ⟨other, _, OrderedDict.get?_set_self _ _ _, isStore, inside, bad⟩
    · exact ⟨other, old, (OrderedDict.get?_set_of_ne jobs _ same).trans there, isStore, inside, bad⟩
  · intro other next present isLoad
    obtain ⟨old, there, keys, kind⟩ := lift other next present
    rw [← keys]
    exact books.loading other old there (kind.trans isLoad)

omit [DecidableEq Key] in
/-- The books of the other jobs stay when a job is erased. -/
theorem erase_get? {job other : Nat} {status : TransferJobStatus Key}
    (present : (jobs.erase job).get? other = some status) : other ≠ job ∧ jobs.get? other = some status := by
  rw [OrderedDict.get?_erase] at present
  split at present
  · cases present
  case isFalse different => exact ⟨different, present⟩

/-- The last completion of a store closes it in the books. -/
theorem completeStore (books : Books group manager jobs failed specs) {job : Nat}
    {status : TransferJobStatus Key} (found : jobs.get? job = some status) (isStore : status.isStore = true) :
    Books group (manager.completeStore group status.keys true) (jobs.erase job) failed specs := by
  constructor
  · refine ((completeStore_custody true status.keys books.custody).1).mono (List.Perm.subperm ?_)
    have whole := openLoads_perm specs (OrderedDict.erase_perm found)
    have none : loadsOf specs (job, status) = [] := if_pos isStore
    rw [List.flatMap_cons, none, List.nil_append] at whole
    exact whole.symm
  · intro other next present nextStore key inside
    obtain ⟨different, there⟩ := erase_get? present
    rw [completeStore_stored]
    have outside : key ∉ status.keys := fun shared =>
      different (books.single other job next status there found nextStore isStore key inside shared)
    rw [if_neg outside]
    exact books.storing other next there nextStore key inside
  · intro one other first second firstThere secondThere
    exact books.single one other first second (erase_get? firstThere).2 (erase_get? secondThere).2
  · intro key mark
    obtain ⟨marked, kept⟩ := (completeStore_failedStore status.keys true manager key).mp mark
    obtain ⟨other, old, there, oldStore, inside, bad⟩ := books.marked key marked
    have different : other ≠ job := by
      rintro rfl
      obtain rfl : status = old := Option.some.inj (found.symm.trans there)
      exact kept ⟨inside, books.storing other status found isStore key inside⟩
    exact ⟨other, old, (OrderedDict.get?_erase_of_ne jobs different).trans there, oldStore, inside, bad⟩
  · intro other next present
    exact books.loading other next (erase_get? present).2

/-- The last completion of a load closes it in the books. -/
theorem completeLoad (books : Books group manager jobs failed specs) {job : Nat}
    {status : TransferJobStatus Key} (found : jobs.get? job = some status) (isLoad : status.isStore = false) :
    Books group (manager.completeLoad group status.keys) (jobs.erase job) failed specs := by
  obtain ⟨counts, stored⟩ := completeLoad_frame group manager status.keys
  obtain ⟨index, marks⟩ := completeLoad_index group status.keys manager
  constructor
  · have whole := openLoads_perm specs (OrderedDict.erase_perm found)
    have own : loadsOf specs (job, status) = specs job := if_neg (by simp [isLoad])
    rw [List.flatMap_cons, own] at whole
    exact completeLoad_custody status.keys (books.loading job status found isLoad)
      (books.custody.mono whole.symm.subperm)
  · intro other next present nextStore key inside
    rw [stored]
    exact books.storing other next (erase_get? present).2 nextStore key inside
  · intro one other first second firstThere secondThere
    exact books.single one other first second (erase_get? firstThere).2 (erase_get? secondThere).2
  · intro key mark
    rw [marks] at mark
    obtain ⟨other, old, there, oldStore, inside, bad⟩ := books.marked key mark
    have different : other ≠ job := by
      rintro rfl
      obtain rfl : status = old := Option.some.inj (found.symm.trans there)
      rw [isLoad] at oldStore
      cases oldStore
    exact ⟨other, old, (OrderedDict.get?_erase_of_ne jobs different).trans there, oldStore, inside, bad⟩
  · intro other next present
    exact books.loading other next (erase_get? present).2

/-- A new store joins the books with keys that no other store has in flight. -/
theorem addStore (books : Books group manager jobs failed specs) {job : Nat} (fresh : jobs.get? job = none)
    {next : SlabOffloadingManager Key groups} {listing : List Key} (pending : Int)
    (custody : next.Custody group (openLoads jobs specs))
    (new : ∀ key ∈ listing, manager.inflightStore.get? key = none)
    (stored : ∀ key, next.inflightStore.get? key ≠ none ↔
      key ∈ listing ∨ manager.inflightStore.get? key ≠ none)
    (marks : next.failedStore = manager.failedStore) :
    Books group next (jobs.set job ⟨pending, listing, true⟩) failed specs := by
  have lift : ∀ other status, (jobs.set job ⟨pending, listing, true⟩).get? other = some status →
      (other = job ∧ status = ⟨pending, listing, true⟩) ∨ jobs.get? other = some status := by
    intro other status present
    rw [OrderedDict.get?_set] at present
    split at present
    case isTrue same => exact .inl ⟨same, (Option.some.inj present).symm⟩
    case isFalse => exact .inr present
  constructor
  · refine custody.mono (List.Perm.subperm ?_)
    have whole := openLoads_perm specs (OrderedDict.set_perm jobs job ⟨pending, listing, true⟩)
    rw [List.flatMap_cons, OrderedDict.erase_of_get?_none jobs fresh] at whole
    exact whole
  · intro other status present isStore key inside
    rcases lift other status present with ⟨rfl, rfl⟩ | there
    · exact (stored key).mpr (.inl inside)
    · exact (stored key).mpr (.inr (books.storing other status there isStore key inside))
  · intro one other first second firstThere secondThere firstStore secondStore key firstKey secondKey
    rcases lift one first firstThere with ⟨rfl, rfl⟩ | firstOld
    · rcases lift other second secondThere with ⟨rfl, rfl⟩ | secondOld
      · rfl
      · exact absurd (new key firstKey) (books.storing other second secondOld secondStore key secondKey)
    · rcases lift other second secondThere with ⟨rfl, rfl⟩ | secondOld
      · exact absurd (new key secondKey) (books.storing one first firstOld firstStore key firstKey)
      · exact books.single one other first second firstOld secondOld firstStore secondStore key firstKey secondKey
  · intro key mark
    rw [marks] at mark
    obtain ⟨other, old, there, rest⟩ := books.marked key mark
    have different : other ≠ job := by
      rintro rfl
      rw [fresh] at there
      cases there
    exact ⟨other, old, (OrderedDict.get?_set_of_ne jobs _ different).trans there, rest⟩
  · intro other status present isLoad
    rcases lift other status present with ⟨rfl, rfl⟩ | there
    · cases isLoad
    · exact books.loading other status there isLoad

/-- A new load joins the books with the slots that it was told to read. -/
theorem addLoad (books : Books group manager jobs failed specs) {job : Nat} (fresh : jobs.get? job = none)
    {next : SlabOffloadingManager Key groups} {listing : List Key} {pairs : List (Key × Int)} (pending : Int)
    (custody : next.Custody group (pairs ++ openLoads jobs specs))
    (listed : listing.Subperm (pairs.map Prod.fst))
    (stored : next.inflightStore = manager.inflightStore)
    (marks : next.failedStore = manager.failedStore) :
    Books group next (jobs.set job ⟨pending, listing, false⟩) failed (Function.update specs job pairs) := by
  have lift : ∀ other status, (jobs.set job ⟨pending, listing, false⟩).get? other = some status →
      (other = job ∧ status = ⟨pending, listing, false⟩) ∨ (other ≠ job ∧ jobs.get? other = some status) := by
    intro other status present
    rw [OrderedDict.get?_set] at present
    split at present
    case isTrue same => exact .inl ⟨same, (Option.some.inj present).symm⟩
    case isFalse different => exact .inr ⟨different, present⟩
  have old : ∀ other status, (jobs.set job ⟨pending, listing, false⟩).get? other = some status →
      status.isStore = true → jobs.get? other = some status := by
    intro other status present isStore
    rcases lift other status present with ⟨rfl, rfl⟩ | ⟨-, there⟩
    · cases isStore
    · exact there
  constructor
  · refine custody.mono (List.Perm.subperm ?_)
    have whole := openLoads_perm (Function.update specs job pairs)
      (OrderedDict.set_perm jobs job ⟨pending, listing, false⟩)
    have own : loadsOf (Function.update specs job pairs) (job, ⟨pending, listing, false⟩) = pairs :=
      (if_neg Bool.false_ne_true).trans (Function.update_self job pairs specs)
    rw [List.flatMap_cons, OrderedDict.erase_of_get?_none jobs fresh, own] at whole
    refine whole.trans (List.Perm.of_eq ?_)
    congr 1
    -- no other open job has the new id
    apply List.flatMap_congr
    intro entry inside
    have different : entry.1 ≠ job := by
      intro same
      have there : jobs.get? job = some entry.2 :=
        OrderedDict.get?_eq_some_iff.mpr (same ▸ inside)
      rw [fresh] at there
      cases there
    unfold loadsOf
    rw [Function.update_of_ne different]
  · intro other status present isStore
    rw [stored]
    exact books.storing other status (old other status present isStore) isStore
  · intro one other first second firstThere secondThere firstStore secondStore
    exact books.single one other first second (old one first firstThere firstStore)
      (old other second secondThere secondStore) firstStore secondStore
  · intro key mark
    rw [marks] at mark
    obtain ⟨other, status, there, rest⟩ := books.marked key mark
    have different : other ≠ job := by
      rintro rfl
      rw [fresh] at there
      cases there
    exact ⟨other, status, (OrderedDict.get?_set_of_ne jobs _ different).trans there, rest⟩
  · intro other status present isLoad
    rcases lift other status present with ⟨rfl, rfl⟩ | ⟨different, there⟩
    · rw [Function.update_self]
      exact listed
    · rw [Function.update_of_ne different]
      exact books.loading other status there isLoad

/-- A failure mark for a job in flight keeps the books. -/
theorem markFailed {scheduler : FailureAwareScheduler Key groups} {job : Nat}
    (books : Books group scheduler.manager scheduler.jobs failed specs) (bad : job ∈ failed) :
    Books group (scheduler.markFailed group job).manager scheduler.jobs failed specs := by
  unfold FailureAwareScheduler.markFailed
  split
  · exact books
  case h_2 status found =>
    split
    case isTrue isStore =>
      refine ⟨markStoreFailed_custody books.custody status.keys, books.storing, books.single, ?_,
        books.loading⟩
      intro key mark
      rcases Finset.mem_union.mp mark with old | new
      · exact books.marked key old
      · exact ⟨job, status, found, isStore, List.mem_toFinset.mp new, bad⟩
    case isFalse isLoad =>
      obtain ⟨counts, stored, read⟩ := markLoadFailed_frame group scheduler.manager status.keys
      have marks := markLoadFailed_failedStore group status.keys scheduler.manager
      refine books.withManager (markLoadFailed_custody status.keys books.custody) ?_ ?_
      · intro key
        change _ → (scheduler.manager.markLoadFailed group status.keys).inflightStore.get? key ≠ none
        rw [stored]
        exact id
      · intro key mark
        change key ∈ (scheduler.manager.markLoadFailed group status.keys).failedStore at mark
        rwa [marks] at mark

end Books

/-! ### The failures of a call -/

section Failures

open FailureAwareScheduler

theorem markFailed_jobs (scheduler : FailureAwareScheduler Key groups) (job : Nat) :
    (scheduler.markFailed group job).jobs = scheduler.jobs := by
  unfold markFailed
  split
  · rfl
  · split <;> rfl

theorem markFailed_counters (scheduler : FailureAwareScheduler Key groups) (job : Nat) :
    (scheduler.markFailed group job).jobCounter = scheduler.jobCounter ∧
      (scheduler.markFailed group job).staleJobThreshold = scheduler.staleJobThreshold := by
  unfold markFailed
  split
  · exact ⟨rfl, rfl⟩
  · split
    · exact ⟨rfl, rfl⟩
    · exact ⟨rfl, rfl⟩

/-- A failed load takes its keys out, a failed store takes none. -/
theorem markFailed_visible (scheduler : FailureAwareScheduler Key groups) (job : Nat) (key : Key) :
    (scheduler.markFailed group job).manager.Visible group key ↔
      key ∉ Fleet.takenBy scheduler job ∧ scheduler.manager.Visible group key := by
  unfold markFailed Fleet.takenBy
  cases scheduler.jobs.get? job with
  | none => exact (and_iff_right List.not_mem_nil).symm
  | some status =>
      dsimp only
      split
      · exact (and_iff_right List.not_mem_nil).symm
      · exact markLoadFailed_visible status.keys scheduler.manager key

/-- A failed store marks its keys, and no mark goes away. -/
theorem markFailed_marks (scheduler : FailureAwareScheduler Key groups) (job : Nat) (key : Key) :
    key ∈ (scheduler.markFailed group job).manager.failedStore ↔ key ∈ scheduler.manager.failedStore ∨
      ∃ status, scheduler.jobs.get? job = some status ∧ status.isStore = true ∧ key ∈ status.keys := by
  unfold markFailed
  cases scheduler.jobs.get? job with
  | none => simp
  | some status =>
      dsimp only
      split
      case isTrue isStore => simp [markStoreFailed, isStore]
      case isFalse isLoad =>
        dsimp only
        rw [markLoadFailed_failedStore]
        simp [isLoad]

theorem markAll_jobs (failed : List Nat) (scheduler : FailureAwareScheduler Key groups) :
    (failed.foldl (markFailed group) scheduler).jobs = scheduler.jobs :=
  foldl_keeps FailureAwareScheduler.jobs markFailed_jobs failed scheduler

variable (group) in
theorem markAll_counters (failed : List Nat) (scheduler : FailureAwareScheduler Key groups) :
    (failed.foldl (markFailed group) scheduler).jobCounter = scheduler.jobCounter ∧
      (failed.foldl (markFailed group) scheduler).staleJobThreshold = scheduler.staleJobThreshold :=
  ⟨foldl_keeps FailureAwareScheduler.jobCounter (fun state job => (markFailed_counters state job).1) failed scheduler,
    foldl_keeps FailureAwareScheduler.staleJobThreshold (fun state job => (markFailed_counters state job).2)
      failed scheduler⟩

theorem markAll_visible (failed : List Nat) (scheduler : FailureAwareScheduler Key groups) (key : Key) :
    (failed.foldl (markFailed group) scheduler).manager.Visible group key ↔
      key ∉ Fleet.taken scheduler failed ∧ scheduler.manager.Visible group key := by
  induction failed generalizing scheduler with
  | nil => exact (and_iff_right List.not_mem_nil).symm
  | cons head tail ih =>
      have same : Fleet.takenBy (scheduler.markFailed group head) = Fleet.takenBy scheduler := by
        funext job
        rw [Fleet.takenBy, markFailed_jobs, Fleet.takenBy]
      have whole : Fleet.taken scheduler (head :: tail) =
          Fleet.takenBy scheduler head ++ Fleet.taken scheduler tail := List.flatMap_cons
      have later : Fleet.taken (scheduler.markFailed group head) tail = Fleet.taken scheduler tail := by
        rw [Fleet.taken, same, Fleet.taken]
      rw [List.foldl_cons, ih, markFailed_visible, later, whole, List.mem_append, not_or]
      tauto

theorem markAll_marks (failed : List Nat) (scheduler : FailureAwareScheduler Key groups) (key : Key) :
    key ∈ (failed.foldl (markFailed group) scheduler).manager.failedStore ↔
      key ∈ scheduler.manager.failedStore ∨ ∃ job ∈ failed, ∃ status,
        scheduler.jobs.get? job = some status ∧ status.isStore = true ∧ key ∈ status.keys := by
  induction failed generalizing scheduler with
  | nil => simp
  | cons head tail ih =>
      rw [List.foldl_cons, ih, markFailed_marks, markFailed_jobs, List.exists_mem_cons_iff, or_assoc]

theorem Books.markAll {failed : Finset Nat} {specs : Nat → List (Key × Int)} (bad : List Nat)
    (scheduler : FailureAwareScheduler Key groups)
    (books : Books group scheduler.manager scheduler.jobs failed specs) (known : ∀ job ∈ bad, job ∈ failed) :
    Books group (bad.foldl (FailureAwareScheduler.markFailed group) scheduler).manager scheduler.jobs failed specs := by
  induction bad generalizing scheduler with
  | nil => exact books
  | cons head tail ih =>
      have first := books.markFailed (known head List.mem_cons_self)
      have rest := ih (scheduler.markFailed group head) ((markFailed_jobs scheduler head).symm ▸ first)
        fun job inside => known job (List.mem_cons_of_mem _ inside)
      rwa [markFailed_jobs] at rest

end Failures

/-! ### The completion loop -/

/-- The completions that a job still waits for. -/
def pendingOf (jobs : OrderedDict Nat (TransferJobStatus Key)) (job : Nat) : Int :=
  ((jobs.get? job).map TransferJobStatus.pendingCount).getD 0

/-- The completions that the rest of a report holds for a job. -/
def restCount (rest : List (Nat × Nat)) (job : Nat) : Nat := (rest.lookup job).getD 0

variable (group) in
/-- The loop of one call on the way: `base` counts the completions that are not in this report,
`elsewhere` holds of the jobs whose failure is still on its way, and `gone` are the keys that failed
loads have taken out before. -/
structure During (start : OrderedDict Nat (TransferJobStatus Key)) (counter : Nat) (failed : Finset Nat)
    (specs : Nat → List (Key × Int)) (base : Nat → Nat) (elsewhere : Nat → Prop) (gone : List Key)
    (rest : List (Nat × Nat)) (scheduler : FailureAwareScheduler Key groups) : Prop where
  stale : scheduler.staleJobThreshold = 0
  issued : scheduler.jobCounter = counter
  books : Books group scheduler.manager scheduler.jobs failed specs
  tallied : ∀ job < counter, pendingOf scheduler.jobs job = base job + restCount rest job
  failures : ∀ job status, scheduler.jobs.get? job = some status → status.isStore = true → job ∈ failed →
    (∀ key ∈ status.keys, key ∈ scheduler.manager.failedStore) ∨ elsewhere job
  owed : ∀ job, elsewhere job → 0 < base job
  kept : ∀ job status, scheduler.jobs.get? job = some status →
    ∃ old, start.get? job = some old ∧ old.keys = status.keys ∧ old.isStore = status.isStore
  waiting : ∀ job status, scheduler.jobs.get? job = some status →
    start.get? job = some status ∨ 0 < status.pendingCount
  settled : ∀ job status, start.get? job = some status → status.isStore = true →
    scheduler.jobs.get? job = none → ∀ key ∈ status.keys,
      scheduler.manager.inflightStore.get? key = none ∧
        (scheduler.manager.Visible group key ↔ job ∉ failed)
  gone : ∀ key ∈ gone, scheduler.manager.Visible group key →
    ∃ job status, start.get? job = some status ∧ status.isStore = true ∧ job ∉ failed ∧
      scheduler.jobs.get? job = none ∧ key ∈ status.keys

namespace During

variable {start : OrderedDict Nat (TransferJobStatus Key)} {counter : Nat} {failed : Finset Nat}
  {specs : Nat → List (Key × Int)} {base : Nat → Nat} {elsewhere : Nat → Prop} {gone : List Key}
  {rest : List (Nat × Nat)}
  {scheduler : FailureAwareScheduler Key groups} {job count : Nat}

omit [DecidableEq Key] in
theorem pendingOf_some {jobs : OrderedDict Nat (TransferJobStatus Key)} {status : TransferJobStatus Key}
    (found : jobs.get? job = some status) : pendingOf jobs job = status.pendingCount := by
  rw [pendingOf, found]
  rfl

theorem restCount_head : restCount ((job, count) :: rest) job = count := by
  simp [restCount]

theorem restCount_tail {other : Nat} (different : other ≠ job) :
    restCount ((job, count) :: rest) other = restCount rest other := by
  have unequal : (other == job) = false := by simpa using different
  simp [restCount, List.lookup_cons, unequal]

theorem restCount_absent (absent : job ∉ rest.map Prod.fst) : restCount rest job = 0 := by
  have none : rest.lookup job = none := by
    rw [List.lookup_eq_none_iff]
    intro entry inside
    have different : job ≠ entry.1 := fun same => absent (List.mem_map.mpr ⟨entry, inside, same.symm⟩)
    simpa using different
  rw [restCount, none]
  rfl

omit [DecidableEq Key] in
/-- A tally over the remaining entries follows from one over all of them, once the head is counted. -/
theorem tallied_tail {before after : OrderedDict Nat (TransferJobStatus Key)}
    (absent : job ∉ rest.map Prod.fst)
    (tallied : ∀ other < counter, pendingOf before other = base other + restCount ((job, count) :: rest) other)
    (here : pendingOf after job = base job)
    (others : ∀ other, other ≠ job → after.get? other = before.get? other) :
    ∀ other < counter, pendingOf after other = base other + restCount rest other := by
  intro other known
  by_cases same : other = job
  · rw [same, here, restCount_absent absent]
    omega
  · have unchanged : pendingOf after other = pendingOf before other := by
      rw [pendingOf, others other same, pendingOf]
    rw [unchanged, tallied other known, restCount_tail same]

/-- A job that still waits for completions elsewhere is counted down. -/
theorem countDown (during : During group start counter failed specs base elsewhere gone ((job, count) :: rest) scheduler)
    (absent : job ∉ rest.map Prod.fst) {status : TransferJobStatus Key}
    (found : scheduler.jobs.get? job = some status) (left : status.pendingCount - count = base job)
    (more : (0 : Int) < base job) :
    During group start counter failed specs base elsewhere gone rest
      { scheduler with jobs := scheduler.jobs.set job { status with pendingCount := base job } } := by
  have others : ∀ other, other ≠ job →
      (scheduler.jobs.set job { status with pendingCount := base job }).get? other = scheduler.jobs.get? other :=
    fun other different => OrderedDict.get?_set_of_ne _ _ different
  have lift : ∀ other next,
      (scheduler.jobs.set job { status with pendingCount := base job }).get? other = some next →
        ∃ old, scheduler.jobs.get? other = some old ∧ old.keys = next.keys ∧ old.isStore = next.isStore := by
    intro other next present
    by_cases same : other = job
    · subst same
      rw [OrderedDict.get?_set_self] at present
      cases present
      exact ⟨status, found, rfl, rfl⟩
    · exact ⟨next, (others other same).symm.trans present, rfl, rfl⟩
  have vanished : ∀ other,
      (scheduler.jobs.set job { status with pendingCount := base job }).get? other = none →
        scheduler.jobs.get? other = none := by
    intro other missing
    by_cases same : other = job
    · subst same
      rw [OrderedDict.get?_set_self] at missing
      cases missing
    · exact (others other same).symm.trans missing
  constructor
  · exact during.stale
  · exact during.issued
  · exact during.books.recount found _
  · refine tallied_tail absent during.tallied ?_ others
    exact pendingOf_some (OrderedDict.get?_set_self _ _ _)
  · intro other next present isStore bad
    obtain ⟨old, there, keys, kind⟩ := lift other next present
    rw [← keys]
    exact during.failures other old there (kind.trans isStore) bad
  · exact during.owed
  · intro other next present
    obtain ⟨old, there, keys, kind⟩ := lift other next present
    obtain ⟨first, begun, firstKeys, firstKind⟩ := during.kept other old there
    exact ⟨first, begun, firstKeys.trans keys, firstKind.trans kind⟩
  · intro other next present
    dsimp only at present
    by_cases same : other = job
    · subst same
      rw [OrderedDict.get?_set_self] at present
      cases present
      exact .inr more
    · exact during.waiting other next ((others other same).symm.trans present)
  · intro other first begun isStore missing
    exact during.settled other first begun isStore (vanished other missing)
  · intro key inside shown
    obtain ⟨other, first, begun, isStore, good, missing, named⟩ := during.gone key inside shown
    refine ⟨other, first, begun, isStore, good, ?_, named⟩
    have different : other ≠ job := by
      rintro rfl
      rw [found] at missing
      cases missing
    exact (others other different).trans missing

/-- The last completion of a store shows its keys unless a worker failed it. -/
theorem finishStore
    (during : During group start counter failed specs base elsewhere gone ((job, count) :: rest) scheduler)
    (absent : job ∉ rest.map Prod.fst) {status : TransferJobStatus Key}
    (found : scheduler.jobs.get? job = some status) (isStore : status.isStore = true)
    (last : base job = 0) :
    During group start counter failed specs base elsewhere gone rest
      { scheduler with
        manager := scheduler.manager.completeStore group status.keys true
        jobs := scheduler.jobs.erase job } := by
  obtain ⟨old, begun, oldKeys, oldKind⟩ := during.kept job status found
  have flying := during.books.storing job status found isStore
  have hidden : ∀ key ∈ status.keys, ¬scheduler.manager.Visible group key := by
    intro key inside shown
    have stored := OrderedDict.mem_keys_iff.mpr (Option.ne_none_iff_exists'.mp (flying key inside))
    exact visible_iff.mp shown (during.books.custody.apart key stored)
  -- the marks on its keys are its own
  have marks : ∀ key ∈ status.keys, key ∈ scheduler.manager.failedStore ↔ job ∈ failed := by
    intro key inside
    constructor
    · intro mark
      obtain ⟨other, next, there, nextStore, shared, bad⟩ := during.books.marked key mark
      rwa [during.books.single job other status next found there isStore nextStore key inside shared]
    · intro bad
      rcases during.failures job status found isStore bad with all | elsewhere
      · exact all key inside
      · have more := during.owed job elsewhere
        omega
  constructor
  · exact during.stale
  · exact during.issued
  · exact during.books.completeStore found isStore
  · refine tallied_tail absent during.tallied ?_ fun other different =>
      OrderedDict.get?_erase_of_ne _ different
    rw [pendingOf, OrderedDict.get?_erase_self, last]
    rfl
  · intro other next present nextStore bad
    obtain ⟨different, there⟩ := Books.erase_get? present
    rcases during.failures other next there nextStore bad with all | elsewhere
    · left
      intro key inside
      refine (completeStore_failedStore status.keys true scheduler.manager key).mpr ⟨all key inside, ?_⟩
      rintro ⟨shared, -⟩
      exact different (during.books.single other job next status there found nextStore isStore key inside shared)
    · exact .inr elsewhere
  · exact during.owed
  · intro other next present
    exact during.kept other next (Books.erase_get? present).2
  · intro other next present
    exact during.waiting other next (Books.erase_get? present).2
  · intro other first firstBegun firstStore missing key inside
    change (scheduler.manager.completeStore group status.keys true).inflightStore.get? key = none ∧
      ((scheduler.manager.completeStore group status.keys true).Visible group key ↔ other ∉ failed)
    rw [completeStore_stored, completeStore_visible]
    by_cases same : other = job
    · subst same
      obtain rfl : old = first := Option.some.inj (begun.symm.trans firstBegun)
      rw [oldKeys] at inside
      refine ⟨if_pos inside, ?_⟩
      have dark := hidden key inside
      have flies := flying key inside
      have mark := marks key inside
      tauto
    · rw [OrderedDict.get?_erase_of_ne _ same] at missing
      obtain ⟨landed, shows⟩ := during.settled other first firstBegun firstStore missing key inside
      have outside : key ∉ status.keys := fun shared => flying key shared landed
      rw [if_neg outside]
      simp only [outside, false_and, false_or]
      exact ⟨landed, shows⟩
  · intro key inside shown
    rcases (completeStore_visible status.keys scheduler.manager key).mp shown with ⟨named, -, clean⟩ | before
    · refine ⟨job, old, begun, oldKind.trans isStore, ?_, OrderedDict.get?_erase_self _ _, oldKeys ▸ named⟩
      exact fun bad => clean ((marks key named).mpr bad)
    · obtain ⟨other, first, firstBegun, firstStore, good, missing, named⟩ := during.gone key inside before
      refine ⟨other, first, firstBegun, firstStore, good, ?_, named⟩
      change (scheduler.jobs.erase job).get? other = none
      rw [OrderedDict.get?_erase, missing, ite_self]

/-- The last completion of a load changes nothing in the index. -/
theorem finishLoad
    (during : During group start counter failed specs base elsewhere gone ((job, count) :: rest) scheduler)
    (absent : job ∉ rest.map Prod.fst) {status : TransferJobStatus Key}
    (found : scheduler.jobs.get? job = some status) (isLoad : status.isStore = false)
    (last : base job = 0) :
    During group start counter failed specs base elsewhere gone rest
      { scheduler with
        manager := scheduler.manager.completeLoad group status.keys
        jobs := scheduler.jobs.erase job } := by
  obtain ⟨old, begun, oldKeys, oldKind⟩ := during.kept job status found
  obtain ⟨counts, stored⟩ := completeLoad_frame group scheduler.manager status.keys
  obtain ⟨index, marks⟩ := completeLoad_index group status.keys scheduler.manager
  have shows : ∀ key, (scheduler.manager.completeLoad group status.keys).Visible group key ↔
      scheduler.manager.Visible group key := by
    intro key
    rw [Visible, Visible, index]
  constructor
  · exact during.stale
  · exact during.issued
  · exact during.books.completeLoad found isLoad
  · refine tallied_tail absent during.tallied ?_ fun other different =>
      OrderedDict.get?_erase_of_ne _ different
    rw [pendingOf, OrderedDict.get?_erase_self, last]
    rfl
  · intro other next present nextStore bad
    change (∀ key ∈ next.keys, key ∈ (scheduler.manager.completeLoad group status.keys).failedStore) ∨ _
    rw [marks]
    exact during.failures other next (Books.erase_get? present).2 nextStore bad
  · exact during.owed
  · intro other next present
    exact during.kept other next (Books.erase_get? present).2
  · intro other next present
    exact during.waiting other next (Books.erase_get? present).2
  · intro other first firstBegun firstStore missing key inside
    change (scheduler.manager.completeLoad group status.keys).inflightStore.get? key = none ∧ _
    rw [stored, shows]
    have different : other ≠ job := by
      rintro rfl
      obtain rfl : old = first := Option.some.inj (begun.symm.trans firstBegun)
      rw [oldKind, isLoad] at firstStore
      cases firstStore
    rw [OrderedDict.get?_erase_of_ne _ different] at missing
    exact during.settled other first firstBegun firstStore missing key inside
  · intro key inside shown
    obtain ⟨other, first, firstBegun, firstStore, good, missing, named⟩ :=
      during.gone key inside ((shows key).mp shown)
    refine ⟨other, first, firstBegun, firstStore, good, ?_, named⟩
    change (scheduler.jobs.erase job).get? other = none
    rw [OrderedDict.get?_erase, missing, ite_self]

/-- One entry of the report never raises, and the loop goes on. -/
theorem step (during : During group start counter failed specs base elsewhere gone ((job, count) :: rest) scheduler)
    (absent : job ∉ rest.map Prod.fst) (known : job < counter) (positive : 0 < count) :
    ∃ next, scheduler.completeJob group (job, count) = some next ∧
      During group start counter failed specs base elsewhere gone rest next := by
  have tally := during.tallied job known
  rw [restCount_head] at tally
  unfold FailureAwareScheduler.completeJob
  dsimp only
  rw [if_neg (by omega), if_neg (by rw [during.stale]; omega)]
  cases found : scheduler.jobs.get? job with
  | none =>
      rw [pendingOf, found] at tally
      change (0 : Int) = _ at tally
      omega
  | some status =>
      rw [pendingOf_some found] at tally
      have left : status.pendingCount - count = base job := by omega
      rw [Option.bind_some, left]
      by_cases more : (0 : Int) < base job
      · rw [if_pos more]
        exact ⟨_, rfl, during.countDown absent found left more⟩
      · rw [if_neg more, if_pos (by omega)]
        refine ⟨_, rfl, ?_⟩
        cases kind : status.isStore with
        | true => exact during.finishStore absent found kind (by omega)
        | false => exact during.finishLoad absent found kind (by omega)

/-- The whole loop never raises. -/
theorem run : ∀ {rest : List (Nat × Nat)} {scheduler : FailureAwareScheduler Key groups},
    During group start counter failed specs base elsewhere gone rest scheduler → (rest.map Prod.fst).Nodup →
    (∀ entry ∈ rest, entry.1 < counter ∧ 0 < entry.2) →
      ∃ next, scheduler.completeJobs group rest = some next ∧
        During group start counter failed specs base elsewhere gone [] next := by
  intro rest
  induction rest with
  | nil => exact fun during _ _ => ⟨_, rfl, during⟩
  | cons entry tail ih =>
      intro scheduler during nodup fine
      rw [List.map_cons, List.nodup_cons] at nodup
      obtain ⟨known, positive⟩ := fine entry List.mem_cons_self
      obtain ⟨middle, taken, onward⟩ := during.step nodup.1 known positive
      obtain ⟨next, reached, done⟩ := ih onward nodup.2 fun other inside =>
        fine other (List.mem_cons_of_mem _ inside)
      exact ⟨next, Run.run_cons_some.mpr ⟨middle, taken, reached⟩, done⟩

end During

end DgxSpark.Slab
