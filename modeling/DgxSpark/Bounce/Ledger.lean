import DgxSpark.Bounce.Controller

/-
This file keeps the account of the bounce slots, of the items of each job and of the results.
-/

namespace DgxSpark.Bounce.BounceController

variable {Key : Type} {groups : Nat}

/-- The items of a job that are with a sub-job. -/
def pendingItems (subs : List (SubJob Key)) (id : Nat) : Nat :=
  (subs.map fun sub => if sub.owner = id then sub.slots.length else 0).sum

/-- All results so far, taken or not. -/
def history (controller : BounceController Key groups) : List TransferResult :=
  controller.handed ++ (controller.results true ++ controller.results false)

/-- The account of a controller whose sub-jobs are the listed ones. -/
structure Accounted (controller : BounceController Key groups) (subs : List (SubJob Key)) : Prop where
  slots : (controller.free ++ subs.flatMap SubJob.slots).Perm (List.range controller.nBounce)
  nonempty : ∀ sub ∈ subs, sub.slots ≠ []
  owned : ∀ sub ∈ subs, ∃ job, controller.jobs.get? sub.owner = some job
  counted : ∀ id job, controller.jobs.get? id = some job → job.jobId = id ∧
    job.doneItems + pendingItems subs id = job.nextItem ∧ job.nextItem ≤ job.items.length ∧
      job.doneItems < job.items.length
  listed : ∀ id job, controller.jobs.get? id = some job →
    controller.accepted.get? id = some (job.store, job.items) ∧
      (controller.chunks id).flatten = job.items.take job.nextItem
  closed : ∀ id store items, controller.accepted.get? id = some (store, items) →
    controller.jobs.get? id = none → (controller.chunks id).flatten = items
  fresh : ∀ id, controller.accepted.get? id = none → controller.chunks id = [] ∧ id ∉ controller.taskFailed
  results : ∀ id, (controller.history.map TransferResult.jobId).count id +
    (if controller.jobs.get? id = none then 0 else 1) = if controller.accepted.get? id = none then 0 else 1
  success : ∀ result ∈ controller.history, (result.success = true ↔ result.jobId ∉ controller.taskFailed)
  blamed : ∀ id job, controller.jobs.get? id = some job → job.failed = true → id ∈ controller.taskFailed
  noticed : ∀ id job, controller.jobs.get? id = some job → id ∈ controller.taskFailed →
    job.failed = true ∨ ∃ sub ∈ subs, sub.owner = id ∧ some false ∈ sub.ran
  guilty : ∀ sub ∈ subs, some false ∈ sub.ran → sub.owner ∈ controller.taskFailed
  copiesOk : ∀ sub ∈ subs, sub.handler = .g2b ∨ sub.handler = .b2g → some false ∉ sub.ran

theorem pendingItems_cons (sub : SubJob Key) (rest : List (SubJob Key)) (id : Nat) :
    pendingItems (sub :: rest) id = (if sub.owner = id then sub.slots.length else 0) + pendingItems rest id :=
  List.sum_cons

theorem pendingItems_perm {subs others : List (SubJob Key)} (same : subs.Perm others) (id : Nat) :
    pendingItems subs id = pendingItems others id :=
  (same.map fun sub : SubJob Key => if sub.owner = id then sub.slots.length else 0).sum_eq

/-- A job with nothing pending has no sub-job left. -/
theorem no_sub_of_pending {subs : List (SubJob Key)} {id : Nat} (nonempty : ∀ sub ∈ subs, sub.slots ≠ [])
    (nothing : pendingItems subs id = 0) : ∀ sub ∈ subs, sub.owner ≠ id := by
  intro sub inside same
  have each := List.sum_eq_zero_iff.mp nothing _ (List.mem_map.mpr ⟨sub, inside, rfl⟩)
  rw [if_pos same] at each
  exact nonempty sub inside (List.length_eq_zero_iff.mp each)

namespace Accounted

variable {controller next : BounceController Key groups} {subs others : List (SubJob Key)} {sub : SubJob Key}

theorem opened_accounted (nBounce : Nat) (bounce : Buffer) :
    (opened nBounce bounce : BounceController Key groups).Accounted [] where
  slots := by rw [List.flatMap_nil, List.append_nil]; exact .refl _
  nonempty _ inside := absurd inside List.not_mem_nil
  owned _ inside := absurd inside List.not_mem_nil
  counted _ _ found := absurd found (Option.some_ne_none _).symm
  listed _ _ found := absurd found (Option.some_ne_none _).symm
  closed _ _ _ found := absurd found (Option.some_ne_none _).symm
  fresh _ _ := ⟨rfl, Finset.notMem_empty _⟩
  results _ := rfl
  success _ inside := absurd inside List.not_mem_nil
  blamed _ _ found := absurd found (Option.some_ne_none _).symm
  noticed _ _ found := absurd found (Option.some_ne_none _).symm
  guilty _ inside := absurd inside List.not_mem_nil
  copiesOk _ inside := absurd inside List.not_mem_nil

/-- The account reads neither the handlers nor the maps that route sub-jobs, and the jobs only by
lookups. -/
theorem transfer (accounted : controller.Accounted subs) (nBounce : next.nBounce = controller.nBounce)
    (free : next.free = controller.free) (jobs : ∀ id, next.jobs.get? id = controller.jobs.get? id)
    (accepted : next.accepted = controller.accepted) (chunks : next.chunks = controller.chunks)
    (taskFailed : next.taskFailed = controller.taskFailed)
    (history : next.history.Perm controller.history) : next.Accounted subs where
  slots := by rw [free, nBounce]; exact accounted.slots
  nonempty := accounted.nonempty
  owned one inside := by rw [jobs]; exact accounted.owned one inside
  counted id job found := accounted.counted id job ((jobs id).symm.trans found)
  listed id job found := by
    rw [accepted, chunks]
    exact accounted.listed id job ((jobs id).symm.trans found)
  closed id store items found gone := by
    rw [chunks]
    exact accounted.closed id store items (accepted ▸ found) ((jobs id).symm.trans gone)
  fresh id absent := by
    rw [chunks, taskFailed]
    exact accounted.fresh id (accepted ▸ absent)
  results id := by
    rw [jobs, accepted, (history.map TransferResult.jobId).count_eq]
    exact accounted.results id
  success result inside := by
    rw [taskFailed]
    exact accounted.success result (history.mem_iff.mp inside)
  blamed id job found failed := taskFailed ▸ accounted.blamed id job ((jobs id).symm.trans found) failed
  noticed id job found failed := accounted.noticed id job ((jobs id).symm.trans found) (taskFailed ▸ failed)
  guilty one inside bad := taskFailed ▸ accounted.guilty one inside bad
  copiesOk := accounted.copiesOk

theorem perm (accounted : controller.Accounted subs) (same : others.Perm subs) : controller.Accounted others where
  slots := ((same.flatMap_right SubJob.slots).append_left controller.free).trans accounted.slots
  nonempty one inside := accounted.nonempty one (same.mem_iff.mp inside)
  owned one inside := accounted.owned one (same.mem_iff.mp inside)
  counted id job found := by
    rw [pendingItems_perm same]
    exact accounted.counted id job found
  listed := accounted.listed
  closed := accounted.closed
  fresh := accounted.fresh
  results := accounted.results
  success := accounted.success
  blamed := accounted.blamed
  noticed id job found failed := by
    rcases accounted.noticed id job found failed with known | ⟨one, inside, rest⟩
    · exact .inl known
    · exact .inr ⟨one, same.mem_iff.mpr inside, rest⟩
  guilty one inside := accounted.guilty one (same.mem_iff.mp inside)
  copiesOk one inside := accounted.copiesOk one (same.mem_iff.mp inside)

/-- A sub-job may be exchanged for one of the same job and slots that hides no failure. -/
theorem exchange (accounted : controller.Accounted (sub :: subs)) (new : SubJob Key)
    (owner : new.owner = sub.owner) (slots : new.slots = sub.slots)
    (failures : some false ∈ sub.ran ↔ some false ∈ new.ran)
    (copiesOk : new.handler = .g2b ∨ new.handler = .b2g → some false ∉ new.ran) :
    controller.Accounted (new :: subs) where
  slots := by
    rw [List.flatMap_cons, slots, ← List.flatMap_cons]
    exact accounted.slots
  nonempty := by
    rintro one (_ | ⟨_, inside⟩)
    · rw [slots]
      exact accounted.nonempty sub List.mem_cons_self
    · exact accounted.nonempty one (List.mem_cons_of_mem _ inside)
  owned := by
    rintro one (_ | ⟨_, inside⟩)
    · rw [owner]
      exact accounted.owned sub List.mem_cons_self
    · exact accounted.owned one (List.mem_cons_of_mem _ inside)
  counted id job found := by
    rw [pendingItems_cons, owner, slots, ← pendingItems_cons]
    exact accounted.counted id job found
  listed := accounted.listed
  closed := accounted.closed
  fresh := accounted.fresh
  results := accounted.results
  success := accounted.success
  blamed := accounted.blamed
  noticed id job found failed := by
    rcases accounted.noticed id job found failed with known | ⟨one, inside, mine, bad⟩
    · exact .inl known
    · rcases List.mem_cons.mp inside with rfl | old
      · exact .inr ⟨new, List.mem_cons_self, owner.trans mine, failures.mp bad⟩
      · exact .inr ⟨one, List.mem_cons_of_mem _ old, mine, bad⟩
  guilty := by
    rintro one (_ | ⟨_, inside⟩) bad
    · rw [owner]
      exact accounted.guilty sub List.mem_cons_self (failures.mpr bad)
    · exact accounted.guilty one (List.mem_cons_of_mem _ inside) bad
  copiesOk := by
    rintro one (_ | ⟨_, inside⟩)
    · exact copiesOk
    · exact accounted.copiesOk one (List.mem_cons_of_mem _ inside)

/-- What the account reads of a job. -/
def SameAccount (job other : DirectJob Key) : Prop :=
  other.jobId = job.jobId ∧ other.store = job.store ∧ other.items = job.items ∧
    other.nextItem = job.nextItem ∧ other.doneItems = job.doneItems ∧ other.failed = job.failed

/-- A job whose sub-job maps change keeps the account. -/
theorem rejob (accounted : controller.Accounted subs) {id : Nat} {job other : DirectJob Key}
    (found : controller.jobs.get? id = some job) (same : SameAccount job other) :
    ({ controller with jobs := controller.jobs.set id other } : BounceController Key groups).Accounted subs := by
  obtain ⟨jobId, store, items, nextItem, doneItems, failed⟩ := same
  have lift : ∀ one now, (controller.jobs.set id other).get? one = some now →
      ∃ old, controller.jobs.get? one = some old ∧ SameAccount old now := by
    intro one now present
    rcases OrderedDict.get?_set_cases present with ⟨rfl, rfl⟩ | ⟨-, there⟩
    · exact ⟨job, found, jobId, store, items, nextItem, doneItems, failed⟩
    · exact ⟨now, there, rfl, rfl, rfl, rfl, rfl, rfl⟩
  have absent := OrderedDict.get?_set_none_iff found other
  constructor
  · exact accounted.slots
  · exact accounted.nonempty
  · intro one inside
    obtain ⟨old, there⟩ := accounted.owned one inside
    refine Option.ne_none_iff_exists'.mp ?_
    rw [ne_eq, absent, there]
    exact Option.some_ne_none _
  · intro one now present
    obtain ⟨old, there, jobId, -, items, nextItem, doneItems, -⟩ := lift one now present
    rw [jobId, items, nextItem, doneItems]
    exact accounted.counted one old there
  · intro one now present
    obtain ⟨old, there, -, store, items, nextItem, -, -⟩ := lift one now present
    rw [store, items, nextItem]
    exact accounted.listed one old there
  · intro one store items known gone
    exact accounted.closed one store items known ((absent one).mp gone)
  · exact accounted.fresh
  · intro one
    have before := accounted.results one
    simp only [absent]
    exact before
  · exact accounted.success
  · intro one now present bad
    obtain ⟨old, there, -, -, -, -, -, failed⟩ := lift one now present
    exact accounted.blamed one old there (failed ▸ bad)
  · intro one now present bad
    obtain ⟨old, there, -, -, -, -, -, failed⟩ := lift one now present
    rw [failed]
    exact accounted.noticed one old there bad
  · exact accounted.guilty
  · exact accounted.copiesOk

/-- The state of a job after the sub-job in hand is counted. -/
def Counts (job other : DirectJob Key) (sub : SubJob Key) : Prop :=
  other.jobId = job.jobId ∧ other.store = job.store ∧ other.items = job.items ∧
    other.nextItem = job.nextItem ∧ other.doneItems = job.doneItems ∧
      (other.failed = true ↔ job.failed = true ∨ some false ∈ sub.ran)

/-- The sub-job in hand gives its slots back; the job goes on. -/
theorem giveBack (accounted : controller.Accounted (sub :: subs)) {job other : DirectJob Key}
    (found : controller.jobs.get? sub.owner = some job) (counts : Counts job other sub)
    (more : job.doneItems + sub.slots.length ≠ job.items.length) :
    ({ controller with
        free := controller.free ++ sub.slots
        jobs := controller.jobs.set sub.owner { other with doneItems := other.doneItems + sub.slots.length } } :
      BounceController Key groups).Accounted subs := by
  obtain ⟨jobId, store, items, nextItem, doneItems, failed⟩ := counts
  obtain ⟨named, tally, within, short⟩ := accounted.counted sub.owner job found
  rw [pendingItems_cons, if_pos rfl] at tally
  have absent := OrderedDict.get?_set_none_iff found { other with doneItems := other.doneItems + sub.slots.length }
  constructor
  · rw [List.append_assoc]
    exact accounted.slots
  · exact fun one inside => accounted.nonempty one (List.mem_cons_of_mem _ inside)
  · intro one inside
    obtain ⟨old, there⟩ := accounted.owned one (List.mem_cons_of_mem _ inside)
    refine Option.ne_none_iff_exists'.mp ?_
    rw [ne_eq, absent, there]
    exact Option.some_ne_none _
  · intro one now present
    rcases OrderedDict.get?_set_cases present with ⟨rfl, rfl⟩ | ⟨different, there⟩
    · dsimp only
      rw [jobId, items, nextItem, doneItems]
      exact ⟨named, by omega, within, by omega⟩
    · have old := accounted.counted one now there
      rwa [pendingItems_cons, if_neg (Ne.symm different), Nat.zero_add] at old
  · intro one now present
    rcases OrderedDict.get?_set_cases present with ⟨rfl, rfl⟩ | ⟨-, there⟩
    · dsimp only
      rw [store, items, nextItem]
      exact accounted.listed sub.owner job found
    · exact accounted.listed one now there
  · intro one store items known gone
    exact accounted.closed one store items known ((absent one).mp gone)
  · exact accounted.fresh
  · intro one
    have before := accounted.results one
    simp only [absent]
    exact before
  · exact accounted.success
  · intro one now present bad
    rcases OrderedDict.get?_set_cases present with ⟨rfl, rfl⟩ | ⟨-, there⟩
    · rcases failed.mp bad with before | mine
      · exact accounted.blamed sub.owner job found before
      · exact accounted.guilty sub List.mem_cons_self mine
    · exact accounted.blamed one now there bad
  · intro one now present bad
    rcases OrderedDict.get?_set_cases present with ⟨rfl, rfl⟩ | ⟨different, there⟩
    · rcases accounted.noticed sub.owner job found bad with before | ⟨other', inside, mine, broken⟩
      · exact .inl (failed.mpr (.inl before))
      · rcases List.mem_cons.mp inside with rfl | old
        · exact .inl (failed.mpr (.inr broken))
        · exact .inr ⟨other', old, mine, broken⟩
    · rcases accounted.noticed one now there bad with before | ⟨other', inside, mine, broken⟩
      · exact .inl before
      · rcases List.mem_cons.mp inside with rfl | old
        · exact absurd mine.symm different
        · exact .inr ⟨other', old, mine, broken⟩
  · exact fun one inside => accounted.guilty one (List.mem_cons_of_mem _ inside)
  · exact fun one inside => accounted.copiesOk one (List.mem_cons_of_mem _ inside)

/-- The last sub-job of a job gives its slots back, and the job ends with its one result. -/
theorem close (accounted : controller.Accounted (sub :: subs)) {job other : DirectJob Key} {size : Option Nat}
    (found : controller.jobs.get? sub.owner = some job) (counts : Counts job other sub)
    (last : job.doneItems + sub.slots.length = job.items.length)
    (nBounce : next.nBounce = controller.nBounce) (free : next.free = controller.free ++ sub.slots)
    (jobs : ∀ id, next.jobs.get? id = if id = sub.owner then none else controller.jobs.get? id)
    (accepted : next.accepted = controller.accepted) (chunks : next.chunks = controller.chunks)
    (taskFailed : next.taskFailed = controller.taskFailed)
    (history : next.history.Perm (⟨sub.owner, !other.failed, size⟩ :: controller.history)) :
    next.Accounted subs := by
  obtain ⟨-, -, -, -, -, failed⟩ := counts
  obtain ⟨named, tally, within, short⟩ := accounted.counted sub.owner job found
  obtain ⟨known, chunked⟩ := accounted.listed sub.owner job found
  rw [pendingItems_cons, if_pos rfl] at tally
  have nonempty : ∀ one ∈ subs, one.slots ≠ [] := fun one inside =>
    accounted.nonempty one (List.mem_cons_of_mem _ inside)
  -- every other sub-job works for another job
  have others : ∀ one ∈ subs, one.owner ≠ sub.owner := no_sub_of_pending nonempty (by omega)
  have lift : ∀ one now, next.jobs.get? one = some now →
      one ≠ sub.owner ∧ controller.jobs.get? one = some now := by
    intro one now present
    rw [jobs] at present
    split at present
    · cases present
    case isFalse different => exact ⟨different, present⟩
  constructor
  · rw [free, nBounce, List.append_assoc]
    exact accounted.slots
  · exact nonempty
  · intro one inside
    rw [jobs, if_neg (others one inside)]
    exact accounted.owned one (List.mem_cons_of_mem _ inside)
  · intro one now present
    obtain ⟨different, there⟩ := lift one now present
    have old := accounted.counted one now there
    rwa [pendingItems_cons, if_neg (Ne.symm different), Nat.zero_add] at old
  · intro one now present
    rw [accepted, chunks]
    exact accounted.listed one now (lift one now present).2
  · intro one store items present gone
    rw [accepted] at present
    rw [chunks]
    rw [jobs] at gone
    split at gone
    case isTrue here =>
      subst here
      obtain ⟨-, rfl⟩ := Prod.mk.inj (Option.some.inj (known.symm.trans present))
      rw [chunked]
      exact List.take_of_length_le (by omega)
    case isFalse => exact accounted.closed one store items present gone
  · intro one absent
    rw [chunks, taskFailed]
    exact accounted.fresh one (accepted ▸ absent)
  · intro one
    have before := accounted.results one
    rw [(history.map TransferResult.jobId).count_eq, List.map_cons, List.count_cons, jobs, accepted]
    by_cases same : one = sub.owner
    · subst same
      rw [found, if_neg (Option.some_ne_none _)] at before
      rw [if_pos rfl, if_pos rfl, beq_self_eq_true, if_pos rfl]
      exact before
    · rw [if_neg same, if_neg (by simpa using Ne.symm same)]
      exact before
  · intro result inside
    rw [taskFailed]
    rcases List.mem_cons.mp (history.mem_iff.mp inside) with rfl | old
    · dsimp only
      rw [Bool.not_eq_true', ← Bool.not_eq_true, failed]
      refine not_congr ⟨?_, ?_⟩
      · rintro (before | mine)
        · exact accounted.blamed sub.owner job found before
        · exact accounted.guilty sub List.mem_cons_self mine
      · intro bad
        rcases accounted.noticed sub.owner job found bad with before | ⟨one, there, mine, broken⟩
        · exact .inl before
        · rcases List.mem_cons.mp there with rfl | old
          · exact .inr broken
          · exact absurd mine (others one old)
    · exact accounted.success result old
  · intro one now present bad
    exact taskFailed ▸ accounted.blamed one now (lift one now present).2 bad
  · intro one now present bad
    obtain ⟨different, there⟩ := lift one now present
    rcases accounted.noticed one now there (taskFailed ▸ bad) with before | ⟨other', inside, mine, broken⟩
    · exact .inl before
    · rcases List.mem_cons.mp inside with rfl | old
      · exact absurd mine.symm different
      · exact .inr ⟨other', old, mine, broken⟩
  · exact fun one inside bad => taskFailed ▸ accounted.guilty one (List.mem_cons_of_mem _ inside) bad
  · exact fun one inside => accounted.copiesOk one (List.mem_cons_of_mem _ inside)

/-- A finished job has no result yet. -/
theorem result_of_gone (accounted : controller.Accounted subs) {result : TransferResult}
    (inside : result ∈ controller.history) : controller.jobs.get? result.jobId = none := by
  by_contra present
  have once := accounted.results result.jobId
  have some : 0 < (controller.history.map TransferResult.jobId).count result.jobId :=
    List.count_pos_iff.mpr (List.mem_map.mpr ⟨result, inside, rfl⟩)
  rw [if_neg present] at once
  split at once <;> omega

/-- A unit of a sub-job ran; when it failed, the job is noted. -/
theorem ran (accounted : controller.Accounted (sub :: subs)) (new : SubJob Key)
    (owner : new.owner = sub.owner) (slots : new.slots = sub.slots) (ok : Bool)
    (failures : some false ∈ new.ran ↔ some false ∈ sub.ran ∨ ok = false)
    (copiesOk : new.handler = .g2b ∨ new.handler = .b2g → some false ∉ new.ran) :
    ({ controller with
        taskFailed := if ok then controller.taskFailed else insert sub.owner controller.taskFailed } :
      BounceController Key groups).Accounted (new :: subs) := by
  obtain ⟨job, found⟩ := accounted.owned sub List.mem_cons_self
  obtain ⟨known, -⟩ := accounted.listed sub.owner job found
  have wider : ∀ id ∈ controller.taskFailed,
      id ∈ if ok then controller.taskFailed else insert sub.owner controller.taskFailed := by
    intro id inside
    cases ok with
    | true => exact inside
    | false => exact Finset.mem_insert_of_mem inside
  have onlyOwner : ∀ id, id ≠ sub.owner →
      id ∈ (if ok then controller.taskFailed else insert sub.owner controller.taskFailed) →
        id ∈ controller.taskFailed := by
    intro id different inside
    cases ok with
    | true => exact inside
    | false => exact (Finset.mem_insert.mp inside).resolve_left different
  constructor
  · rw [List.flatMap_cons, slots, ← List.flatMap_cons]
    exact accounted.slots
  · rintro one (_ | ⟨_, inside⟩)
    · rw [slots]
      exact accounted.nonempty sub List.mem_cons_self
    · exact accounted.nonempty one (List.mem_cons_of_mem _ inside)
  · rintro one (_ | ⟨_, inside⟩)
    · rw [owner]
      exact accounted.owned sub List.mem_cons_self
    · exact accounted.owned one (List.mem_cons_of_mem _ inside)
  · intro id job found
    rw [pendingItems_cons, owner, slots, ← pendingItems_cons]
    exact accounted.counted id job found
  · exact accounted.listed
  · exact accounted.closed
  · intro id absent
    obtain ⟨empty, innocent⟩ := accounted.fresh id absent
    refine ⟨empty, fun bad => innocent (onlyOwner id ?_ bad)⟩
    rintro rfl
    exact absurd (known.symm.trans absent) (Option.some_ne_none _)
  · exact accounted.results
  · intro result inside
    have different : result.jobId ≠ sub.owner := by
      intro same
      have gone := accounted.result_of_gone inside
      rw [same, found] at gone
      cases gone
    rw [accounted.success result inside]
    exact not_congr ⟨wider result.jobId, onlyOwner result.jobId different⟩
  · exact fun id job found bad => wider id (accounted.blamed id job found bad)
  · intro id job found bad
    have old : id ∈ controller.taskFailed →
        job.failed = true ∨ ∃ one ∈ new :: subs, one.owner = id ∧ some false ∈ one.ran := by
      intro before
      rcases accounted.noticed id job found before with said | ⟨one, inside, mine, broken⟩
      · exact .inl said
      · rcases List.mem_cons.mp inside with rfl | rest
        · exact .inr ⟨new, List.mem_cons_self, owner.trans mine, failures.mpr (.inl broken)⟩
        · exact .inr ⟨one, List.mem_cons_of_mem _ rest, mine, broken⟩
    cases ok with
    | true => exact old bad
    | false =>
        rcases Finset.mem_insert.mp bad with rfl | before
        · exact .inr ⟨new, List.mem_cons_self, owner, failures.mpr (.inr rfl)⟩
        · exact old before
  · rintro one (_ | ⟨_, inside⟩) bad
    · rw [owner]
      rcases failures.mp bad with before | now
      · exact wider _ (accounted.guilty sub List.mem_cons_self before)
      · rw [now]
        exact Finset.mem_insert_self _ _
    · exact wider _ (accounted.guilty one (List.mem_cons_of_mem _ inside) bad)
  · rintro one (_ | ⟨_, inside⟩)
    · exact copiesOk
    · exact accounted.copiesOk one (List.mem_cons_of_mem _ inside)

/-- A chunk takes its slots from the front of the free list and the next items of its job. -/
theorem take (accounted : controller.Accounted subs) {id n : Nat} {job : DirectJob Key}
    (found : controller.jobs.get? id = some job) (positive : 0 < n) (available : n ≤ controller.free.length)
    (left : job.nextItem + n ≤ job.items.length) (new : SubJob Key) (owner : new.owner = id)
    (slots : new.slots = controller.free.take n) (clean : some false ∉ new.ran) :
    ({ controller with
        free := controller.free.drop n
        chunks := Function.update controller.chunks id
          (controller.chunks id ++ [(job.items.drop job.nextItem).take n])
        jobs := controller.jobs.set id { job with nextItem := job.nextItem + n } } :
      BounceController Key groups).Accounted (new :: subs) := by
  obtain ⟨named, tally, within, short⟩ := accounted.counted id job found
  obtain ⟨known, chunked⟩ := accounted.listed id job found
  have size : new.slots.length = n := by rw [slots, List.length_take]; omega
  have absent := OrderedDict.get?_set_none_iff found { job with nextItem := job.nextItem + n }
  constructor
  · rw [List.flatMap_cons, slots, ← List.append_assoc]
    refine (List.Perm.append_right _ ?_).trans accounted.slots
    exact List.perm_append_comm.trans (List.Perm.of_eq (List.take_append_drop n _))
  · rintro one (_ | ⟨_, inside⟩)
    · intro empty
      rw [empty] at size
      exact absurd size.symm positive.ne'
    · exact accounted.nonempty one inside
  · intro one inside
    refine Option.ne_none_iff_exists'.mp ?_
    rw [ne_eq, absent]
    rcases List.mem_cons.mp inside with rfl | old
    · rw [owner, found]
      exact Option.some_ne_none _
    · obtain ⟨before, there⟩ := accounted.owned one old
      rw [there]
      exact Option.some_ne_none _
  · intro one now present
    rcases OrderedDict.get?_set_cases present with ⟨rfl, rfl⟩ | ⟨different, there⟩
    · rw [pendingItems_cons, if_pos owner, size]
      exact ⟨named, by dsimp only; omega, left, short⟩
    · rw [pendingItems_cons, if_neg (owner ▸ Ne.symm different), Nat.zero_add]
      exact accounted.counted one now there
  · intro one now present
    rcases OrderedDict.get?_set_cases present with ⟨rfl, rfl⟩ | ⟨different, there⟩
    · refine ⟨known, ?_⟩
      dsimp only
      rw [Function.update_self, List.flatten_append, chunked, List.flatten_singleton, ← List.take_add]
    · dsimp only
      rw [Function.update_of_ne different]
      exact accounted.listed one now there
  · intro one store items present gone
    have different : one ≠ id := by
      rintro rfl
      rw [absent, found] at gone
      cases gone
    dsimp only
    rw [Function.update_of_ne different]
    exact accounted.closed one store items present ((absent one).mp gone)
  · intro one unknown
    have different : one ≠ id := by
      rintro rfl
      exact absurd (known.symm.trans unknown) (Option.some_ne_none _)
    dsimp only
    rw [Function.update_of_ne different]
    exact accounted.fresh one unknown
  · intro one
    have before := accounted.results one
    simp only [absent]
    exact before
  · exact accounted.success
  · intro one now present bad
    rcases OrderedDict.get?_set_cases present with ⟨rfl, rfl⟩ | ⟨-, there⟩
    · exact accounted.blamed one job found bad
    · exact accounted.blamed one now there bad
  · intro one now present bad
    have keep : (∃ other ∈ subs, other.owner = one ∧ some false ∈ other.ran) →
        ∃ other ∈ new :: subs, other.owner = one ∧ some false ∈ other.ran := by
      rintro ⟨other, inside, rest⟩
      exact ⟨other, List.mem_cons_of_mem _ inside, rest⟩
    rcases OrderedDict.get?_set_cases present with ⟨rfl, rfl⟩ | ⟨-, there⟩
    · exact (accounted.noticed one job found bad).imp_right keep
    · exact (accounted.noticed one now there bad).imp_right keep
  · rintro one (_ | ⟨_, inside⟩) bad
    · exact absurd bad clean
    · exact accounted.guilty one inside bad
  · rintro one (_ | ⟨_, inside⟩) copy
    · exact clean
    · exact accounted.copiesOk one inside copy

/-- A new job has nothing under way. -/
theorem accept (accounted : controller.Accounted subs) {id : Nat} {job : DirectJob Key}
    (new : controller.accepted.get? id = none) (named : job.jobId = id) (nextItem : job.nextItem = 0)
    (doneItems : job.doneItems = 0) (failed : job.failed = false) (items : job.items ≠ []) :
    ({ controller with
        jobs := controller.jobs.set id job
        accepted := controller.accepted.set id (job.store, job.items) } :
      BounceController Key groups).Accounted subs := by
  obtain ⟨empty, innocent⟩ := accounted.fresh id new
  have unknown : controller.jobs.get? id = none := by
    by_contra present
    obtain ⟨old, there⟩ := Option.ne_none_iff_exists'.mp present
    exact absurd (new.symm.trans (accounted.listed id old there).1) (Option.some_ne_none _).symm
  have unowned : ∀ one ∈ subs, one.owner ≠ id := by
    intro one inside same
    obtain ⟨old, there⟩ := accounted.owned one inside
    rw [same, unknown] at there
    cases there
  have nothing : pendingItems subs id = 0 := by
    refine List.sum_eq_zero fun count inside => ?_
    obtain ⟨one, there, rfl⟩ := List.mem_map.mp inside
    exact if_neg (unowned one there)
  have positive : 0 < job.items.length := List.length_pos_of_ne_nil items
  constructor
  · exact accounted.slots
  · exact accounted.nonempty
  · intro one inside
    dsimp only
    rw [OrderedDict.get?_set_of_ne _ _ (unowned one inside)]
    exact accounted.owned one inside
  · intro one now present
    rcases OrderedDict.get?_set_cases present with ⟨rfl, rfl⟩ | ⟨-, there⟩
    · rw [nothing, nextItem, doneItems]
      exact ⟨named, rfl, Nat.zero_le _, positive⟩
    · exact accounted.counted one now there
  · intro one now present
    rcases OrderedDict.get?_set_cases present with ⟨rfl, rfl⟩ | ⟨different, there⟩
    · refine ⟨OrderedDict.get?_set_self _ _ _, ?_⟩
      dsimp only
      rw [empty, nextItem]
      rfl
    · dsimp only
      rw [OrderedDict.get?_set_of_ne _ _ different]
      exact accounted.listed one now there
  · intro one store others present gone
    dsimp only at present gone ⊢
    by_cases same : one = id
    · rw [same, OrderedDict.get?_set_self] at gone
      cases gone
    · rw [OrderedDict.get?_set_of_ne _ _ same] at present gone
      exact accounted.closed one store others present gone
  · intro one absent
    dsimp only at absent
    by_cases same : one = id
    · rw [same, OrderedDict.get?_set_self] at absent
      cases absent
    · rw [OrderedDict.get?_set_of_ne _ _ same] at absent
      exact accounted.fresh one absent
  · intro one
    have before := accounted.results one
    dsimp only
    by_cases same : one = id
    · subst same
      rw [unknown, new, if_pos rfl, if_pos rfl] at before
      rw [OrderedDict.get?_set_self, OrderedDict.get?_set_self, if_neg (Option.some_ne_none _),
        if_neg (Option.some_ne_none _)]
      change (controller.history.map TransferResult.jobId).count one + 1 = 1
      omega
    · rw [OrderedDict.get?_set_of_ne _ _ same, OrderedDict.get?_set_of_ne _ _ same]
      exact before
  · exact accounted.success
  · intro one now present bad
    rcases OrderedDict.get?_set_cases present with ⟨rfl, rfl⟩ | ⟨-, there⟩
    · rw [failed] at bad
      cases bad
    · exact accounted.blamed one now there bad
  · intro one now present bad
    rcases OrderedDict.get?_set_cases present with ⟨rfl, rfl⟩ | ⟨-, there⟩
    · exact absurd bad innocent
    · exact accounted.noticed one now there bad
  · exact accounted.guilty
  · exact accounted.copiesOk

end Accounted

end DgxSpark.Bounce.BounceController
