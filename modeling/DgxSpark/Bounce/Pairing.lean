import DgxSpark.Bounce.Accounting
import DgxSpark.Bounce.Views

/-
This file follows the bytes of a load: from the read of a key into its bounce slot to the pages of the
GPU block that is paired with the key.
-/

namespace DgxSpark.Bounce.BounceController

variable {Key : Type} {groups : Nat} (setup : Setup Key groups)

/-- The items of a job are listed group by group. -/
def ByGroup (items : List (Key × Int)) : Prop := (items.map fun item => setup.group item.1).Pairwise (· ≤ ·)

/-- The items of a chunk with their bounce slots. -/
def rows (sub : SubJob Key) : List ((Key × Int) × Nat) := sub.items.zip sub.slots

/-- A slot holds what a read of the key for the job returned. -/
def Filled (controller : BounceController Key groups) (job : Nat) (key : Key) (slot : Nat)
    (fetch : Fetched Key) : Prop :=
  fetch ∈ controller.fetched ∧ fetch.job = job ∧ fetch.key = key ∧
    Holds setup controller.bounce key slot fetch.bytes

/-- The page of an item that the bytes of a read give, as a GPU write. -/
def pageWrite (job : Nat) (item : Key × Int) (fetch : Fetched Key) (view : Nat × Nat) : GpuWrite :=
  ⟨job, view.1, item.2, pageOf setup item.1 fetch.bytes view.1 view.2⟩

/-- Every read that has run filled its slot. -/
def Reading (controller : BounceController Key groups) (sub : SubJob Key) : Prop :=
  ∀ (place : Nat) row, (rows sub)[place]? = some row → sub.ran[place]? = some (some true) →
    ∃ fetch, Filled setup controller sub.owner row.1.1 row.2 fetch

/-- Every slot is filled, and the copies that have run wrote its pages. -/
def Returning (controller : BounceController Key groups) (sub : SubJob Key) : Prop :=
  ∀ row ∈ rows sub, ∃ fetch, Filled setup controller sub.owner row.1.1 row.2 fetch ∧
    ∀ (place : Nat) view, view ∈ setup.groupLayout (setup.group row.1.1) →
      sub.work[place]? = some (.page ⟨view.1, view.2, row.2, row.1.2⟩) → sub.ran[place]? = some (some true) →
        pageWrite setup sub.owner row.1 fetch view ∈ controller.gpuLog

/-- A write to a block brings what a read of the paired key for the same job returned. -/
def Genuine (controller : BounceController Key groups) (write : GpuWrite) : Prop :=
  ∃ items, controller.accepted.get? write.job = some (false, items) ∧
    (ByGroup setup items → ∃ item ∈ items, ∃ fetch ∈ controller.fetched,
      fetch.job = write.job ∧ fetch.key = item.1 ∧
        ∃ view ∈ setup.groupLayout (setup.group item.1), write = pageWrite setup write.job item fetch view)

/-- All pages of the item were written with the bytes of one read. -/
def Delivered (controller : BounceController Key groups) (id : Nat) (item : Key × Int) : Prop :=
  ∃ fetch ∈ controller.fetched, fetch.job = id ∧ fetch.key = item.1 ∧
    ∀ view ∈ setup.groupLayout (setup.group item.1), pageWrite setup id item fetch view ∈ controller.gpuLog

def Settled (controller : BounceController Key groups) (id : Nat) (item : Key × Int) : Prop :=
  item.2 ∈ controller.spoiled id ∨ Delivered setup controller id item

/-- The bytes are where they belong, for a controller whose sub-jobs are the listed ones. -/
structure Truthful (controller : BounceController Key groups) (subs : List (SubJob Key)) : Prop where
  paced : ∀ sub ∈ subs, sub.ran.length = sub.work.length
  reading : ∀ sub ∈ subs, sub.handler = .reader → Reading setup controller sub
  returning : ∀ sub ∈ subs, sub.handler = .b2g → Returning setup controller sub
  genuine : ∀ write ∈ controller.gpuLog, Genuine setup controller write
  settled : ∀ id items, controller.accepted.get? id = some (false, items) → ByGroup setup items →
    ∀ item ∈ (controller.chunks id).flatten,
      (∃ sub ∈ subs, sub.owner = id ∧ item ∈ sub.items) ∨ Settled setup controller id item
  invalid : ∀ id, controller.spoiled id ⊆ controller.failedGpuBlocks ∪ controller.invalid
  failed : ∀ id, (controller.spoiled id).Nonempty → id ∈ controller.taskFailed

variable {setup} {controller next : BounceController Key groups} {sub : SubJob Key} {subs others : List (SubJob Key)}

/-! ### Frames -/

/-- What grows and what stays when bytes move elsewhere. -/
structure Grows (controller next : BounceController Key groups) : Prop where
  fetched : controller.fetched ⊆ next.fetched
  gpuLog : controller.gpuLog ⊆ next.gpuLog
  accepted : next.accepted = controller.accepted
  spoiled : ∀ id, controller.spoiled id ⊆ next.spoiled id

theorem Filled.grows (grows : Grows controller next) {job slot : Nat} {key : Key} {fetch : Fetched Key}
    (filled : Filled setup controller job key slot fetch)
    (same : ∀ tensor offset, next.bounce tensor slot offset = controller.bounce tensor slot offset) :
    Filled setup next job key slot fetch :=
  ⟨grows.fetched filled.1, filled.2.1, filled.2.2.1, filled.2.2.2.congr same⟩

theorem Genuine.grows (grows : Grows controller next) {write : GpuWrite} (genuine : Genuine setup controller write) :
    Genuine setup next write := by
  obtain ⟨items, known, source⟩ := genuine
  refine ⟨items, grows.accepted ▸ known, fun sorted => ?_⟩
  obtain ⟨item, inside, fetch, fetched, rest⟩ := source sorted
  exact ⟨item, inside, fetch, grows.fetched fetched, rest⟩

theorem Settled.grows (grows : Grows controller next) {id : Nat} {item : Key × Int}
    (settled : Settled setup controller id item) : Settled setup next id item := by
  rcases settled with spoiled | ⟨fetch, fetched, mine, same, pages⟩
  · exact .inl (grows.spoiled id spoiled)
  · exact .inr ⟨fetch, grows.fetched fetched, mine, same, fun view inside => grows.gpuLog (pages view inside)⟩

theorem mem_rows {row : (Key × Int) × Nat} (inside : row ∈ rows sub) : row.1 ∈ sub.items ∧ row.2 ∈ sub.slots :=
  List.of_mem_zip inside

theorem Reading.grows (grows : Grows controller next) (reading : Reading setup controller sub)
    (same : ∀ slot ∈ sub.slots, ∀ tensor offset,
      next.bounce tensor slot offset = controller.bounce tensor slot offset) : Reading setup next sub := by
  intro place row here ran
  obtain ⟨fetch, filled⟩ := reading place row here ran
  exact ⟨fetch, filled.grows grows (same _ (mem_rows (List.mem_of_getElem? here)).2)⟩

theorem Returning.grows (grows : Grows controller next) (returning : Returning setup controller sub)
    (same : ∀ slot ∈ sub.slots, ∀ tensor offset,
      next.bounce tensor slot offset = controller.bounce tensor slot offset) : Returning setup next sub := by
  intro row inside
  obtain ⟨fetch, filled, written⟩ := returning row inside
  refine ⟨fetch, filled.grows grows (same _ (mem_rows inside).2), ?_⟩
  exact fun place view viewed listed ran => grows.gpuLog (written place view viewed listed ran)

namespace Truthful

/-- The bytes stay true when the memories grow outside the slots of the sub-jobs. -/
theorem grows (truthful : Truthful setup controller subs) (grows : Grows controller next)
    (same : ∀ sub ∈ subs, ∀ slot ∈ sub.slots, ∀ tensor offset,
      next.bounce tensor slot offset = controller.bounce tensor slot offset)
    (log : next.gpuLog = controller.gpuLog) (chunks : next.chunks = controller.chunks)
    (invalid : ∀ id, next.spoiled id ⊆ next.failedGpuBlocks ∪ next.invalid)
    (failed : ∀ id, (next.spoiled id).Nonempty → id ∈ next.taskFailed) : Truthful setup next subs where
  paced := truthful.paced
  reading one inside handler := (truthful.reading one inside handler).grows grows (same one inside)
  returning one inside handler := (truthful.returning one inside handler).grows grows (same one inside)
  genuine write inside := (truthful.genuine write (log ▸ inside)).grows grows
  settled id items known sorted item inside := by
    rw [chunks] at inside
    exact (truthful.settled id items (grows.accepted ▸ known) sorted item inside).imp_right (Settled.grows grows)
  invalid := invalid
  failed := failed

theorem transfer (truthful : Truthful setup controller subs) (bounce : next.bounce = controller.bounce)
    (fetched : next.fetched = controller.fetched) (log : next.gpuLog = controller.gpuLog)
    (accepted : next.accepted = controller.accepted) (chunks : next.chunks = controller.chunks)
    (spoiled : next.spoiled = controller.spoiled)
    (invalid : controller.failedGpuBlocks ∪ controller.invalid ⊆ next.failedGpuBlocks ∪ next.invalid)
    (failed : controller.taskFailed ⊆ next.taskFailed) : Truthful setup next subs := by
  refine truthful.grows ⟨?_, ?_, accepted, fun id => ?_⟩ (fun _ _ _ _ _ _ => by rw [bounce]) log chunks ?_ ?_
  · rw [fetched]
    exact List.Subset.refl _
  · rw [log]
    exact List.Subset.refl _
  · rw [spoiled]
  · intro id
    rw [spoiled]
    exact (truthful.invalid id).trans invalid
  · intro id
    rw [spoiled]
    exact fun some => failed (truthful.failed id some)

theorem perm (truthful : Truthful setup controller subs) (same : others.Perm subs) :
    Truthful setup controller others where
  paced one inside := truthful.paced one (same.mem_iff.mp inside)
  reading one inside := truthful.reading one (same.mem_iff.mp inside)
  returning one inside := truthful.returning one (same.mem_iff.mp inside)
  genuine := truthful.genuine
  settled id items known sorted item inside := by
    rcases truthful.settled id items known sorted item inside with ⟨one, there, rest⟩ | done
    · exact .inl ⟨one, same.mem_iff.mpr there, rest⟩
    · exact .inr done
  invalid := truthful.invalid
  failed := truthful.failed

/-- A sub-job may be exchanged for one that moves the same items of the same job. -/
theorem exchange (truthful : Truthful setup controller (sub :: subs)) (new : SubJob Key)
    (owner : new.owner = sub.owner) (items : new.items = sub.items) (paced : new.ran.length = new.work.length)
    (reading : new.handler = .reader → Reading setup controller new)
    (returning : new.handler = .b2g → Returning setup controller new) : Truthful setup controller (new :: subs) where
  paced := by
    rintro one (_ | ⟨_, inside⟩)
    · exact paced
    · exact truthful.paced one (List.mem_cons_of_mem _ inside)
  reading := by
    rintro one (_ | ⟨_, inside⟩)
    · exact reading
    · exact truthful.reading one (List.mem_cons_of_mem _ inside)
  returning := by
    rintro one (_ | ⟨_, inside⟩)
    · exact returning
    · exact truthful.returning one (List.mem_cons_of_mem _ inside)
  genuine := truthful.genuine
  settled id all known sorted item inside := by
    rcases truthful.settled id all known sorted item inside with ⟨one, there, mine, moved⟩ | done
    · rcases List.mem_cons.mp there with rfl | old
      · exact .inl ⟨new, List.mem_cons_self, owner.trans mine, items.symm ▸ moved⟩
      · exact .inl ⟨one, List.mem_cons_of_mem _ old, mine, moved⟩
    · exact .inr done
  invalid := truthful.invalid
  failed := truthful.failed

/-- A sub-job whose items are settled may be dropped. -/
theorem drop (truthful : Truthful setup controller (sub :: subs))
    (done : ∀ items, controller.accepted.get? sub.owner = some (false, items) → ByGroup setup items →
      ∀ item ∈ sub.items, Settled setup controller sub.owner item) : Truthful setup controller subs where
  paced one inside := truthful.paced one (List.mem_cons_of_mem _ inside)
  reading one inside := truthful.reading one (List.mem_cons_of_mem _ inside)
  returning one inside := truthful.returning one (List.mem_cons_of_mem _ inside)
  genuine := truthful.genuine
  settled id items known sorted item inside := by
    rcases truthful.settled id items known sorted item inside with ⟨one, there, mine, moved⟩ | settled
    · rcases List.mem_cons.mp there with rfl | old
      · subst mine
        exact .inr (done items known sorted item moved)
      · exact .inl ⟨one, old, mine, moved⟩
    · exact .inr settled
  invalid := truthful.invalid
  failed := truthful.failed

theorem release (truthful : Truthful setup controller subs) (job : DirectJob Key) (slots : List Nat) :
    Truthful setup (controller.release job slots) subs := by
  unfold BounceController.release
  dsimp only
  split
  · exact truthful.transfer rfl rfl rfl rfl rfl rfl subset_rfl subset_rfl
  · exact truthful.transfer rfl rfl rfl rfl rfl rfl subset_rfl subset_rfl

/-- A launched sub-job is the one in hand. -/
theorem launch (truthful : Truthful setup controller (sub :: controller.handlers.values)) (job : DirectJob Key)
    (unused : controller.handlers.get? (controller.subCounter + 1) = none) :
    Truthful setup (controller.launch job sub) (controller.launch job sub).handlers.values :=
  (truthful.perm (values_set unused)).transfer rfl rfl rfl rfl rfl rfl subset_rfl subset_rfl

theorem collect (truthful : Truthful setup controller controller.handlers.values) {sid : Nat}
    (found : controller.handlers.get? sid = some sub) :
    Truthful setup (controller.collect sid) (sub :: (controller.collect sid).handlers.values) :=
  (truthful.perm (values_erase found)).transfer rfl rfl rfl rfl rfl rfl subset_rfl subset_rfl

end Truthful

theorem started_paced (handler : Handler) (owner : Nat) (slots : List Nat) (items : List (Key × Int))
    (work : List (Work Key)) :
    (SubJob.started handler owner slots items work).ran.length =
      (SubJob.started handler owner slots items work).work.length := List.length_map _

theorem started_waits (handler : Handler) (owner : Nat) (slots : List Nat) (items : List (Key × Int))
    (work : List (Work Key)) (place : Nat) :
    (SubJob.started handler owner slots items work).ran[place]? ≠ some (some true) := by
  intro ran
  obtain ⟨_, _, same⟩ := List.mem_map.mp (List.mem_of_getElem? ran)
  cases same

/-- Every unit of a finished sub-job without failures has run well. -/
theorem ran_of_finished (paced : sub.ran.length = sub.work.length) (finished : sub.Finished)
    (clean : some false ∉ sub.ran) {place : Nat} (bound : place < sub.work.length) :
    sub.ran[place]? = some (some true) := by
  have here : place < sub.ran.length := paced ▸ bound
  rw [List.getElem?_eq_getElem here]
  have inside : sub.ran[place] ∈ sub.ran := List.getElem_mem here
  cases outcome : sub.ran[place] with
  | none =>
      rw [outcome] at inside
      exact absurd inside finished
  | some ok =>
      cases ok with
      | true => rfl
      | false =>
          rw [outcome] at inside
          exact absurd inside clean

/-! ### Stages -/

/-- The account, the routing and the bytes together. -/
structure Verified (setup : Setup Key groups) (controller : BounceController Key groups) : Prop where
  sound : controller.Sound setup
  truthful : Truthful setup controller controller.handlers.values

variable {sid : Nat}

theorem Verified.linked (verified : controller.Verified setup) (found : controller.handlers.get? sid = some sub) :
    ∃ job, controller.jobs.get? sub.owner = some job ∧ Linked setup job sid sub :=
  (verified.sound.wired.linked sid sub found).2

theorem mem_values (found : controller.handlers.get? sid = some sub) : sub ∈ controller.handlers.values :=
  OrderedDict.mem_values_iff.mpr ⟨sid, found⟩

/-- The items of a load chunk are items of its accepted job. -/
theorem Verified.chunk_items (verified : controller.Verified setup) {job : DirectJob Key}
    (held : controller.jobs.get? sub.owner = some job) (chunk : LoadChunk job sid sub) :
    controller.accepted.get? sub.owner = some (false, job.items) ∧ sub.items ⊆ job.items := by
  obtain ⟨known, -⟩ := verified.sound.accounted.listed _ job held
  rw [chunk.isLoad] at known
  exact ⟨known, chunk.piece.subset⟩

theorem copyDone_truthful (verified : controller.Verified setup)
    (found : controller.handlers.get? sid = some sub) (handler : sub.handler = .g2b) (ok : Bool)
    (taken : copyDone setup controller (sid, ok) = some next) :
    Truthful setup next next.handlers.values := by
  obtain ⟨job, slotsKeys, -, named, chunk, same⟩ := copyDone_eq verified.sound found handler ok
  rw [same] at taken
  cases taken
  have collected := verified.truthful.collect found
  refine (collected.exchange _ named chunk.noItems.symm (started_paced _ _ _ _ _) ?_ ?_).launch _
    (unused verified.sound)
  · exact fun reader => absurd (show Handler.files = .reader from reader) (by decide)
  · exact fun back => absurd (show Handler.files = .b2g from back) (by decide)

theorem writeDone_truthful (verified : controller.Verified setup)
    (found : controller.handlers.get? sid = some sub) (handler : sub.handler = .files) (ok : Bool)
    (taken : writeDone controller (sid, ok) = some next) : Truthful setup next next.handlers.values := by
  obtain ⟨job, -, nothing, same⟩ := writeDone_eq verified.sound found handler ok
  rw [same] at taken
  cases taken
  rw [release_handlers]
  refine ((verified.truthful.collect found).drop ?_).release _ _
  intro items _ _ item inside
  rw [nothing] at inside
  exact absurd inside List.not_mem_nil

/-- When all reads of a chunk returned, every slot of it is filled. -/
theorem returning_of_reading (reading : Reading setup controller sub) (paced : sub.ran.length = sub.work.length)
    (finished : sub.Finished) (clean : some false ∉ sub.ran)
    (work : sub.work = ((sub.items.map Prod.fst).zip sub.slots).map fun pair => .read pair.1 pair.2)
    (pages : List (Work Key)) :
    Returning setup controller (.started .b2g sub.owner sub.slots sub.items pages) := by
  intro row inside
  obtain ⟨place, bound, here⟩ := List.mem_iff_getElem.mp inside
  have size : (rows sub).length = sub.work.length := by
    rw [work, rows, List.length_map, List.length_zip, List.length_zip, List.length_map]
  have ran := ran_of_finished paced finished clean (size ▸ bound)
  obtain ⟨fetch, filled⟩ := reading place row (List.getElem?_eq_some_iff.mpr ⟨bound, here⟩) ran
  refine ⟨fetch, filled, ?_⟩
  exact fun other _ _ _ now => absurd now (started_waits _ _ _ _ _ other)

theorem readDone_truthful (verified : controller.Verified setup)
    (found : controller.handlers.get? sid = some sub) (handler : sub.handler = .reader)
    (finished : sub.Finished) {ok : Bool} (outcome : ok = sub.ok)
    (taken : readDone setup controller (sid, ok) = some next) : Truthful setup next next.handlers.values := by
  obtain ⟨job, held, named, chunk, same⟩ := readDone_eq verified.sound found handler ok
  rw [same] at taken
  cases taken
  have inside := mem_values found
  have collected := verified.truthful.collect found
  split
  case isTrue good =>
    have clean : some false ∉ sub.ran := fun bad => by
      rw [outcome, (ok_iff sub).mpr bad] at good
      cases good
    obtain ⟨other, there, linked⟩ := verified.linked found
    unfold Linked at linked
    rw [handler] at linked
    have reading : Reading setup (controller.collect sid) sub := collected.reading sub List.mem_cons_self handler
    have filled := returning_of_reading reading (verified.truthful.paced sub inside) finished clean linked.2
    rw [named]
    refine (collected.exchange (.started .b2g sub.owner sub.slots sub.items _) rfl rfl (started_paced _ _ _ _ _)
      ?_ ?_).launch _ (unused verified.sound)
    · exact fun reader => absurd (show Handler.b2g = .reader from reader) (by decide)
    · exact fun _ => filled _
  case isFalse bad =>
    have broken : some false ∈ sub.ran := by
      rw [← ok_iff sub, ← outcome]
      exact Bool.eq_false_iff.mpr bad
    have guilty := verified.sound.accounted.guilty sub inside broken
    have wider : ∀ id, controller.spoiled id ⊆ Function.update controller.spoiled job.jobId
        (controller.spoiled job.jobId ∪ (sub.items.map Prod.snd).toFinset) id := by
      intro id
      by_cases mine : id = job.jobId
      · rw [mine, Function.update_self]
        exact Finset.subset_union_left
      · rw [Function.update_of_ne mine]
    rw [release_handlers]
    have grows : Grows (controller.collect sid) { controller.collect sid with
        failedGpuBlocks := controller.failedGpuBlocks ∪ (sub.items.map Prod.snd).toFinset
        spoiled := Function.update controller.spoiled job.jobId
          (controller.spoiled job.jobId ∪ (sub.items.map Prod.snd).toFinset) } :=
      ⟨List.Subset.refl _, List.Subset.refl _, rfl, wider⟩
    refine Truthful.release (Truthful.drop
      (collected.grows grows (fun _ _ _ _ _ _ => rfl) rfl rfl ?_ ?_) ?_) _ _
    · intro id
      dsimp only
      by_cases mine : id = job.jobId
      · rw [mine, Function.update_self]
        have old := verified.truthful.invalid job.jobId
        refine Finset.union_subset (old.trans ?_) ?_
        · exact Finset.union_subset_union_left Finset.subset_union_left
        · exact Finset.subset_union_right.trans Finset.subset_union_left
      · rw [Function.update_of_ne mine]
        exact (verified.truthful.invalid id).trans (Finset.union_subset_union_left Finset.subset_union_left)
    · intro id some
      dsimp only at some ⊢
      by_cases mine : id = job.jobId
      · rw [mine, named]
        exact guilty
      · rw [Function.update_of_ne mine] at some
        exact verified.truthful.failed id some
    · intro items _ _ item moved
      left
      dsimp only
      rw [named, Function.update_self]
      exact Finset.mem_union_right _ (List.mem_toFinset.mpr (List.mem_map.mpr ⟨item, moved, rfl⟩))

theorem returnDone_truthful (byGroup : PagesByGroup setup) (verified : controller.Verified setup)
    (found : controller.handlers.get? sid = some sub) (handler : sub.handler = .b2g)
    (finished : sub.Finished) (ok : Bool) (taken : returnDone controller (sid, ok) = some next) :
    Truthful setup next next.handlers.values := by
  obtain ⟨job, held, chunk, work, same⟩ := returnDone_eq verified.sound found handler ok
  rw [same] at taken
  cases taken
  have inside := mem_values found
  have clean := verified.sound.accounted.copiesOk sub inside (.inr handler)
  have paced := verified.truthful.paced sub inside
  have collected := verified.truthful.collect found
  obtain ⟨known, part⟩ := verified.chunk_items held chunk
  rw [release_handlers]
  refine (collected.drop ?_).release _ _
  intro items listed sorted item moved
  obtain ⟨-, rfl⟩ := Prod.mk.inj (Option.some.inj (known.symm.trans listed))
  have sortedChunk : (sub.items.map fun item => setup.group item.1).Pairwise (· ≤ ·) :=
    sorted.sublist (chunk.piece.sublist.map _)
  -- the row of the item, and its pages among the copies of the chunk
  obtain ⟨place, bound, here⟩ := List.mem_iff_getElem.mp moved
  have slotBound : place < sub.slots.length := chunk.count ▸ bound
  have row : (item, sub.slots[place]) ∈ rows sub := by
    refine List.mem_iff_getElem.mpr ⟨place, by rw [rows, List.length_zip]; omega, ?_⟩
    simp only [rows, List.getElem_zip, here]
  obtain ⟨fetch, filled, written⟩ := collected.returning sub List.mem_cons_self handler _ row
  refine .inr ⟨fetch, filled.1, filled.2.1, filled.2.2.1, fun view viewed => ?_⟩
  have page := (mem_pages_iff byGroup chunk.count sortedChunk).mpr ⟨_, row, view, viewed, rfl⟩
  have unitListed : Work.page ⟨view.1, view.2, sub.slots[place], item.2⟩ ∈ sub.work := by
    rw [work]
    exact List.mem_map.mpr ⟨_, page, rfl⟩
  obtain ⟨unit, unitBound, unitHere⟩ := List.mem_iff_getElem.mp unitListed
  exact written unit view viewed (List.getElem?_eq_some_iff.mpr ⟨unitBound, unitHere⟩)
    (ran_of_finished paced finished clean unitBound)

theorem drain_verified (byGroup : PagesByGroup setup) (verified : controller.Verified setup) {handler : Handler}
    {done : List (Nat × Bool)} (reports : controller.Reports handler done) :
    ∃ next, drain setup controller handler done = some next ∧ next.Verified setup := by
  cases handler with
  | g2b =>
      refine run_reports (fun start report sub held found mine ended ok => ?_) done controller verified reports
      obtain ⟨next, taken, sound, others⟩ := copyDone_handles start report sub held.sound found mine ended ok
      exact ⟨next, taken, ⟨sound, copyDone_truthful held found mine report.2 taken⟩, others⟩
  | files =>
      refine run_reports (fun start report sub held found mine ended ok => ?_) done controller verified reports
      obtain ⟨next, taken, sound, others⟩ := writeDone_handles start report sub held.sound found mine ended ok
      exact ⟨next, taken, ⟨sound, writeDone_truthful held found mine report.2 taken⟩, others⟩
  | reader =>
      refine run_reports (fun start report sub held found mine ended ok => ?_) done controller verified reports
      obtain ⟨next, taken, sound, others⟩ := readDone_handles start report sub held.sound found mine ended ok
      exact ⟨next, taken, ⟨sound, readDone_truthful held found mine ended ok taken⟩, others⟩
  | b2g =>
      refine run_reports (fun start report sub held found mine ended ok => ?_) done controller verified reports
      obtain ⟨next, taken, sound, others⟩ := returnDone_handles start report sub held.sound found mine ended ok
      exact ⟨next, taken, ⟨sound, returnDone_truthful byGroup held found mine ended report.2 taken⟩, others⟩

/-! ### New chunks -/

/-- A new chunk has the items that the job hands out. -/
theorem Truthful.take (truthful : Truthful setup controller subs) {id : Nat} {chunk : List (Key × Int)}
    (free : List Nat) (new : SubJob Key) (owner : new.owner = id) (paced : new.ran.length = new.work.length)
    (waits : ∀ place : Nat, new.ran[place]? ≠ some (some true)) (handler : new.handler ≠ .b2g)
    (items : ∀ all, controller.accepted.get? id = some (false, all) → chunk ⊆ new.items) :
    Truthful setup { controller with
      free := free
      chunks := Function.update controller.chunks id (controller.chunks id ++ [chunk]) } (new :: subs) where
  paced := by
    rintro one (_ | ⟨_, inside⟩)
    · exact paced
    · exact truthful.paced one inside
  reading := by
    rintro one (_ | ⟨_, inside⟩) mine
    · exact fun place _ _ ran => absurd ran (waits place)
    · exact truthful.reading one inside mine
  returning := by
    rintro one (_ | ⟨_, inside⟩) mine
    · exact absurd mine handler
    · exact truthful.returning one inside mine
  genuine := truthful.genuine
  settled other all known sorted item inside := by
    have old : item ∈ (controller.chunks other).flatten →
        (∃ sub ∈ new :: subs, sub.owner = other ∧ item ∈ sub.items) ∨ Settled setup controller other item := by
      intro before
      rcases truthful.settled other all known sorted item before with ⟨one, there, rest⟩ | done
      · exact .inl ⟨one, List.mem_cons_of_mem _ there, rest⟩
      · exact .inr done
    by_cases same : other = id
    · subst same
      dsimp only at inside
      rw [Function.update_self, List.flatten_append, List.flatten_singleton] at inside
      rcases List.mem_append.mp inside with before | now
      · exact old before
      · exact .inl ⟨new, List.mem_cons_self, owner, items all known now⟩
    · dsimp only at inside
      rw [Function.update_of_ne same] at inside
      exact old inside
  invalid := truthful.invalid
  failed := truthful.failed

theorem startChunk_verified (store : Bool) (verified : controller.Verified setup) (id : Nat) :
    (startChunk setup store controller id).Verified setup := by
  refine ⟨startChunk_sound store verified.sound id, ?_⟩
  unfold startChunk
  split
  · exact verified.truthful
  case h_2 job found =>
    split
    · exact verified.truthful
    case isFalse =>
      obtain ⟨known, -⟩ := verified.sound.accounted.listed id job found
      have named := (verified.sound.accounted.counted id job found).1
      have unused := verified.sound.wired.ids _ (Nat.lt_succ_self controller.subCounter)
      dsimp only
      split
      case isTrue isStore =>
        refine (verified.truthful.take _ _ named (started_paced _ _ _ _ _) (started_waits _ _ _ _ _) ?_ ?_).launch _
          unused
        · exact fun back => absurd (show Handler.g2b = .b2g from back) (by decide)
        · intro all other
          rw [known, isStore] at other
          cases other
      case isFalse =>
        refine (verified.truthful.take _ _ named (started_paced _ _ _ _ _) (started_waits _ _ _ _ _) ?_ ?_).launch _
          unused
        · exact fun back => absurd (show Handler.reader = .b2g from back) (by decide)
        · exact fun _ _ => List.Subset.refl _

theorem startChunks_verified (verified : controller.Verified setup) :
    (startChunks setup controller).Verified setup := by
  have pass : ∀ store (ids : List Nat) (start : BounceController Key groups), start.Verified setup →
      (ids.foldl (startChunk setup store) start).Verified setup := by
    intro store ids
    induction ids with
    | nil => exact fun _ held => held
    | cons head tail ih => exact fun start held => ih _ (startChunk_verified store held head)
  exact pass true _ _ (pass false _ _ verified)

end DgxSpark.Bounce.BounceController
