import DgxSpark.Bounce.Pairing

/-
This file shows that the units of work move the right bytes, and with them every step of a controller.
-/

namespace DgxSpark.Bounce.BounceController

variable {Key : Type} {groups : Nat} {setup : Setup Key groups} {controller next : BounceController Key groups}
variable {sub : SubJob Key} {subs : List (SubJob Key)} {sid : Nat}

/-! ### The start and new jobs -/

theorem opened_verified (nBounce : Nat) (bounce : Buffer) :
    (opened nBounce bounce : BounceController Key groups).Verified setup where
  sound := opened_sound nBounce bounce
  truthful := {
    paced := fun _ inside => absurd inside List.not_mem_nil
    reading := fun _ inside => absurd inside List.not_mem_nil
    returning := fun _ inside => absurd inside List.not_mem_nil
    genuine := fun _ inside => absurd inside List.not_mem_nil
    settled := fun _ _ known => absurd known (Option.some_ne_none _).symm
    invalid := fun _ => Finset.empty_subset _
    failed := fun _ some => absurd some Finset.not_nonempty_empty }

/-- A new job has no chunk yet, and the blocks of the others stay as they are. -/
theorem Truthful.accept (truthful : Truthful setup controller subs) {id : Nat}
    (new : controller.accepted.get? id = none) (empty : controller.chunks id = []) (job : DirectJob Key) :
    Truthful setup { controller with
      jobs := controller.jobs.set id job
      accepted := controller.accepted.set id (job.store, job.items) } subs where
  paced := truthful.paced
  reading := truthful.reading
  returning := truthful.returning
  genuine write inside := by
    obtain ⟨items, known, source⟩ := truthful.genuine write inside
    refine ⟨items, ?_, source⟩
    have different : write.job ≠ id := by
      rintro same
      rw [same, new] at known
      cases known
    exact (OrderedDict.get?_set_of_ne _ _ different).trans known
  settled other items known sorted item inside := by
    rcases OrderedDict.get?_set_cases known with ⟨rfl, -⟩ | ⟨-, there⟩
    · dsimp only at inside
      rw [empty] at inside
      exact absurd inside List.not_mem_nil
    · exact truthful.settled other items there sorted item inside
  invalid := truthful.invalid
  failed := truthful.failed

/-! ### What was taken -/

/-- The results and the blocks that were taken, with the blocks that each job invalidated and the reads
that returned. -/
def record (controller : BounceController Key groups) :
    List TransferResult × Finset Int × (Nat → Finset Int) × List (Fetched Key) :=
  (controller.handed, controller.invalid, controller.spoiled, controller.fetched)

/-- Nothing is taken, nothing is read, and the jobs with a taken result invalidate no further block. -/
structure Withholds (controller next : BounceController Key groups) : Prop where
  handed : next.handed = controller.handed
  invalid : next.invalid = controller.invalid
  fetched : next.fetched = controller.fetched
  spoiled : ∀ result ∈ controller.handed, next.spoiled result.jobId = controller.spoiled result.jobId

theorem Withholds.of_record (same : next.record = controller.record) : Withholds controller next := by
  obtain ⟨handed, invalid, spoiled, fetched⟩ : next.handed = controller.handed ∧ next.invalid = controller.invalid ∧
      next.spoiled = controller.spoiled ∧ next.fetched = controller.fetched := by
    simpa only [record, Prod.mk.injEq] using same
  exact ⟨handed, invalid, fetched, fun _ _ => by rw [spoiled]⟩

theorem Withholds.trans {last : BounceController Key groups} (first : Withholds controller next)
    (second : Withholds next last) : Withholds controller last where
  handed := second.handed.trans first.handed
  invalid := second.invalid.trans first.invalid
  fetched := second.fetched.trans first.fetched
  spoiled result inside := (second.spoiled result (first.handed ▸ inside)).trans (first.spoiled result inside)

theorem release_record (controller : BounceController Key groups) (job : DirectJob Key) (slots : List Nat) :
    (controller.release job slots).record = controller.record := by
  unfold release
  dsimp only
  split
  · rfl
  · rfl

theorem startChunk_record (store : Bool) (controller : BounceController Key groups) (id : Nat) :
    (startChunk setup store controller id).record = controller.record := by
  unfold startChunk
  split
  · rfl
  · dsimp only
    split
    · rfl
    · split
      · rfl
      · rfl

/-- The owner of a sub-job at a handler has no result yet. -/
theorem Sound.unfinished (sound : controller.Sound setup) (found : controller.handlers.get? sid = some sub)
    {result : TransferResult} (inside : result ∈ controller.handed) : result.jobId ≠ sub.owner := by
  intro same
  have gone := sound.accounted.result_of_gone (List.mem_append_left _ inside)
  obtain ⟨job, present⟩ := sound.accounted.owned sub (mem_values found)
  rw [← same, gone] at present
  cases present

theorem readDone_withholds (sound : controller.Sound setup) (found : controller.handlers.get? sid = some sub)
    (handler : sub.handler = .reader) {ok : Bool} (taken : readDone setup controller (sid, ok) = some next) :
    Withholds controller next := by
  obtain ⟨job, -, named, -, same⟩ := readDone_eq sound found handler ok
  rw [same] at taken
  cases taken
  split
  · exact .of_record rfl
  · refine Withholds.trans ?_ (.of_record (release_record _ _ _))
    refine ⟨rfl, rfl, rfl, fun result inside => ?_⟩
    exact Function.update_of_ne (named ▸ sound.unfinished found inside) _ _

/-- A poll takes nothing. -/
theorem drain_withholds (sound : controller.Sound setup) {handler : Handler} {done : List (Nat × Bool)}
    (reports : controller.Reports handler done) (drained : drain setup controller handler done = some next) :
    Withholds controller next := by
  have start : controller.Sound setup ∧ Withholds controller controller := ⟨sound, .of_record rfl⟩
  have pass : ∃ last, drain setup controller handler done = some last ∧ last.Sound setup ∧
      Withholds controller last := by
    cases handler with
    | g2b =>
        refine run_reports (fun state report sub held found mine ended ok => ?_) done controller start reports
        obtain ⟨last, taken, kept, others⟩ := copyDone_handles state report sub held.1 found mine ended ok
        obtain ⟨_, _, -, -, -, same⟩ := copyDone_eq held.1 found mine report.2
        obtain rfl := Option.some.inj (same.symm.trans taken)
        exact ⟨_, taken, ⟨kept, held.2.trans (.of_record rfl)⟩, others⟩
    | files =>
        refine run_reports (fun state report sub held found mine ended ok => ?_) done controller start reports
        obtain ⟨last, taken, kept, others⟩ := writeDone_handles state report sub held.1 found mine ended ok
        obtain ⟨_, -, -, same⟩ := writeDone_eq held.1 found mine report.2
        obtain rfl := Option.some.inj (same.symm.trans taken)
        exact ⟨_, taken, ⟨kept, held.2.trans (.of_record (release_record _ _ _))⟩, others⟩
    | reader =>
        refine run_reports (fun state report sub held found mine ended ok => ?_) done controller start reports
        obtain ⟨last, taken, kept, others⟩ := readDone_handles state report sub held.1 found mine ended ok
        exact ⟨last, taken, ⟨kept, held.2.trans (readDone_withholds held.1 found mine taken)⟩, others⟩
    | b2g =>
        refine run_reports (fun state report sub held found mine ended ok => ?_) done controller start reports
        obtain ⟨last, taken, kept, others⟩ := returnDone_handles state report sub held.1 found mine ended ok
        obtain ⟨_, -, -, -, same⟩ := returnDone_eq held.1 found mine report.2
        obtain rfl := Option.some.inj (same.symm.trans taken)
        exact ⟨_, taken, ⟨kept, held.2.trans (.of_record (release_record _ _ _))⟩, others⟩
  obtain ⟨last, reached, -, held⟩ := pass
  rw [drained] at reached
  cases reached
  exact held

/-! ### Units of work -/

/-- The sub-job in hand has its slots to itself, each once. -/
theorem Accounted.apart (accounted : controller.Accounted (sub :: subs)) :
    sub.slots.Nodup ∧ ∀ other ∈ subs, ∀ slot ∈ other.slots, slot ∉ sub.slots := by
  have nodup := (accounted.slots.nodup_iff.mpr List.nodup_range).of_append_right
  rw [List.flatMap_cons, List.nodup_append] at nodup
  refine ⟨nodup.1, fun other inside slot there mine => ?_⟩
  exact nodup.2.2 slot mine slot (List.mem_flatMap.mpr ⟨other, inside, there⟩) rfl

/-- The slot that a unit may write. -/
def slotOf : Work Key → Option Nat
  | .page copy => some copy.slot
  | .write _ => none
  | .read _ slot => some slot

theorem Linked.slotOf (byGroup : PagesByGroup setup) {job : DirectJob Key} (linked : Linked setup job sid sub)
    {work : Work Key} (listed : work ∈ sub.work) {slot : Nat}
    (writes : BounceController.slotOf work = some slot) : slot ∈ sub.slots := by
  have pages : ∀ keys gpuIds, keys.length = sub.slots.length → gpuIds.length = sub.slots.length →
      work ∈ pageWork setup sub keys gpuIds → slot ∈ sub.slots := by
    intro keys gpuIds keyCount idCount inside
    obtain ⟨copy, paged, rfl⟩ := pageWork_pages work inside
    cases writes
    exact page_slot byGroup keyCount idCount paged
  unfold Linked at linked
  cases handler : sub.handler with
  | g2b =>
      rw [handler] at linked
      obtain ⟨slotsKeys, gpuIds, chunk, count, same⟩ := linked
      refine pages (slotsKeys.map Prod.snd) gpuIds ?_ count (same ▸ listed)
      rw [← chunk.slots, List.length_map, List.length_map]
  | files =>
      rw [handler] at linked
      obtain ⟨slotsKeys, -, same⟩ := linked
      rw [same] at listed
      obtain ⟨task, -, rfl⟩ := List.mem_map.mp listed
      cases writes
  | reader =>
      rw [handler] at linked
      rw [linked.2] at listed
      obtain ⟨pair, inside, rfl⟩ := List.mem_map.mp listed
      cases writes
      exact (List.of_mem_zip inside).2
  | b2g =>
      rw [handler] at linked
      refine pages _ _ ?_ ?_ (linked.2 ▸ listed)
      · rw [List.length_map, linked.1.count]
      · rw [List.length_map, linked.1.count]

/-- The copy that has run wrote what a read of the paired key returned. -/
theorem Genuine.unit (byGroup : PagesByGroup setup) (verified : controller.Verified setup)
    (found : controller.handlers.get? sid = some sub) {copy : PageCopy} (listed : .page copy ∈ sub.work)
    (handler : sub.handler = .b2g) :
    Genuine setup controller
      ⟨sub.owner, copy.tensor, copy.block, row controller.bounce copy.tensor copy.slot copy.nbytes⟩ := by
  obtain ⟨job, held, linked⟩ := verified.linked found
  unfold Linked at linked
  rw [handler] at linked
  obtain ⟨chunk, pages⟩ := linked
  obtain ⟨known, part⟩ := verified.chunk_items held chunk
  refine ⟨job.items, known, fun sorted => ?_⟩
  rw [pages] at listed
  obtain ⟨_, paged, same⟩ := pageWork_pages _ listed
  cases same
  have sortedChunk : (sub.items.map fun item => setup.group item.1).Pairwise (· ≤ ·) :=
    sorted.sublist (chunk.piece.sublist.map _)
  obtain ⟨row, inside, view, viewed, rfl⟩ := (mem_pages_iff byGroup chunk.count sortedChunk).mp paged
  obtain ⟨fetch, filled, -⟩ := verified.truthful.returning sub (mem_values found) handler row inside
  refine ⟨row.1, part (mem_rows inside).1, fetch, filled.1, filled.2.1, filled.2.2.1, view, viewed, ?_⟩
  rw [pageWrite, ← filled.2.2.2 view viewed]

variable [DecidableEq Key] {middle : BounceController Key groups} {ok : Bool} {bytes : List UInt8} {work : Work Key}

/-- A unit writes at most its own slot, and the logs only grow. -/
theorem perform_effect (performed : perform setup controller sub ok bytes work = some middle) :
    Grows controller middle ∧ (∀ slot, slotOf work ≠ some slot → ∀ tensor offset,
      middle.bounce tensor slot offset = controller.bounce tensor slot offset) ∧
        middle.chunks = controller.chunks ∧ middle.handlers = controller.handlers ∧
          middle.failedGpuBlocks = controller.failedGpuBlocks ∧ middle.invalid = controller.invalid ∧
            middle.spoiled = controller.spoiled ∧ middle.taskFailed = controller.taskFailed := by
  cases work with
  | page copy =>
      simp only [perform] at performed
      split at performed
      · split at performed
        · cases performed
          exact ⟨⟨List.Subset.refl _, List.subset_append_left _ _, rfl, fun _ => subset_rfl⟩,
            fun _ _ _ _ => rfl, rfl, rfl, rfl, rfl, rfl, rfl⟩
        · cases performed
          refine ⟨⟨List.Subset.refl _, List.Subset.refl _, rfl, fun _ => subset_rfl⟩, ?_, rfl, rfl, rfl, rfl, rfl, rfl⟩
          intro slot different tensor offset
          exact putRow_other _ _ _ fun same => different (congrArg some same.2.symm)
      · cases performed
  | write slotsKeys =>
      cases performed
      exact ⟨⟨List.Subset.refl _, List.Subset.refl _, rfl, fun _ => subset_rfl⟩, fun _ _ _ _ => rfl,
        rfl, rfl, rfl, rfl, rfl, rfl⟩
  | read key slot =>
      have elsewhere : ∀ other, slotOf (.read key slot) ≠ some other → ∀ tensor offset,
          fillViews setup controller.bounce key slot bytes tensor other offset =
            controller.bounce tensor other offset := fun other different tensor offset =>
        fillViews_other _ _ _ (fun same => different (congrArg some same.symm)) tensor offset
      simp only [perform] at performed
      split at performed
      · split at performed
        · obtain ⟨⟨_, _⟩, _, rfl⟩ := Option.map_eq_some_iff.mp performed
          exact ⟨⟨List.subset_append_left _ _, List.Subset.refl _, rfl, fun _ => subset_rfl⟩, elsewhere,
            rfl, rfl, rfl, rfl, rfl, rfl⟩
        · cases performed
      · cases performed
        exact ⟨⟨List.Subset.refl _, List.Subset.refl _, rfl, fun _ => subset_rfl⟩, elsewhere,
          rfl, rfl, rfl, rfl, rfl, rfl⟩

/-- A read that returned fills its slot. -/
theorem perform_read {key : Key} {slot : Nat}
    (performed : perform setup controller sub true bytes (.read key slot) = some middle) :
    ∃ fetch, Filled setup middle sub.owner key slot fetch := by
  simp only [perform, if_true] at performed
  split at performed
  case isTrue fits =>
    obtain ⟨⟨diskSlot, epoch⟩, _, rfl⟩ := Option.map_eq_some_iff.mp performed
    exact ⟨⟨sub.owner, key, diskSlot, epoch, bytes⟩, List.mem_append_right _ List.mem_cons_self, rfl, rfl,
      fillViews_holds _ _ fits⟩
  case isFalse => cases performed

/-- A copy to the GPU writes what its slot holds, and no other unit writes to the GPU. -/
theorem perform_log (performed : perform setup controller sub ok bytes work = some middle) :
    (∃ copy, work = .page copy ∧ sub.handler = .b2g ∧ middle.bounce = controller.bounce ∧
      middle.gpuLog = controller.gpuLog ++
        [⟨sub.owner, copy.tensor, copy.block, row controller.bounce copy.tensor copy.slot copy.nbytes⟩]) ∨
      ((∀ copy, work = .page copy → sub.handler ≠ .b2g) ∧ middle.gpuLog = controller.gpuLog) := by
  cases work with
  | page copy =>
      simp only [perform] at performed
      split at performed
      · split at performed
        case isTrue back =>
          cases performed
          exact .inl ⟨copy, rfl, back, rfl, rfl⟩
        case isFalse other =>
          cases performed
          exact .inr ⟨fun _ _ => other, rfl⟩
      · cases performed
  | write slotsKeys =>
      cases performed
      exact .inr ⟨fun _ same => (by cases same), rfl⟩
  | read key slot =>
      refine .inr ⟨fun _ same => (by cases same), ?_⟩
      simp only [perform] at performed
      split at performed
      · split at performed
        · obtain ⟨⟨_, _⟩, _, rfl⟩ := Option.map_eq_some_iff.mp performed
          rfl
        · cases performed
      · cases performed
        rfl

/-- The sub-job after one of its units has run. -/
def unitRan (sub : SubJob Key) (index : Nat) (ok : Bool) : SubJob Key :=
  { sub with ran := sub.ran.set index (some ok) }

theorem ran_of_set {ran : List (Option Bool)} {index place : Nat} {outcome : Bool}
    (now : (ran.set index (some ok))[place]? = some (some outcome)) :
    (place = index ∧ ok = outcome) ∨ (place ≠ index ∧ ran[place]? = some (some outcome)) := by
  by_cases same : place = index
  · subst same
    rw [List.getElem?_set_self'] at now
    obtain ⟨_, _, equal⟩ := Option.map_eq_some_iff.mp now
    exact .inl ⟨rfl, Option.some.inj equal⟩
  · rw [List.getElem?_set_ne (Ne.symm same)] at now
    exact .inr ⟨same, now⟩

/-- The read that has run fills its slot, and the slots of the other reads stay. -/
theorem Reading.unit (reading : Reading setup controller sub) (nodup : sub.slots.Nodup)
    (reads : sub.work = ((sub.items.map Prod.fst).zip sub.slots).map fun pair => .read pair.1 pair.2)
    {index : Nat} (listed : sub.work[index]? = some work)
    (performed : perform setup controller sub ok bytes work = some middle) :
    Reading setup middle (unitRan sub index ok) := by
  have unit : ∀ (place : Nat) (item : Key × Int) slot, (rows sub)[place]? = some (item, slot) →
      sub.work[place]? = some (Work.read item.1 slot) := by
    intro place item slot here
    obtain ⟨itemHere, slotHere⟩ := List.getElem?_zip_eq_some.mp here
    have pair : ((sub.items.map Prod.fst).zip sub.slots)[place]? = some (item.1, slot) :=
      List.getElem?_zip_eq_some.mpr ⟨by rw [List.getElem?_map, itemHere]; rfl, slotHere⟩
    rw [reads, List.getElem?_map, pair]
    rfl
  intro place row here now
  rcases ran_of_set now with ⟨rfl, rfl⟩ | ⟨different, before⟩
  · rw [unit place row.1 row.2 here] at listed
    cases listed
    exact perform_read performed
  · obtain ⟨fetch, filled⟩ := reading place row here before
    obtain ⟨grows, elsewhere, -⟩ := perform_effect performed
    refine ⟨fetch, filled.grows grows (elsewhere row.2 fun written => different ?_)⟩
    -- the unit that has run is the read of its own row
    rw [reads, List.getElem?_map] at listed
    obtain ⟨pair, there, rfl⟩ := Option.map_eq_some_iff.mp listed
    have mine := (List.getElem?_zip_eq_some.mp here).2
    have other := (List.getElem?_zip_eq_some.mp there).2
    rw [Option.some.inj written] at other
    obtain ⟨bound, -⟩ := List.getElem?_eq_some_iff.mp mine
    exact (List.getElem?_inj bound nodup).mp (mine.trans other.symm)

/-- The copy that has run wrote the page of its row. -/
theorem Returning.unit (returning : Returning setup controller sub) (handler : sub.handler = .b2g)
    {copy : PageCopy} {index : Nat} (listed : sub.work[index]? = some (.page copy))
    (performed : perform setup controller sub ok bytes (.page copy) = some middle) :
    Returning setup middle (unitRan sub index ok) := by
  obtain ⟨grows, -⟩ := perform_effect performed
  rcases perform_log performed with ⟨_, same, -, bounce, log⟩ | ⟨other, -⟩
  case inr => exact absurd handler (other copy rfl)
  cases same
  intro row inside
  obtain ⟨fetch, filled, written⟩ := returning row inside
  refine ⟨fetch, filled.grows grows fun _ _ => by rw [bounce], fun place view viewed unit now => ?_⟩
  rcases ran_of_set now with ⟨rfl, -⟩ | ⟨-, before⟩
  · obtain rfl := Work.page.inj (Option.some.inj (listed.symm.trans unit))
    rw [log, pageWrite, ← filled.2.2.2 view viewed]
    exact List.mem_append_right _ List.mem_cons_self
  · exact grows.gpuLog (written place view viewed unit before)

/-- The bytes stay true when a unit of the sub-job in hand runs. -/
theorem Truthful.unit (byGroup : PagesByGroup setup) (verified : controller.Verified setup)
    (found : controller.handlers.get? sid = some sub) {index : Nat} (listed : sub.work[index]? = some work)
    (performed : perform setup controller sub ok bytes work = some middle) :
    Truthful setup middle (unitRan sub index ok :: (controller.handlers.erase sid).values) := by
  obtain ⟨grows, elsewhere, chunks, -, failedBlocks, invalid, spoiled, failed⟩ := perform_effect performed
  obtain ⟨job, held, linked⟩ := verified.linked found
  have front := verified.truthful.perm (values_erase found)
  obtain ⟨nodup, apart⟩ := (verified.sound.accounted.perm (values_erase found)).apart
  have others : ∀ other ∈ (controller.handlers.erase sid).values, ∀ slot ∈ other.slots, ∀ tensor offset,
      middle.bounce tensor slot offset = controller.bounce tensor slot offset := by
    intro other inside slot there
    refine elsewhere slot fun written => apart other inside slot there ?_
    exact linked.slotOf byGroup (List.mem_of_getElem? listed) written
  refine ⟨?_, ?_, ?_, ?_, ?_, ?_, ?_⟩
  · rintro one (_ | ⟨_, inside⟩)
    · exact List.length_set.trans (front.paced sub List.mem_cons_self)
    · exact front.paced one (List.mem_cons_of_mem _ inside)
  · rintro one (_ | ⟨_, inside⟩) handler
    · have reader : sub.handler = .reader := handler
      unfold Linked at linked
      rw [reader] at linked
      exact (front.reading sub List.mem_cons_self reader).unit nodup linked.2 listed performed
    · exact (front.reading one (List.mem_cons_of_mem _ inside) handler).grows grows (others one inside)
  · rintro one (_ | ⟨_, inside⟩) handler
    · have back : sub.handler = .b2g := handler
      obtain ⟨copy, rfl⟩ := linked.work (.inr back) work (List.mem_of_getElem? listed)
      exact (front.returning sub List.mem_cons_self back).unit back listed performed
    · exact (front.returning one (List.mem_cons_of_mem _ inside) handler).grows grows (others one inside)
  · intro write inside
    rcases perform_log performed with ⟨copy, rfl, back, -, log⟩ | ⟨-, log⟩
    · rw [log] at inside
      rcases List.mem_append.mp inside with old | new
      · exact (front.genuine write old).grows grows
      · rw [List.mem_singleton.mp new]
        exact (Genuine.unit byGroup verified found (List.mem_of_getElem? listed) back).grows grows
    · exact (front.genuine write (log ▸ inside)).grows grows
  · intro id items known sorted item inside
    rw [chunks] at inside
    rcases front.settled id items (grows.accepted ▸ known) sorted item inside with ⟨one, there, rest⟩ | settled
    · rcases List.mem_cons.mp there with rfl | old
      · exact .inl ⟨_, List.mem_cons_self, rest⟩
      · exact .inl ⟨one, List.mem_cons_of_mem _ old, rest⟩
    · exact .inr (settled.grows grows)
  · intro id
    rw [spoiled, failedBlocks, invalid]
    exact front.invalid id
  · intro id some
    rw [spoiled] at some
    rw [failed]
    exact front.failed id some

theorem runUnit_verified (byGroup : PagesByGroup setup) (verified : controller.Verified setup) {index : Nat}
    (done : runUnit setup controller sid index ok bytes = some next) : next.Verified setup := by
  refine ⟨runUnit_sound verified.sound done, ?_⟩
  obtain ⟨sub, work, middle, found, waiting, listed, performed, rfl⟩ := runUnit_eq_some done
  have ran := Truthful.unit byGroup verified found listed performed
  have listing : (middle.handlers.set sid (unitRan sub index ok)).values.Perm
      (unitRan sub index ok :: (controller.handlers.erase sid).values) := by
    rw [(perform_effect performed).2.2.2.1]
    exact (OrderedDict.set_perm controller.handlers sid _).map Prod.snd
  refine (ran.perm listing).transfer rfl rfl rfl rfl rfl rfl subset_rfl ?_
  dsimp only
  split
  · exact subset_rfl
  · exact Finset.subset_insert _ _

/-! ### Steps -/

theorem submit_verified (verified : controller.Verified setup) {jobId : Nat}
    (new : controller.accepted.get? jobId = none) (store : Bool) (gpuIds : List Int)
    (spec : Slab.SlabLoadStoreSpec Key) :
    (submit setup controller jobId store gpuIds spec).2.Verified setup := by
  refine ⟨submit_sound verified.sound new store gpuIds spec, ?_⟩
  unfold submit
  split
  · exact verified.truthful
  · exact verified.truthful.accept new (verified.sound.accounted.fresh jobId new).1 _

theorem step_verified (byGroup : PagesByGroup setup) (controller : BounceController Key groups)
    (action : BounceAction Key) (next : BounceController Key groups) (verified : controller.Verified setup)
    (taken : step setup controller action = some next) : next.Verified setup := by
  refine ⟨step_sound controller action next verified.sound taken, ?_⟩
  cases action with
  | submit jobId store gpuIds spec =>
      simp only [step] at taken
      split at taken
      case isTrue allowed =>
        cases taken
        exact (submit_verified verified allowed.2 store gpuIds spec).truthful
      case isFalse => cases taken
  | takeResults store =>
      simp only [step] at taken
      split at taken
      · cases taken
        exact verified.truthful.transfer rfl rfl rfl rfl rfl rfl subset_rfl subset_rfl
      · cases taken
  | takeFailedGpuBlocks =>
      simp only [step] at taken
      split at taken
      · cases taken
        refine verified.truthful.transfer rfl rfl rfl rfl rfl rfl ?_ subset_rfl
        rw [Finset.union_comm]
        exact Finset.subset_union_right
      · cases taken
  | run sid index ok bytes => exact (runUnit_verified byGroup verified taken).truthful
  | poll done =>
      simp only [step] at taken
      split at taken
      case h_1 handler _ =>
        split at taken
        case isTrue reports =>
          obtain ⟨middle, drained, kept⟩ := drain_verified byGroup verified reports
          rw [drained] at taken
          cases taken
          exact kept.truthful.transfer rfl rfl rfl rfl rfl rfl subset_rfl subset_rfl
        case isFalse => cases taken
      case h_2 => cases taken
  | chunks =>
      simp only [step] at taken
      split at taken
      · cases taken
        exact (startChunks_verified verified).truthful.transfer rfl rfl rfl rfl rfl rfl subset_rfl subset_rfl
      · cases taken

/-- With no sub-job left for a load that has its result, each of its blocks is settled. -/
theorem Verified.settled (verified : controller.Verified setup) {result : TransferResult}
    (inside : result ∈ controller.history) {items : List (Key × Int)}
    (known : controller.accepted.get? result.jobId = some (false, items)) (sorted : ByGroup setup items)
    {item : Key × Int} (listed : item ∈ items) : Settled setup controller result.jobId item := by
  obtain ⟨_, all, there, chunked, idle⟩ := verified.sound.balanced.complete result inside
  obtain ⟨-, rfl⟩ := Prod.mk.inj (Option.some.inj (known.symm.trans there))
  rcases verified.truthful.settled _ _ known sorted item (chunked ▸ listed) with ⟨sub, working, mine, -⟩ | settled
  · exact absurd mine (idle sub working)
  · exact settled

/-- New jobs, polls and new chunks take nothing. -/
theorem step_withholds (sound : controller.Sound setup) {action : BounceAction Key}
    (pumping : (∃ jobId store gpuIds spec, action = .submit jobId store gpuIds spec) ∨
      (∃ done, action = .poll done) ∨ action = .chunks)
    (taken : step setup controller action = some next) : Withholds controller next := by
  rcases pumping with ⟨jobId, store, gpuIds, spec, rfl⟩ | ⟨done, rfl⟩ | rfl
  · simp only [step] at taken
    split at taken
    · cases taken
      unfold submit
      split
      · exact .of_record rfl
      · exact .of_record rfl
    · cases taken
  · simp only [step] at taken
    split at taken
    · split at taken
      case isTrue reports =>
        obtain ⟨middle, drained, rfl⟩ := Option.map_eq_some_iff.mp taken
        exact (drain_withholds sound reports drained).trans (.of_record rfl)
      case isFalse => cases taken
    · cases taken
  · simp only [step] at taken
    split at taken
    · cases taken
      have pass : ∀ store (ids : List Nat) (start : BounceController Key groups),
          (ids.foldl (startChunk setup store) start).record = start.record := fun store ids start =>
        foldl_keeps BounceController.record (startChunk_record store) ids start
      exact .of_record ((pass true _ _).trans (pass false _ _))
    · cases taken

end DgxSpark.Bounce.BounceController
