import DgxSpark.Bounce.Ledger

/-
This file follows the sub-jobs through the maps of the controller: each one at a handler is found
under its id, in the global map and in its job.
-/

namespace DgxSpark.Bounce.BounceController

variable {Key : Type} {groups : Nat} (setup : Setup Key groups)

/-- A chunk of a load: a piece of the items, with as many slots, under the id in the job. -/
structure LoadChunk (job : DirectJob Key) (sid : Nat) (sub : SubJob Key) : Prop where
  isLoad : job.store = false
  held : job.reads.get? sid = some (sub.slots, sub.items.map Prod.snd, sub.items.map Prod.fst)
  count : sub.items.length = sub.slots.length
  piece : sub.items <:+: job.items

/-- A chunk of a store under the id in the job. -/
structure StoreChunk (job : DirectJob Key) (sid : Nat) (sub : SubJob Key) (slotsKeys : List (Nat × Key)) :
    Prop where
  isStore : job.store = true
  held : job.copies.get? sid = some slotsKeys
  slots : slotsKeys.map Prod.fst = sub.slots
  noItems : sub.items = []

/-- The copies of a sub-job for its keys and blocks. -/
def pageWork (sub : SubJob Key) (keys : List Key) (gpuIds : List Int) : List (Work Key) :=
  (setup.pages (gpuSpec setup keys gpuIds) sub.slots).map .page

/-- A job holds what a sub-job at a handler will need. -/
def Linked (job : DirectJob Key) (sid : Nat) (sub : SubJob Key) : Prop :=
  match sub.handler with
  | .g2b => ∃ slotsKeys gpuIds, StoreChunk job sid sub slotsKeys ∧ gpuIds.length = sub.slots.length ∧
      sub.work = pageWork setup sub (slotsKeys.map Prod.snd) gpuIds
  | .files => ∃ slotsKeys, StoreChunk job sid sub slotsKeys ∧
      sub.work = (setup.storeTasks slotsKeys).map .write
  | .reader => LoadChunk job sid sub ∧
      sub.work = ((sub.items.map Prod.fst).zip sub.slots).map fun pair => .read pair.1 pair.2
  | .b2g => LoadChunk job sid sub ∧
      sub.work = pageWork setup sub (sub.items.map Prod.fst) (sub.items.map Prod.snd)

structure Wired (controller : BounceController Key groups) : Prop where
  ids : ∀ sid, controller.subCounter < sid → controller.handlers.get? sid = none
  linked : ∀ sid sub, controller.handlers.get? sid = some sub →
    controller.subToJob.get? sid = some sub.owner ∧
      ∃ job, controller.jobs.get? sub.owner = some job ∧ Linked setup job sid sub

/-- The account and the routing together. -/
structure Sound (controller : BounceController Key groups) : Prop where
  accounted : controller.Accounted controller.handlers.values
  wired : Wired setup controller

variable {setup} {controller next : BounceController Key groups} {sub : SubJob Key} {sid : Nat}

/-- Another state of a job that keeps what a sub-job needs of it. -/
structure Keeps (job other : DirectJob Key) (sid : Nat) : Prop where
  store : other.store = job.store
  items : other.items = job.items
  copies : other.copies.get? sid = job.copies.get? sid
  reads : other.reads.get? sid = job.reads.get? sid

theorem LoadChunk.keeps {job other : DirectJob Key} (chunk : LoadChunk job sid sub) (keeps : Keeps job other sid) :
    LoadChunk other sid sub :=
  ⟨keeps.store.trans chunk.isLoad, keeps.reads.trans chunk.held, chunk.count, keeps.items ▸ chunk.piece⟩

theorem StoreChunk.keeps {job other : DirectJob Key} {slotsKeys : List (Nat × Key)}
    (chunk : StoreChunk job sid sub slotsKeys) (keeps : Keeps job other sid) : StoreChunk other sid sub slotsKeys :=
  ⟨keeps.store.trans chunk.isStore, keeps.copies.trans chunk.held, chunk.slots, chunk.noItems⟩

theorem Linked.keeps {job other : DirectJob Key} (linked : Linked setup job sid sub)
    (keeps : Keeps job other sid) : Linked setup other sid sub := by
  unfold Linked at linked ⊢
  cases handler : sub.handler with
  | g2b =>
      rw [handler] at linked
      obtain ⟨slotsKeys, gpuIds, chunk, rest⟩ := linked
      exact ⟨slotsKeys, gpuIds, chunk.keeps keeps, rest⟩
  | files =>
      rw [handler] at linked
      obtain ⟨slotsKeys, chunk, rest⟩ := linked
      exact ⟨slotsKeys, chunk.keeps keeps, rest⟩
  | reader =>
      rw [handler] at linked
      exact ⟨linked.1.keeps keeps, linked.2⟩
  | b2g =>
      rw [handler] at linked
      exact ⟨linked.1.keeps keeps, linked.2⟩

theorem values_erase (found : controller.handlers.get? sid = some sub) :
    (sub :: (controller.handlers.erase sid).values).Perm controller.handlers.values :=
  ((OrderedDict.erase_perm found).map Prod.snd).symm

theorem values_set {handlers : OrderedDict Nat (SubJob Key)} (fresh : handlers.get? sid = none) :
    (handlers.set sid sub).values.Perm (sub :: handlers.values) := by
  have whole := (OrderedDict.set_perm handlers sid sub).map Prod.snd
  rwa [OrderedDict.erase_of_get?_none handlers fresh] at whole

theorem pageWork_pages {keys : List Key} {gpuIds : List Int} :
    ∀ work ∈ pageWork setup sub keys gpuIds, ∃ copy ∈ setup.pages (gpuSpec setup keys gpuIds) sub.slots,
      work = .page copy := by
  intro work inside
  obtain ⟨copy, listed, rfl⟩ := List.mem_map.mp inside
  exact ⟨copy, listed, rfl⟩

theorem Linked.work {job : DirectJob Key} {sid : Nat} {sub : SubJob Key} (linked : Linked setup job sid sub)
    (copy : sub.handler = .g2b ∨ sub.handler = .b2g) : ∀ work ∈ sub.work, ∃ copy, work = .page copy := by
  unfold Linked at linked
  intro work inside
  rcases copy with handler | handler
  · rw [handler] at linked
    obtain ⟨_, _, -, -, pages⟩ := linked
    obtain ⟨one, -, same⟩ := pageWork_pages work (pages ▸ inside)
    exact ⟨one, same⟩
  · rw [handler] at linked
    obtain ⟨one, -, same⟩ := pageWork_pages work (linked.2 ▸ inside)
    exact ⟨one, same⟩

/-- Which units have run does not matter to the routing. -/
theorem Linked.ran {job : DirectJob Key} {sid : Nat} {sub : SubJob Key} (linked : Linked setup job sid sub)
    (ran : List (Option Bool)) : Linked setup job sid { sub with ran := ran } := by
  unfold Linked at linked ⊢
  dsimp only
  cases handler : sub.handler with
  | g2b =>
      rw [handler] at linked
      obtain ⟨slotsKeys, gpuIds, chunk, rest⟩ := linked
      exact ⟨slotsKeys, gpuIds, ⟨chunk.isStore, chunk.held, chunk.slots, chunk.noItems⟩, rest⟩
  | files =>
      rw [handler] at linked
      obtain ⟨slotsKeys, chunk, rest⟩ := linked
      exact ⟨slotsKeys, ⟨chunk.isStore, chunk.held, chunk.slots, chunk.noItems⟩, rest⟩
  | reader =>
      rw [handler] at linked
      obtain ⟨chunk, rest⟩ := linked
      exact ⟨⟨chunk.isLoad, chunk.held, chunk.count, chunk.piece⟩, rest⟩
  | b2g =>
      rw [handler] at linked
      obtain ⟨chunk, rest⟩ := linked
      exact ⟨⟨chunk.isLoad, chunk.held, chunk.count, chunk.piece⟩, rest⟩

theorem opened_sound (nBounce : Nat) (bounce : Buffer) :
    (opened nBounce bounce : BounceController Key groups).Sound setup where
  accounted := Accounted.opened_accounted nBounce bounce
  wired := ⟨fun _ _ => rfl, fun _ _ found => absurd found (Option.some_ne_none _).symm⟩

/-! ### Moves -/

theorem Sound.collect_wired (sound : controller.Sound setup) (sid : Nat) :
    Wired setup (controller.collect sid) where
  ids other above := by
    change (controller.handlers.erase sid).get? other = none
    rw [OrderedDict.get?_erase, sound.wired.ids other above, ite_self]
  linked other one present := by
    change (controller.handlers.erase sid).get? other = some one at present
    change (controller.subToJob.erase sid).get? other = some one.owner ∧ _
    rw [OrderedDict.get?_erase] at present ⊢
    split at present
    · cases present
    case isFalse different =>
      rw [if_neg different]
      exact sound.wired.linked other one present

theorem Sound.collect_accounted (sound : controller.Sound setup)
    (found : controller.handlers.get? sid = some sub) :
    (controller.collect sid).Accounted (sub :: (controller.collect sid).handlers.values) :=
  (sound.accounted.perm (values_erase found)).transfer rfl rfl (fun _ => rfl) rfl rfl rfl (.refl _)

/-- A launched sub-job is routed, and the others stay. -/
theorem launch_wired (wired : Wired setup controller) {job other : DirectJob Key}
    (found : controller.jobs.get? sub.owner = some job) (named : other.jobId = sub.owner)
    (keeps : ∀ one, controller.handlers.get? one ≠ none → Keeps job other one)
    (linked : Linked setup other (controller.subCounter + 1) sub) :
    Wired setup (controller.launch other sub) where
  ids one above := by
    change controller.subCounter + 1 < one at above
    change (controller.handlers.set (controller.subCounter + 1) sub).get? one = none
    rw [OrderedDict.get?_set_of_ne _ _ above.ne']
    exact wired.ids one (by omega)
  linked one now present := by
    change (controller.handlers.set (controller.subCounter + 1) sub).get? one = some now at present
    change (controller.subToJob.set (controller.subCounter + 1) other.jobId).get? one = some now.owner ∧
      ∃ next, (controller.jobs.set other.jobId other).get? now.owner = some next ∧ _
    rw [named]
    rcases OrderedDict.get?_set_cases present with ⟨rfl, rfl⟩ | ⟨different, there⟩
    · exact ⟨OrderedDict.get?_set_self _ _ _, other, OrderedDict.get?_set_self _ _ _, linked⟩
    · obtain ⟨routed, old, held, link⟩ := wired.linked one now there
      rw [OrderedDict.get?_set_of_ne _ _ different]
      refine ⟨routed, ?_⟩
      by_cases same : now.owner = sub.owner
      · rw [same, OrderedDict.get?_set_self]
        rw [same, found] at held
        cases held
        exact ⟨other, rfl, link.keeps (keeps one (there ▸ Option.some_ne_none _))⟩
      · rw [OrderedDict.get?_set_of_ne _ _ same]
        exact ⟨old, held, link⟩

/-- A job that changes keeps the routing of the sub-jobs. -/
theorem rejob_wired (wired : Wired setup controller) {job other : DirectJob Key} {id : Nat}
    (found : controller.jobs.get? id = some job)
    (keeps : ∀ one, controller.handlers.get? one ≠ none → Keeps job other one) :
    Wired setup { controller with jobs := controller.jobs.set id other } where
  ids := wired.ids
  linked one now present := by
    obtain ⟨routed, old, held, link⟩ := wired.linked one now present
    refine ⟨routed, ?_⟩
    dsimp only
    by_cases same : now.owner = id
    · rw [same, OrderedDict.get?_set_self]
      rw [same, found] at held
      cases held
      exact ⟨other, rfl, link.keeps (keeps one (present ▸ Option.some_ne_none _))⟩
    · rw [OrderedDict.get?_set_of_ne _ _ same]
      exact ⟨old, held, link⟩

/-- The routing reads only the counter, the maps and the handlers. -/
theorem Wired.transfer (wired : Wired setup controller)
    (counter : next.subCounter = controller.subCounter) (handlers : next.handlers = controller.handlers)
    (routes : next.subToJob = controller.subToJob)
    (jobs : ∀ id job, controller.jobs.get? id = some job →
      (∃ sid sub, controller.handlers.get? sid = some sub ∧ sub.owner = id) → next.jobs.get? id = some job) :
    Wired setup next where
  ids sid above := by
    rw [handlers]
    exact wired.ids sid (counter ▸ above)
  linked sid sub present := by
    rw [handlers] at present
    obtain ⟨routed, job, held, link⟩ := wired.linked sid sub present
    exact ⟨routes ▸ routed, job, jobs _ _ held ⟨sid, sub, present, rfl⟩, link⟩

/-- A launched sub-job takes the place of the one in hand. -/
theorem launch_accounted {old : SubJob Key} (accounted : controller.Accounted (old :: controller.handlers.values))
    {job other : DirectJob Key} (found : controller.jobs.get? old.owner = some job)
    (same : Accounted.SameAccount job other) (owner : sub.owner = old.owner) (slots : sub.slots = old.slots)
    (clean : some false ∉ old.ran) (fresh : some false ∉ sub.ran)
    (unused : controller.handlers.get? (controller.subCounter + 1) = none) :
    (controller.launch other sub).Accounted (controller.launch other sub).handlers.values := by
  have named : other.jobId = old.owner := same.1.trans (accounted.counted _ job found).1
  have exchanged := accounted.exchange sub owner slots (iff_of_false clean fresh) fun _ => fresh
  refine ((exchanged.rejob found same).perm (values_set unused)).transfer rfl rfl ?_ rfl rfl rfl (.refl _)
  intro id
  change (controller.jobs.set other.jobId other).get? id = (controller.jobs.set old.owner other).get? id
  rw [named]

theorem finish_history (controller : BounceController Key groups) (job : DirectJob Key) :
    (controller.finish job).history.Perm
      (⟨job.jobId, !job.failed, if job.failed then none else some job.nbytes⟩ :: controller.history) := by
  unfold finish history
  refine List.Perm.trans (List.Perm.append_left _ ?_) List.perm_middle
  dsimp only
  cases job.store with
  | true =>
      rw [Function.update_self, Function.update_of_ne Bool.false_ne_true, List.append_assoc]
      exact List.perm_middle
  | false =>
      rw [Function.update_self, Function.update_of_ne Bool.false_ne_true.symm, ← List.append_assoc]
      exact List.perm_append_singleton _ _

/-- The sub-job in hand is counted and its slots freed; the last one ends the job. -/
theorem release_accounted (accounted : controller.Accounted (sub :: controller.handlers.values))
    {job other : DirectJob Key} (found : controller.jobs.get? sub.owner = some job)
    (counts : Accounted.Counts job other sub) :
    (controller.release other sub.slots).Accounted controller.handlers.values := by
  have named : other.jobId = sub.owner := counts.1.trans (accounted.counted _ job found).1
  have items : other.items = job.items := counts.2.2.1
  have doneItems : other.doneItems = job.doneItems := counts.2.2.2.2.1
  unfold release
  dsimp only
  split
  case isFalse more =>
    rw [items, doneItems] at more
    have given := accounted.giveBack found counts more
    rw [← named] at given
    exact given
  case isTrue last =>
    rw [items, doneItems] at last
    refine @Accounted.close _ _ _ _ _ _ accounted job other (if other.failed then none else some other.nbytes)
      found counts last rfl rfl ?_ rfl rfl rfl ?_
    · intro id
      unfold finish
      dsimp only
      rw [named, OrderedDict.get?_erase]
      split
      · rfl
      case isFalse different => exact OrderedDict.get?_set_of_ne _ _ different
    · rw [← named]
      exact finish_history _ _

theorem release_wired (accounted : controller.Accounted (sub :: controller.handlers.values))
    (wired : Wired setup controller) {job other : DirectJob Key}
    (found : controller.jobs.get? sub.owner = some job) (counts : Accounted.Counts job other sub)
    (keeps : ∀ one, controller.handlers.get? one ≠ none → Keeps job other one) :
    Wired setup (controller.release other sub.slots) := by
  obtain ⟨jobId, tally, within, -⟩ := accounted.counted _ job found
  have named : other.jobId = sub.owner := counts.1.trans jobId
  have items : other.items = job.items := counts.2.2.1
  have doneItems : other.doneItems = job.doneItems := counts.2.2.2.2.1
  have moved : ∀ one, controller.handlers.get? one ≠ none →
      Keeps job { other with doneItems := other.doneItems + sub.slots.length } one := fun one inside =>
    have kept := keeps one inside
    ⟨kept.store, kept.items, kept.copies, kept.reads⟩
  have rejobbed := rejob_wired wired (named.symm ▸ found) moved
  unfold release
  dsimp only
  split
  case isFalse =>
    exact rejobbed.transfer rfl rfl rfl fun _ _ there _ => there
  case isTrue last =>
    rw [items, doneItems] at last
    rw [pendingItems_cons, if_pos rfl] at tally
    have others := @no_sub_of_pending _ _ sub.owner
      (fun one inside => accounted.nonempty one (List.mem_cons_of_mem _ inside)) (by omega)
    refine rejobbed.transfer rfl rfl rfl ?_
    rintro id old there ⟨one, left, present, owner⟩
    have inside : left ∈ controller.handlers.values :=
      OrderedDict.mem_values_iff.mpr ⟨one, present⟩
    have different : id ≠ other.jobId := named.symm ▸ owner ▸ others left inside
    unfold finish
    dsimp only
    rw [OrderedDict.get?_erase_of_ne _ different]
    exact there

/-- What the invariant does not read may change. -/
theorem Sound.transfer (sound : controller.Sound setup) (nBounce : next.nBounce = controller.nBounce)
    (free : next.free = controller.free) (jobs : next.jobs = controller.jobs)
    (accepted : next.accepted = controller.accepted) (chunks : next.chunks = controller.chunks)
    (taskFailed : next.taskFailed = controller.taskFailed) (history : next.history.Perm controller.history)
    (counter : next.subCounter = controller.subCounter) (handlers : next.handlers = controller.handlers)
    (routes : next.subToJob = controller.subToJob) : next.Sound setup where
  accounted := by
    rw [handlers]
    exact sound.accounted.transfer nBounce free (fun _ => by rw [jobs]) accepted chunks taskFailed history
  wired := sound.wired.transfer counter handlers routes fun _ _ there _ => jobs.symm ▸ there

/-! ### Stages -/

/-- The report of one sub-job never raises, keeps the invariant and leaves the other sub-jobs alone. -/
def Handles (setup : Setup Key groups) (handler : Handler)
    (body : BounceController Key groups → Nat × Bool → Option (BounceController Key groups)) : Prop :=
  ∀ controller report sub, controller.Sound setup → controller.handlers.get? report.1 = some sub →
    sub.handler = handler → sub.Finished → report.2 = sub.ok →
      ∃ next, body controller report = some next ∧ next.Sound setup ∧
        ∀ other kept, other ≠ report.1 → controller.handlers.get? other = some kept →
          next.handlers.get? other = some kept

theorem Sound.jobOf (sound : controller.Sound setup) (found : controller.handlers.get? sid = some sub) :
    ∃ job, controller.jobOf sid = some job ∧ controller.jobs.get? sub.owner = some job ∧
      job.jobId = sub.owner ∧ Linked setup job sid sub := by
  obtain ⟨routed, job, held, link⟩ := sound.wired.linked sid sub found
  refine ⟨job, ?_, held, (sound.accounted.counted _ job held).1, link⟩
  rw [BounceController.jobOf, routed]
  exact held

theorem unused (sound : controller.Sound setup) :
    (controller.collect sid).handlers.get? (controller.subCounter + 1) = none := by
  change (controller.handlers.erase sid).get? _ = none
  rw [OrderedDict.get?_erase, sound.wired.ids _ (Nat.lt_succ_self _), ite_self]

/-- Maps of a job that lose the collected id and gain a fresh one keep what the others need. -/
theorem reroute {Value : Type} (sound : controller.Sound setup) (map : OrderedDict Nat Value) (value : Value) {one : Nat}
    (present : (controller.collect sid).handlers.get? one ≠ none) :
    ((map.erase sid).set (controller.subCounter + 1) value).get? one = map.get? one := by
  change (controller.handlers.erase sid).get? one ≠ none at present
  have different : one ≠ sid := by
    rintro rfl
    exact present (OrderedDict.get?_erase_self _ _)
  rw [OrderedDict.get?_erase_of_ne _ different] at present
  have known : one ≠ controller.subCounter + 1 := by
    rintro rfl
    exact present (sound.wired.ids _ (Nat.lt_succ_self _))
  rw [OrderedDict.get?_set_of_ne _ _ known, OrderedDict.get?_erase_of_ne _ different]

theorem erased {Value : Type} (map : OrderedDict Nat Value) {one : Nat}
    (present : (controller.collect sid).handlers.get? one ≠ none) :
    (map.erase sid).get? one = map.get? one := by
  change (controller.handlers.erase sid).get? one ≠ none at present
  have different : one ≠ sid := by
    rintro rfl
    exact present (OrderedDict.get?_erase_self _ _)
  exact OrderedDict.get?_erase_of_ne _ different

/-- After a launch the other sub-jobs are where they were. -/
theorem launch_others (sound : controller.Sound setup) (job : DirectJob Key) (new : SubJob Key) {other : Nat}
    {kept : SubJob Key} (different : other ≠ sid) (there : controller.handlers.get? other = some kept) :
    ((controller.collect sid).launch job new).handlers.get? other = some kept := by
  change ((controller.handlers.erase sid).set (controller.subCounter + 1) new).get? other = some kept
  have known : other ≠ controller.subCounter + 1 := by
    rintro rfl
    rw [sound.wired.ids _ (Nat.lt_succ_self _)] at there
    cases there
  rw [OrderedDict.get?_set_of_ne _ _ known, OrderedDict.get?_erase_of_ne _ different]
  exact there

theorem release_handlers (controller : BounceController Key groups) (job : DirectJob Key) (slots : List Nat) :
    (controller.release job slots).handlers = controller.handlers := by
  unfold release
  dsimp only
  split
  · rfl
  · rfl

theorem started_clean (handler : Handler) (owner : Nat) (slots : List Nat) (items : List (Key × Int))
    (work : List (Work Key)) : some false ∉ (SubJob.started handler owner slots items work).ran := by
  intro inside
  obtain ⟨_, _, same⟩ := List.mem_map.mp inside
  cases same

theorem ok_iff (sub : SubJob Key) : sub.ok = false ↔ some false ∈ sub.ran := by
  simp [SubJob.ok]

/-! ### What the report of one sub-job does -/

theorem copyDone_eq (sound : controller.Sound setup) (found : controller.handlers.get? sid = some sub)
    (handler : sub.handler = .g2b) (ok : Bool) :
    ∃ job slotsKeys, controller.jobs.get? sub.owner = some job ∧ job.jobId = sub.owner ∧
      StoreChunk job sid sub slotsKeys ∧
        copyDone setup controller (sid, ok) = some ((controller.collect sid).launch
          { job with copies := (job.copies.erase sid).set (controller.subCounter + 1) slotsKeys }
          (.started .files job.jobId (slotsKeys.map Prod.fst) []
            ((setup.storeTasks slotsKeys).map .write))) := by
  obtain ⟨job, routed, held, named, link⟩ := sound.jobOf found
  unfold Linked at link
  rw [handler] at link
  obtain ⟨slotsKeys, -, chunk, -⟩ := link
  refine ⟨job, slotsKeys, held, named, chunk, ?_⟩
  simp only [copyDone, routed, chunk.held, Option.map_some]

theorem writeDone_eq (sound : controller.Sound setup) (found : controller.handlers.get? sid = some sub)
    (handler : sub.handler = .files) (ok : Bool) :
    ∃ job, controller.jobs.get? sub.owner = some job ∧ sub.items = [] ∧
      writeDone controller (sid, ok) = some ((controller.collect sid).release
        { job with copies := job.copies.erase sid, failed := job.failed || !ok } sub.slots) := by
  obtain ⟨job, routed, held, -, link⟩ := sound.jobOf found
  unfold Linked at link
  rw [handler] at link
  obtain ⟨slotsKeys, chunk, -⟩ := link
  refine ⟨job, held, chunk.noItems, ?_⟩
  simp only [writeDone, routed, chunk.held, Option.map_some, chunk.slots]

theorem zip_unzip {First Second : Type} (pairs : List (First × Second)) :
    (pairs.map Prod.fst).zip (pairs.map Prod.snd) = pairs := by
  rw [List.zip_map']
  exact List.map_id _

theorem readDone_eq (sound : controller.Sound setup) (found : controller.handlers.get? sid = some sub)
    (handler : sub.handler = .reader) (ok : Bool) :
    ∃ job, controller.jobs.get? sub.owner = some job ∧ job.jobId = sub.owner ∧ LoadChunk job sid sub ∧
      readDone setup controller (sid, ok) = some (
        if ok then
          (controller.collect sid).launch
            { job with
              reads := (job.reads.erase sid).set (controller.subCounter + 1)
                (sub.slots, sub.items.map Prod.snd, sub.items.map Prod.fst) }
            (.started .b2g job.jobId sub.slots sub.items
              (pageWork setup sub (sub.items.map Prod.fst) (sub.items.map Prod.snd)))
        else
          { controller.collect sid with
            failedGpuBlocks := controller.failedGpuBlocks ∪ (sub.items.map Prod.snd).toFinset
            spoiled := Function.update controller.spoiled job.jobId
              (controller.spoiled job.jobId ∪ (sub.items.map Prod.snd).toFinset) }.release
            { job with reads := job.reads.erase sid, failed := true } sub.slots) := by
  obtain ⟨job, routed, held, named, link⟩ := sound.jobOf found
  unfold Linked at link
  rw [handler] at link
  refine ⟨job, held, named, link.1, ?_⟩
  simp only [readDone, routed, link.1.held, Option.map_some, zip_unzip]
  rfl

theorem returnDone_eq (sound : controller.Sound setup) (found : controller.handlers.get? sid = some sub)
    (handler : sub.handler = .b2g) (ok : Bool) :
    ∃ job, controller.jobs.get? sub.owner = some job ∧ LoadChunk job sid sub ∧
      sub.work = pageWork setup sub (sub.items.map Prod.fst) (sub.items.map Prod.snd) ∧
        returnDone controller (sid, ok) = some
          ((controller.collect sid).release { job with reads := job.reads.erase sid } sub.slots) := by
  obtain ⟨job, routed, held, -, link⟩ := sound.jobOf found
  unfold Linked at link
  rw [handler] at link
  refine ⟨job, held, link.1, link.2, ?_⟩
  simp only [returnDone, routed, link.1.held, Option.map_some]

theorem copyDone_handles : Handles setup .g2b (copyDone setup) := by
  intro controller report sub sound found handler _ _
  obtain ⟨job, slotsKeys, held, named, chunk, same⟩ := copyDone_eq sound found handler report.2
  have clean : some false ∉ sub.ran :=
    sound.accounted.copiesOk sub (OrderedDict.mem_values_iff.mpr ⟨_, found⟩) (.inl handler)
  refine ⟨_, same, ⟨?_, ?_⟩, fun other kept different there => launch_others sound _ _ different there⟩
  · exact launch_accounted (sound.collect_accounted found) held ⟨rfl, rfl, rfl, rfl, rfl, rfl⟩ named chunk.slots
      clean (started_clean _ _ _ _ _) (unused sound)
  · refine launch_wired (sound.collect_wired _) (named.symm ▸ held) rfl ?_ ?_
    · exact fun one present => ⟨rfl, rfl, reroute sound _ _ present, rfl⟩
    · exact ⟨slotsKeys, ⟨chunk.isStore, OrderedDict.get?_set_self _ _ _, rfl, rfl⟩, rfl⟩

/-- A collected sub-job that is counted keeps the invariant. -/
theorem Sound.release (sound : controller.Sound setup) (found : controller.handlers.get? sid = some sub)
    {job other : DirectJob Key} (held : controller.jobs.get? sub.owner = some job)
    (counts : Accounted.Counts job other sub)
    (keeps : ∀ one, (controller.collect sid).handlers.get? one ≠ none → Keeps job other one) :
    ((controller.collect sid).release other sub.slots).Sound setup := by
  have collected := sound.collect_accounted found
  refine ⟨?_, release_wired collected (sound.collect_wired _) held counts keeps⟩
  rw [release_handlers]
  exact release_accounted collected held counts

theorem writeDone_handles : Handles setup .files writeDone := by
  intro controller report sub sound found handler _ ok
  obtain ⟨job, held, -, same⟩ := writeDone_eq sound found handler report.2
  refine ⟨_, same, ?_, ?_⟩
  · refine sound.release found held ⟨rfl, rfl, rfl, rfl, rfl, ?_⟩ fun one present => ⟨rfl, rfl, erased _ present, rfl⟩
    rw [ok, ← ok_iff sub]
    simp
  · intro other kept different there
    rw [release_handlers]
    exact (OrderedDict.get?_erase_of_ne _ different).trans there

theorem returnDone_handles : Handles setup .b2g returnDone := by
  intro controller report sub sound found handler _ _
  obtain ⟨job, held, -, -, same⟩ := returnDone_eq sound found handler report.2
  have clean : some false ∉ sub.ran :=
    sound.accounted.copiesOk sub (OrderedDict.mem_values_iff.mpr ⟨_, found⟩) (.inr handler)
  refine ⟨_, same, ?_, ?_⟩
  · refine sound.release found held ⟨rfl, rfl, rfl, rfl, rfl, ?_⟩ fun one present => ⟨rfl, rfl, rfl, erased _ present⟩
    exact (or_iff_left clean).symm
  · intro other kept different there
    rw [release_handlers]
    exact (OrderedDict.get?_erase_of_ne _ different).trans there

/-- Invalid blocks do not matter to the account and the routing. -/
theorem Sound.spoil (sound : controller.Sound setup) (blocks : Finset Int) (spoiled : Nat → Finset Int) :
    ({ controller with failedGpuBlocks := blocks, spoiled := spoiled } :
      BounceController Key groups).Sound setup :=
  sound.transfer rfl rfl rfl rfl rfl rfl (.refl _) rfl rfl rfl

theorem readDone_handles : Handles setup .reader (readDone setup) := by
  intro controller report sub sound found handler _ ok
  obtain ⟨job, held, named, chunk, same⟩ := readDone_eq sound found handler report.2
  refine ⟨_, same, ?_⟩
  split
  case isTrue good =>
    have clean : some false ∉ sub.ran := fun bad => by
      rw [ok, (ok_iff sub).mpr bad] at good
      cases good
    refine ⟨⟨?_, ?_⟩, fun other kept different there => launch_others sound _ _ different there⟩
    · exact launch_accounted (sound.collect_accounted found) held ⟨rfl, rfl, rfl, rfl, rfl, rfl⟩ named rfl clean
        (started_clean _ _ _ _ _) (unused sound)
    · refine launch_wired (sound.collect_wired _) (named.symm ▸ held) rfl ?_ ?_
      · exact fun one present => ⟨rfl, rfl, rfl, reroute sound _ _ present⟩
      · exact ⟨⟨chunk.isLoad, OrderedDict.get?_set_self _ _ _, chunk.count, chunk.piece⟩, rfl⟩
  case isFalse bad =>
    have broken : some false ∈ sub.ran := by
      rw [← ok_iff sub, ← ok]
      exact Bool.eq_false_iff.mpr bad
    refine ⟨?_, ?_⟩
    · have spoiled := sound.spoil (controller.failedGpuBlocks ∪ (sub.items.map Prod.snd).toFinset)
        (Function.update controller.spoiled job.jobId
          (controller.spoiled job.jobId ∪ (sub.items.map Prod.snd).toFinset))
      refine spoiled.release found held ⟨rfl, rfl, rfl, rfl, rfl, ?_⟩
        fun one present => ⟨rfl, rfl, rfl, erased _ present⟩
      exact iff_of_true rfl (.inr broken)
    · intro other kept different there
      rw [release_handlers]
      exact (OrderedDict.get?_erase_of_ne _ different).trans there

end DgxSpark.Bounce.BounceController
