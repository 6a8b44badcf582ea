import DgxSpark.Bounce.Routing

/-
This file proves the accounting of the bounce transfers over all runs: no slot is lost or held twice,
every item goes through one chunk, and every job ends with one result that tells of its failures.
-/

namespace DgxSpark.Bounce.BounceController

variable {Key : Type} {groups : Nat} {setup : Setup Key groups}
  {controller next : BounceController Key groups}

/-! ### The loops of a pump -/

/-- The whole loop of a stage, for an invariant that every report keeps. -/
theorem run_reports {handler : Handler} {invariant : BounceController Key groups → Prop}
    {body : BounceController Key groups → Nat × Bool → Option (BounceController Key groups)}
    (keeps : ∀ controller report sub, invariant controller → controller.handlers.get? report.1 = some sub →
      sub.handler = handler → sub.Finished → report.2 = sub.ok →
        ∃ next, body controller report = some next ∧ invariant next ∧
          ∀ other kept, other ≠ report.1 → controller.handlers.get? other = some kept →
            next.handlers.get? other = some kept) :
    ∀ done controller, invariant controller → controller.Reports handler done →
      ∃ next, Run.run body controller done = some next ∧ invariant next := by
  intro done
  induction done with
  | nil => exact fun controller holds _ => ⟨controller, rfl, holds⟩
  | cons report rest ih =>
      intro controller holds ⟨nodup, finished⟩
      rw [List.map_cons, List.nodup_cons] at nodup
      obtain ⟨sub, found, mine, ended, ok⟩ := finished report List.mem_cons_self
      obtain ⟨middle, taken, kept, others⟩ :=
        keeps controller report sub holds found mine ended ok
      have left : middle.Reports handler rest := by
        refine ⟨nodup.2, fun other inside => ?_⟩
        obtain ⟨next, there, rest⟩ := finished other (List.mem_cons_of_mem _ inside)
        have different : other.1 ≠ report.1 := fun same =>
          nodup.1 (List.mem_map.mpr ⟨other, inside, same⟩)
        exact ⟨next, others _ next different there, rest⟩
      obtain ⟨last, reached, done⟩ := ih middle kept left
      exact ⟨last, Run.run_cons_some.mpr ⟨middle, taken, reached⟩, done⟩

theorem drain_sound (sound : controller.Sound setup) {handler : Handler} {done : List (Nat × Bool)}
    (reports : controller.Reports handler done) :
    ∃ next, drain setup controller handler done = some next ∧ next.Sound setup := by
  cases handler with
  | g2b => exact run_reports copyDone_handles done controller sound reports
  | files => exact run_reports writeDone_handles done controller sound reports
  | reader => exact run_reports readDone_handles done controller sound reports
  | b2g => exact run_reports returnDone_handles done controller sound reports

/-- A new chunk is routed and accounted for. -/
theorem Sound.start (sound : controller.Sound setup) {id n : Nat} {job other : DirectJob Key} {sub : SubJob Key}
    (found : controller.jobs.get? id = some job) (positive : 0 < n) (available : n ≤ controller.free.length)
    (left : job.nextItem + n ≤ job.items.length) (owner : sub.owner = id)
    (slots : sub.slots = controller.free.take n) (clean : some false ∉ sub.ran)
    (same : Accounted.SameAccount { job with nextItem := job.nextItem + n } other)
    (keeps : ∀ one, controller.handlers.get? one ≠ none → Keeps job other one)
    (linked : Linked setup other (controller.subCounter + 1) sub) :
    (({ controller with
        free := controller.free.drop n
        chunks := Function.update controller.chunks id
          (controller.chunks id ++ [(job.items.drop job.nextItem).take n]) } :
      BounceController Key groups).launch other sub).Sound setup := by
  have named : other.jobId = id := same.1.trans (sound.accounted.counted id job found).1
  have unused := sound.wired.ids _ (Nat.lt_succ_self controller.subCounter)
  refine ⟨?_, ?_⟩
  · have taken := sound.accounted.take found positive available left sub owner slots clean
    have rejobbed := taken.rejob (OrderedDict.get?_set_self _ _ _) same
    refine (rejobbed.perm (values_set unused)).transfer rfl rfl ?_ rfl rfl rfl (.refl _)
    intro one
    change (controller.jobs.set other.jobId other).get? one = ((controller.jobs.set id _).set id other).get? one
    rw [named]
    simp only [OrderedDict.get?_set]
    split
    · rfl
    · rfl
  · refine launch_wired ?_ (owner.symm ▸ found) (named.trans owner.symm) keeps linked
    exact sound.wired.transfer rfl rfl rfl fun _ _ there _ => there

/-- A piece of a list after dropping and taking. -/
theorem drop_take_infix {Item : Type} (items : List Item) (from' n : Nat) : (items.drop from').take n <:+: items :=
  (List.take_prefix n _).isInfix.trans (List.drop_suffix from' items).isInfix

theorem startChunk_sound (store : Bool) (sound : controller.Sound setup) (id : Nat) :
    (startChunk setup store controller id).Sound setup := by
  unfold startChunk
  split
  · exact sound
  case h_2 job found =>
    split
    · exact sound
    case isFalse open' =>
      rw [not_or, not_or] at open'
      obtain ⟨-, more, free⟩ := open'
      have room : 0 < controller.free.length := List.length_pos_of_ne_nil free
      have named := (sound.accounted.counted id job found).1
      have length : ((job.items.drop job.nextItem).take
          (min controller.free.length (job.items.length - job.nextItem))).length =
            (controller.free.take (min controller.free.length (job.items.length - job.nextItem))).length := by
        rw [List.length_take, List.length_take, List.length_drop]
        omega
      have apart : ∀ one, controller.handlers.get? one ≠ none → one ≠ controller.subCounter + 1 := by
        rintro one present rfl
        exact present (sound.wired.ids _ (Nat.lt_succ_self _))
      dsimp only
      split
      case isTrue isStore =>
        refine sound.start found (by omega) (Nat.min_le_left _ _) (by omega) named rfl (started_clean _ _ _ _ _)
          ⟨rfl, rfl, rfl, rfl, rfl, rfl⟩ ?_ ?_
        · exact fun one present => ⟨rfl, rfl, OrderedDict.get?_set_of_ne _ _ (apart one present), rfl⟩
        · refine ⟨_, ((job.items.drop job.nextItem).take
            (min controller.free.length (job.items.length - job.nextItem))).map Prod.snd,
            ⟨isStore, OrderedDict.get?_set_self _ _ _, ?_, rfl⟩, ?_, ?_⟩
          · exact List.map_fst_zip (by rw [List.length_map, length])
          · rw [List.length_map]
            exact length
          · rw [List.map_snd_zip (by rw [List.length_map, length])]
            rfl
      case isFalse isLoad =>
        refine sound.start found (by omega) (Nat.min_le_left _ _) (by omega) named rfl (started_clean _ _ _ _ _)
          ⟨rfl, rfl, rfl, rfl, rfl, rfl⟩ ?_ ?_
        · exact fun one present => ⟨rfl, rfl, rfl, OrderedDict.get?_set_of_ne _ _ (apart one present)⟩
        · exact ⟨⟨Bool.eq_false_iff.mpr isLoad, OrderedDict.get?_set_self _ _ _, length,
            drop_take_infix _ _ _⟩, rfl⟩

theorem startChunks_sound (sound : controller.Sound setup) : (startChunks setup controller).Sound setup := by
  have pass : ∀ store (ids : List Nat) (start : BounceController Key groups), start.Sound setup →
      (ids.foldl (startChunk setup store) start).Sound setup := by
    intro store ids
    induction ids with
    | nil => exact fun _ held => held
    | cons head tail ih => exact fun start held => ih _ (startChunk_sound store held head)
  exact pass true _ _ (pass false _ _ sound)

/-- The results of a job, taken or not. -/
def resultsOf (controller : BounceController Key groups) (id : Nat) : List TransferResult :=
  controller.history.filter fun result => result.jobId = id

theorem resultsOf_length (controller : BounceController Key groups) (id : Nat) :
    (controller.resultsOf id).length = (controller.history.map TransferResult.jobId).count id := by
  rw [resultsOf, ← List.countP_eq_length_filter, List.count, List.countP_map]
  rfl

theorem takeResults_history (controller : BounceController Key groups) (store : Bool) :
    (controller.takeResults store).2.history.Perm controller.history := by
  unfold takeResults history
  dsimp only
  rw [List.append_assoc]
  refine List.Perm.append_left _ ?_
  cases store with
  | true =>
      rw [Function.update_self, Function.update_of_ne Bool.false_ne_true, List.nil_append]
  | false =>
      rw [Function.update_self, Function.update_of_ne Bool.false_ne_true.symm, List.append_nil]
      exact List.perm_append_comm

theorem startChunk_handlers (store : Bool) (controller : BounceController Key groups) (id : Nat)
    (idle : (startChunk setup store controller id).handlers.entries = []) :
    startChunk setup store controller id = controller := by
  have nonempty : ∀ (handlers : OrderedDict Nat (SubJob Key)) sid sub, (handlers.set sid sub).entries ≠ [] := by
    intro handlers sid sub nothing
    have found := OrderedDict.get?_eq_some_iff.mp (OrderedDict.get?_set_self handlers sid sub)
    rw [nothing] at found
    exact absurd found List.not_mem_nil
  unfold startChunk at idle ⊢
  split at idle
  · rfl
  case h_2 job found =>
    dsimp only at idle ⊢
    split at idle
    case isTrue skipped => exact if_pos skipped
    case isFalse =>
      split at idle
      · exact absurd idle (nonempty _ _ _)
      · exact absurd idle (nonempty _ _ _)

/-- A job that a pass of its kind leaves alone has all its items under way, or no slot is free. -/
theorem startChunk_skips {id : Nat} {job : DirectJob Key} (found : controller.jobs.get? id = some job)
    (same : startChunk setup job.store controller id = controller) :
    job.items.length ≤ job.nextItem ∨ controller.free = [] := by
  by_contra more
  rw [not_or] at more
  have counter := congrArg BounceController.subCounter same
  unfold startChunk at counter
  rw [found] at counter
  dsimp only at counter
  rw [if_neg (by simp [more])] at counter
  split at counter
  · exact absurd counter (Nat.succ_ne_self _)
  · exact absurd counter (Nat.succ_ne_self _)

theorem release_nBounce (controller : BounceController Key groups) (job : DirectJob Key) (slots : List Nat) :
    (controller.release job slots).nBounce = controller.nBounce := by
  unfold release
  dsimp only
  split
  · rfl
  · rfl

theorem startChunk_nBounce (store : Bool) (controller : BounceController Key groups) (id : Nat) :
    (startChunk setup store controller id).nBounce = controller.nBounce := by
  unfold startChunk
  split
  · rfl
  · dsimp only
    split
    · rfl
    · split
      · rfl
      · rfl

/-- When no sub-job is out after a pass, it started nothing. -/
theorem pass_idle (store : Bool) (ids : List Nat) (controller : BounceController Key groups)
    (idle : (ids.foldl (startChunk setup store) controller).handlers.entries = []) :
    ids.foldl (startChunk setup store) controller = controller ∧
      ∀ id ∈ ids, startChunk setup store controller id = controller := by
  induction ids generalizing controller with
  | nil => exact ⟨rfl, fun _ inside => absurd inside List.not_mem_nil⟩
  | cons head tail ih =>
      rw [List.foldl_cons] at idle ⊢
      obtain ⟨same, each⟩ := ih _ idle
      rw [same] at idle
      have first := startChunk_handlers store controller head idle
      rw [first] at same each
      refine ⟨by rw [first]; exact same, ?_⟩
      intro id inside
      rcases List.mem_cons.mp inside with rfl | later
      · exact first
      · exact each id later

theorem drain_nBounce {handler : Handler} {done : List (Nat × Bool)}
    (drained : drain setup controller handler done = some next) : next.nBounce = controller.nBounce := by
  have keeps : ∀ body : BounceController Key groups → Nat × Bool → Option (BounceController Key groups),
      (∀ start report last, body start report = some last → last.nBounce = start.nBounce) →
        Run.run body controller done = some next → next.nBounce = controller.nBounce := by
    intro body each ran
    exact @Run.run_invariant _ _ body (fun state => state.nBounce = controller.nBounce)
      (fun start report last same taken => (each start report last taken).trans same) _ _ _ rfl ran
  cases handler with
  | g2b =>
      refine keeps (copyDone setup) (fun start report last taken => ?_) drained
      unfold copyDone at taken
      split at taken
      · cases taken
        rfl
      · obtain ⟨_, _, rfl⟩ := Option.map_eq_some_iff.mp taken
        rfl
  | files =>
      refine keeps writeDone (fun start report last taken => ?_) drained
      unfold writeDone at taken
      split at taken
      · cases taken
        rfl
      · obtain ⟨_, _, rfl⟩ := Option.map_eq_some_iff.mp taken
        exact release_nBounce _ _ _
  | reader =>
      refine keeps (readDone setup) (fun start report last taken => ?_) drained
      unfold readDone at taken
      split at taken
      · cases taken
        rfl
      · obtain ⟨⟨_, _, _⟩, _, rfl⟩ := Option.map_eq_some_iff.mp taken
        dsimp only
        split
        · rfl
        · exact release_nBounce _ _ _
  | b2g =>
      refine keeps returnDone (fun start report last taken => ?_) drained
      unfold returnDone at taken
      split at taken
      · cases taken
        rfl
      · obtain ⟨⟨_, _, _⟩, _, rfl⟩ := Option.map_eq_some_iff.mp taken
        exact release_nBounce _ _ _

/-- When nothing is outstanding after a pump, no job is left. -/
theorem quiescent (sound : controller.Sound setup) (positive : 0 < controller.nBounce)
    (idle : (startChunks setup controller).handlers.entries = []) (id : Nat) :
    (startChunks setup controller).jobs.get? id = none := by
  unfold startChunks at idle ⊢
  dsimp only at idle ⊢
  obtain ⟨sameStores, stores⟩ := pass_idle true _ _ idle
  rw [sameStores] at idle ⊢
  obtain ⟨sameLoads, loads⟩ := pass_idle false _ _ idle
  rw [sameLoads] at idle stores ⊢
  have noSubs : controller.handlers.values = [] := List.map_eq_nil_iff.mpr idle
  have free : controller.free ≠ [] := by
    intro nothing
    have size := sound.accounted.slots.length_eq
    rw [noSubs, nothing, List.length_range] at size
    exact absurd size.symm positive.ne'
  by_contra present
  obtain ⟨job, found⟩ := Option.ne_none_iff_exists'.mp present
  have listed : id ∈ controller.jobs.keys := OrderedDict.mem_keys_iff.mpr ⟨job, found⟩
  have skipped : startChunk setup job.store controller id = controller := by
    cases job.store with
    | true => exact stores id listed
    | false => exact loads id listed
  obtain ⟨-, tally, within, short⟩ := sound.accounted.counted id job found
  have nothing : pendingItems controller.handlers.values id = 0 := by
    rw [noSubs]
    rfl
  rcases startChunk_skips found skipped with finished | empty
  · omega
  · exact free empty

/-! ### Work and calls -/

variable [DecidableEq Key]

/-- The memories change, and only they do. -/
theorem perform_frame {sub : SubJob Key} {ok : Bool} {bytes : List UInt8} {work : Work Key}
    (done : perform setup controller sub ok bytes work = some next) :
    ∃ bounce fetched gpuLog, next = { controller with bounce := bounce, fetched := fetched, gpuLog := gpuLog } := by
  cases work with
  | page copy =>
      simp only [perform] at done
      split at done
      · split at done
        · cases done
          exact ⟨_, _, _, rfl⟩
        · cases done
          exact ⟨_, _, _, rfl⟩
      · cases done
  | write slotsKeys =>
      cases done
      exact ⟨_, _, _, rfl⟩
  | read key slot =>
      simp only [perform] at done
      split at done
      · split at done
        · obtain ⟨⟨_, _⟩, _, rfl⟩ := Option.map_eq_some_iff.mp done
          exact ⟨_, _, _, rfl⟩
        · cases done
      · cases done
        exact ⟨_, _, _, rfl⟩

/-- A copy never fails. -/
theorem perform_page {sub : SubJob Key} {ok : Bool} {bytes : List UInt8} {copy : PageCopy}
    (done : perform setup controller sub ok bytes (.page copy) = some next) : ok = true := by
  by_contra failed
  simp only [perform, failed] at done
  cases done

theorem runUnit_eq_some {sid index : Nat} {ok : Bool} {bytes : List UInt8}
    (done : runUnit setup controller sid index ok bytes = some next) :
    ∃ sub work middle, controller.handlers.get? sid = some sub ∧ sub.ran[index]? = some none ∧
      sub.work[index]? = some work ∧ perform setup controller sub ok bytes work = some middle ∧
        next = { middle with
          handlers := middle.handlers.set sid { sub with ran := sub.ran.set index (some ok) }
          taskFailed := if ok then middle.taskFailed else insert sub.owner middle.taskFailed } := by
  simp only [runUnit, Option.bind_eq_some_iff] at done
  obtain ⟨sub, found, done⟩ := done
  split at done
  case isFalse => cases done
  case isTrue waiting =>
    simp only [Option.bind_eq_some_iff, Option.map_eq_some_iff] at done
    obtain ⟨work, listed, middle, performed, rfl⟩ := done
    exact ⟨sub, work, middle, found, waiting, listed, performed, rfl⟩

theorem set_ran_iff {ran : List (Option Bool)} {index : Nat} {ok : Bool} (waiting : ran[index]? = some none) :
    some false ∈ ran.set index (some ok) ↔ some false ∈ ran ∨ ok = false := by
  obtain ⟨bound, here⟩ := List.getElem?_eq_some_iff.mp waiting
  constructor
  · intro inside
    rcases List.mem_or_eq_of_mem_set inside with old | new
    · exact .inl old
    · exact .inr (Option.some.inj new).symm
  · rintro (old | rfl)
    · obtain ⟨place, there, same⟩ := List.mem_iff_getElem.mp old
      have different : index ≠ place := by
        rintro rfl
        rw [here] at same
        cases same
      refine List.mem_iff_getElem.mpr ⟨place, by rwa [List.length_set], ?_⟩
      rw [List.getElem_set_ne different]
      exact same
    · exact List.mem_set bound (some false)

theorem runUnit_sound (sound : controller.Sound setup) {sid index : Nat} {ok : Bool} {bytes : List UInt8}
    (done : runUnit setup controller sid index ok bytes = some next) : next.Sound setup := by
  obtain ⟨sub, work, middle, found, waiting, listed, performed, rfl⟩ := runUnit_eq_some done
  obtain ⟨bounce, fetched, gpuLog, rfl⟩ := perform_frame performed
  obtain ⟨job, -, held, -, linked⟩ := sound.jobOf found
  have front := sound.accounted.perm (values_erase found)
  have failures : some false ∈ sub.ran.set index (some ok) ↔ some false ∈ sub.ran ∨ ok = false := set_ran_iff waiting
  refine ⟨?_, ?_⟩
  · have ran := front.ran { sub with ran := sub.ran.set index (some ok) } rfl rfl ok failures ?_
    · have listing : (controller.handlers.set sid { sub with ran := sub.ran.set index (some ok) }).values.Perm
          ({ sub with ran := sub.ran.set index (some ok) } :: (controller.handlers.erase sid).values) :=
        (OrderedDict.set_perm controller.handlers sid _).map Prod.snd
      exact (ran.perm listing).transfer rfl rfl (fun _ => rfl) rfl rfl rfl (.refl _)
    · intro copy
      rw [failures, not_or]
      refine ⟨sound.accounted.copiesOk sub (OrderedDict.mem_values_iff.mpr ⟨_, found⟩) copy, ?_⟩
      obtain ⟨page, rfl⟩ := linked.work copy work (List.mem_of_getElem? listed)
      rw [perform_page performed]
      exact Bool.noConfusion
  · refine ⟨fun other above => ?_, fun other now present => ?_⟩
    · have different : other ≠ sid := by
        rintro rfl
        rw [sound.wired.ids _ above] at found
        cases found
      exact (OrderedDict.get?_set_of_ne _ _ different).trans (sound.wired.ids other above)
    · rcases OrderedDict.get?_set_cases present with ⟨rfl, rfl⟩ | ⟨-, there⟩
      · exact ⟨(sound.wired.linked _ sub found).1, job, held, linked.ran _⟩
      · exact sound.wired.linked other now there

theorem submit_sound (sound : controller.Sound setup) {jobId : Nat} (new : controller.accepted.get? jobId = none)
    (store : Bool) (gpuIds : List Int) (spec : Slab.SlabLoadStoreSpec Key) :
    (submit setup controller jobId store gpuIds spec).2.Sound setup := by
  unfold submit
  split
  · exact sound
  case isFalse fits =>
    rw [not_or, not_not] at fits
    have items : spec.keys.zip gpuIds ≠ [] := by
      intro nothing
      have size := congrArg List.length nothing
      rw [List.length_zip, fits.1, Nat.min_self] at size
      exact fits.2 (List.length_eq_zero_iff.mp size)
    have unknown : controller.jobs.get? jobId = none := by
      by_contra present
      obtain ⟨old, there⟩ := Option.ne_none_iff_exists'.mp present
      exact absurd (new.symm.trans (sound.accounted.listed jobId old there).1) (Option.some_ne_none _).symm
    refine ⟨sound.accounted.accept new rfl rfl rfl rfl items, ?_⟩
    refine sound.wired.transfer rfl rfl rfl fun id job there _ => ?_
    have different : id ≠ jobId := by
      rintro rfl
      rw [unknown] at there
      cases there
    exact (OrderedDict.get?_set_of_ne _ _ different).trans there

theorem step_sound (controller : BounceController Key groups) (action : BounceAction Key)
    (next : BounceController Key groups) (sound : controller.Sound setup)
    (taken : step setup controller action = some next) : next.Sound setup := by
  cases action with
  | submit jobId store gpuIds spec =>
      simp only [step] at taken
      split at taken
      case isTrue allowed =>
        cases taken
        exact submit_sound sound allowed.2 store gpuIds spec
      case isFalse => cases taken
  | takeResults store =>
      simp only [step] at taken
      split at taken
      · cases taken
        exact sound.transfer rfl rfl rfl rfl rfl rfl (takeResults_history controller store) rfl rfl rfl
      · cases taken
  | takeFailedGpuBlocks =>
      simp only [step] at taken
      split at taken
      · cases taken
        exact sound.transfer rfl rfl rfl rfl rfl rfl (.refl _) rfl rfl rfl
      · cases taken
  | run sid index ok bytes => exact runUnit_sound sound taken
  | poll done =>
      simp only [step] at taken
      split at taken
      case h_1 handler _ =>
        split at taken
        case isTrue reports =>
          obtain ⟨middle, drained, kept⟩ := drain_sound sound reports
          rw [drained] at taken
          cases taken
          exact kept.transfer rfl rfl rfl rfl rfl rfl (.refl _) rfl rfl rfl
        case isFalse => cases taken
      case h_2 => cases taken
  | chunks =>
      simp only [step] at taken
      split at taken
      · cases taken
        exact (startChunks_sound sound).transfer rfl rfl rfl rfl rfl rfl (.refl _) rfl rfl rfl
      · cases taken

/-! ### The account of a run -/

/-- The slots that outstanding sub-jobs hold. -/
def held (controller : BounceController Key groups) : List Nat :=
  controller.handlers.values.flatMap SubJob.slots

variable (setup) in
/-- What the accounting promises of every state. -/
structure Balanced (controller : BounceController Key groups) : Prop where
  slots : (controller.free ++ controller.held).Perm (List.range controller.nBounce)
  chunked : ∀ id store items, controller.accepted.get? id = some (store, items) →
    (controller.chunks id).flatten <+: items
  once : ∀ id, (controller.resultsOf id).length ≤ if controller.accepted.get? id = none then 0 else 1
  complete : ∀ result ∈ controller.history, ∃ store items,
    controller.accepted.get? result.jobId = some (store, items) ∧
      (controller.chunks result.jobId).flatten = items ∧
        ∀ sub ∈ controller.handlers.values, sub.owner ≠ result.jobId
  success : ∀ result ∈ controller.history, (result.success = true ↔ result.jobId ∉ controller.taskFailed)
  neverRaises : ∀ handler done, controller.stage = .ask handler → controller.Reports handler done →
    ∃ next, step setup controller (.poll done) = some next

theorem Sound.balanced (sound : controller.Sound setup) : controller.Balanced setup where
  slots := sound.accounted.slots
  chunked id store items known := by
    cases found : controller.jobs.get? id with
    | none => exact (sound.accounted.closed id store items known found) ▸ List.prefix_rfl
    | some job =>
        obtain ⟨same, chunked⟩ := sound.accounted.listed id job found
        obtain ⟨-, rfl⟩ := Prod.mk.inj (Option.some.inj (known.symm.trans same))
        rw [chunked]
        exact List.take_prefix _ _
  once id := by
    have results := sound.accounted.results id
    rw [resultsOf_length, ← results]
    exact Nat.le_add_right _ _
  complete result inside := by
    have gone := sound.accounted.result_of_gone inside
    have results := sound.accounted.results result.jobId
    have some : 0 < (controller.history.map TransferResult.jobId).count result.jobId :=
      List.count_pos_iff.mpr (List.mem_map.mpr ⟨result, inside, rfl⟩)
    have known : controller.accepted.get? result.jobId ≠ none := by
      intro absent
      rw [if_pos absent] at results
      omega
    obtain ⟨⟨store, items⟩, known⟩ := Option.ne_none_iff_exists'.mp known
    refine ⟨store, items, known, sound.accounted.closed _ store items known gone, ?_⟩
    intro sub there same
    obtain ⟨job, present⟩ := sound.accounted.owned sub there
    rw [same, gone] at present
    cases present
  success := sound.accounted.success
  neverRaises handler done asks reports := by
    obtain ⟨next, drained, -⟩ := drain_sound sound reports
    simp only [step, asks, reports, if_true, drained, Option.map_some]
    exact ⟨_, rfl⟩

theorem step_nBounce {action : BounceAction Key} (taken : step setup controller action = some next) :
    next.nBounce = controller.nBounce := by
  cases action with
  | submit jobId store gpuIds spec =>
      simp only [step] at taken
      split at taken
      · cases taken
        unfold submit
        split
        · rfl
        · rfl
      · cases taken
  | takeResults store =>
      simp only [step] at taken
      split at taken
      · cases taken
        rfl
      · cases taken
  | takeFailedGpuBlocks =>
      simp only [step] at taken
      split at taken
      · cases taken
        rfl
      · cases taken
  | run sid index ok bytes =>
      obtain ⟨_, _, middle, _, _, _, performed, rfl⟩ := runUnit_eq_some taken
      obtain ⟨_, _, _, rfl⟩ := perform_frame performed
      rfl
  | poll done =>
      simp only [step] at taken
      split at taken
      · split at taken
        · obtain ⟨middle, drained, rfl⟩ := Option.map_eq_some_iff.mp taken
          have same : middle.nBounce = controller.nBounce := drain_nBounce drained
          exact same
        · cases taken
      · cases taken
  | chunks =>
      simp only [step] at taken
      split at taken
      · cases taken
        have pass : ∀ store (ids : List Nat) (start : BounceController Key groups),
            (ids.foldl (startChunk setup store) start).nBounce = start.nBounce := by
          intro store ids start
          exact foldl_keeps BounceController.nBounce (startChunk_nBounce store) ids start
        exact (pass true _ _).trans (pass false _ _)
      · cases taken

/-- For every run of submits, pumps, file tasks and copies in any order: the slots stay accounted
for, every item goes into one chunk, every job has at most one result, which comes after all its
sub-jobs and tells whether one of its file tasks failed; and when a pump leaves nothing outstanding,
every accepted job has exactly one result. -/
theorem transfers_accounted (setup : Setup Key groups) (nBounce : Nat) (positive : 0 < nBounce) (bounce : Buffer)
    (actions : List (BounceAction Key)) (controller : BounceController Key groups)
    (reached : Run.run (step setup) (opened nBounce bounce) actions = some controller) :
    controller.Balanced setup ∧ controller.nBounce = nBounce ∧
      ∀ next, step setup controller .chunks = some next → next.handlers.entries = [] →
        ∀ id, next.accepted.get? id ≠ none → (next.resultsOf id).length = 1 := by
  have sound := Run.run_invariant step_sound (opened_sound nBounce bounce) reached
  have size : controller.nBounce = nBounce :=
    Run.run_invariant (fun _ _ _ same taken => (step_nBounce taken).trans same) rfl reached
  refine ⟨sound.balanced, size, ?_⟩
  intro next taken idle id known
  have after := step_sound controller .chunks next sound taken
  simp only [step] at taken
  split at taken
  case isFalse => cases taken
  case isTrue =>
    cases taken
    have gone := quiescent sound (size.symm ▸ positive) idle id
    have results := after.accounted.results id
    rw [resultsOf_length]
    rw [if_pos gone, if_neg known] at results
    exact results

/-- One group with a page of one byte, slab stores, and copies block by block. -/
def onePage : Setup Nat 1 where
  group := fun _ => Fin.last 0
  groupLayout := fun _ => [(0, 1)]
  storeTasks := slabStoreTasks
  pages := groupPages fun _ => [(0, 1)]

/-- A load of two blocks through one bounce slot; the read of the second one fails. -/
def secondFails : List (BounceAction Nat) :=
  [.submit 5 false [40, 41] ⟨[7, 8], [0, 1], 0, 0⟩, .poll [], .poll [], .poll [], .poll [], .chunks,
    .run 1 0 true [9], .poll [], .poll [], .poll [(1, true)], .run 2 0 true [], .poll [(2, true)], .chunks,
    .poll [], .run 3 0 false [], .poll [], .poll [(3, false)], .poll [], .chunks,
    .takeResults false, .takeFailedGpuBlocks]

theorem transfers_accounted_secondFails :
    ∃ controller, Run.run (step onePage) (opened 1 fun _ _ _ => 0) secondFails = some controller ∧
      controller.Balanced onePage ∧ controller.handed = [⟨5, false, none⟩] := by
  have ends : (Run.run (step onePage) (opened 1 fun _ _ _ => 0) secondFails).map BounceController.handed =
      some [⟨5, false, none⟩] := by decide +kernel
  obtain ⟨controller, reached, handed⟩ := Option.map_eq_some_iff.mp ends
  exact ⟨controller, reached,
    (transfers_accounted onePage 1 Nat.one_pos (fun _ _ _ => 0) secondFails controller reached).1, handed⟩

end DgxSpark.Bounce.BounceController
