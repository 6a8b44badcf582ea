import DgxSpark.Slab.Epoch
import DgxSpark.Slab.Slot
import DgxSpark.Slab.Capacity

/-
This file runs the scheduler, the epoch file and the slots of all ranks together: stores and loads
carry their epoch to the ranks, the scheduler restarts, and ranks lose unsynced writes.
-/

namespace DgxSpark.Slab

open SlabOffloadingManager

variable {groups ranks : Nat}

/-- A block in a slot, with the number of resets that had returned when its store was issued. -/
structure StoredBlock (groups : Nat) where
  call : WriteCall groups
  era : Nat

/-- A slot of a rank: the block that a read finds, the one that a sync made durable, and what was
put there since. -/
structure SlotState (groups : Nat) where
  visible : Option (StoredBlock groups)
  durable : Option (StoredBlock groups)
  unsynced : List (Option (StoredBlock groups))

namespace SlotState

def blank : SlotState groups := ⟨none, none, []⟩

def put (slot : SlotState groups) (block : Option (StoredBlock groups)) : SlotState groups :=
  { slot with visible := block, unsynced := block :: slot.unsynced }

def sync (slot : SlotState groups) : SlotState groups := ⟨slot.visible, slot.visible, []⟩

/-- A power loss leaves the durable block or one that was put there since. -/
def powerLoss (slot : SlotState groups) (choice : Option Nat) : SlotState groups :=
  let left := (choice.bind fun index => slot.unsynced[index]?).getD slot.durable
  ⟨left, left, []⟩

/-- The block is in the slot or may come back to it. -/
def MayHold (slot : SlotState groups) (block : StoredBlock groups) : Prop :=
  slot.visible = some block ∨ slot.durable = some block ∨ some block ∈ slot.unsynced

end SlotState

/-- A store or load that the scheduler issued, with the number of resets that had returned. -/
structure Job where
  store : Bool
  spec : SlabLoadStoreSpec (List UInt8)
  era : Nat

/-- A job that names a slot; a load that names none fails before it reads. -/
def Job.Live (job : Job) : Prop := ∃ slot : Nat, (slot : Int) ∈ job.spec.slots

/-- The manager of the running scheduler process; before it attaches it has no slots. -/
structure Scheduler (groups : Nat) where
  attached : Bool
  pendingReset : Bool
  manager : SlabOffloadingManager (List UInt8) groups

namespace Scheduler

/-- A fresh `SlabOffloadingManager`. -/
def fresh : Scheduler groups where
  attached := false
  pendingReset := false
  manager := {
    counts := fun _ => 0, index := fun _ => .empty, free := fun _ => []
    inflightStore := .empty, inflightLoad := .empty, condemned := .empty
    failedStore := ∅, siblings := .empty, seq := 0, epoch := 0, stats := ⟨0, 0, 0, 0, 0⟩ }

/-- `_attach` on the slabs of rank 0; readers and failures noted before stay noted. -/
def attach (scheduler : Scheduler groups) (counts : Fin groups → Nat)
    (view : Fin groups → Nat → Option Header) (published : Option Int) (rebuild : Bool) :
    Scheduler groups where
  attached := true
  pendingReset := false
  manager :=
    { attachView counts view published scheduler.pendingReset rebuild with
      inflightLoad := scheduler.manager.inflightLoad
      failedStore := scheduler.manager.failedStore }

/-- The slot of a load; a manager without slabs answers -1. -/
def loadSpec (group : List UInt8 → Fin groups) (scheduler : Scheduler groups)
    (keys : List (List UInt8)) : SlabLoadStoreSpec (List UInt8) :=
  if scheduler.attached then (scheduler.manager.prepareLoad group keys).1
  else { keys := keys, slots := keys.map fun _ => -1, epoch := scheduler.manager.epoch,
         seq := scheduler.manager.seq }

/-- A call that an unattached manager ignores. -/
def whenAttached (scheduler : Scheduler groups)
    (call : SlabOffloadingManager (List UInt8) groups → SlabOffloadingManager (List UInt8) groups) :
    Scheduler groups :=
  if scheduler.attached then { scheduler with manager := call scheduler.manager } else scheduler

end Scheduler

/-- The scheduler, the published epoch, and the slots of rank 0 and the other ranks. -/
structure Cluster (groups ranks : Nat) where
  published : Option Int
  scheduler : Scheduler groups
  slots : Fin (ranks + 1) → Fin groups → Nat → SlotState groups
  jobs : List Job
  resets : Nat

inductive ClusterAction (groups ranks : Nat) where
  | attach (counts : Fin groups → Nat) (rebuild : Bool)
  | lookup (key : List UInt8)
  | touch (keys : List (List UInt8))
  | prepareStore (keys : List (List UInt8))
  | markStoreFailed (keys : List (List UInt8))
  | completeStore (keys : List (List UInt8)) (success : Bool)
  | prepareLoad (keys : List (List UInt8))
  | completeLoad (keys : List (List UInt8))
  | markLoadFailed (keys : List (List UInt8))
  | resetCache
  | restart
  | write (rank : Fin (ranks + 1)) (job item : Nat) (payload : List UInt8) (complete : Bool)
  | sync (rank : Fin (ranks + 1)) (group : Fin groups)
  | powerLoss (rank : Fin (ranks + 1)) (choice : Fin groups → Nat → Option Nat)

namespace Cluster

variable (group : List UInt8 → Fin groups)

def initial : Cluster groups ranks where
  published := none
  scheduler := .fresh
  slots := fun _ _ _ => .blank
  jobs := []
  resets := 0

/-- The valid headers on rank 0. -/
def view (cluster : Cluster groups ranks) (g : Fin groups) (slot : Nat) : Option Header :=
  (cluster.slots 0 g slot).visible.bind fun block => block.call.header

/-- The write of one item of a store, under the epoch and sequence number of the job. -/
def writeCall (job : Job) (item : Nat) (payload : List UInt8) : Option (WriteCall groups) :=
  (job.spec.keys[item]?).bind fun key =>
    (job.spec.slots[item]?).bind fun slot =>
      if job.store ∧ 0 ≤ slot then
        some { group := group key, slot := slot.toNat, key := key, payload := payload,
               seq := job.spec.seq, epoch := job.spec.epoch }
      else none

/-- A write that stops on the way, or whose header cannot be packed, leaves its slot without a
valid header. -/
def written (job : Job) (call : WriteCall groups) (complete : Bool) : Option (StoredBlock groups) :=
  if complete ∧ call.header.isSome then some ⟨call, job.era⟩ else none

/-- One slot of one rank changes. -/
def putSlot (cluster : Cluster groups ranks) (rank : Fin (ranks + 1)) (g : Fin groups) (slot : Nat)
    (state : SlotState groups) : Cluster groups ranks :=
  { cluster with slots := fun r h s =>
      if r = rank ∧ h = g ∧ s = slot then state else cluster.slots r h s }

def step (cluster : Cluster groups ranks) : ClusterAction groups ranks → Option (Cluster groups ranks)
  | .attach counts rebuild =>
      if cluster.scheduler.attached then none
      else
        let next := cluster.scheduler.attach counts cluster.view cluster.published rebuild
        some { cluster with scheduler := next, published := some next.manager.epoch }
  | .lookup key => some { cluster with
      scheduler := cluster.scheduler.whenAttached fun manager => (manager.lookup group key).2 }
  | .touch keys => some { cluster with
      scheduler := cluster.scheduler.whenAttached fun manager => manager.touch group keys }
  | .prepareStore keys =>
      if cluster.scheduler.attached then
        let (answer, manager) := cluster.scheduler.manager.prepareStore group keys
        let scheduler := { cluster.scheduler with manager := manager }
        match answer with
        | .store output => some { cluster with
            scheduler := scheduler
            jobs := ⟨true, output.storeSpec, cluster.resets⟩ :: cluster.jobs }
        | _ => some { cluster with scheduler := scheduler }
      else some cluster
  | .markStoreFailed keys => some { cluster with
      scheduler := { cluster.scheduler with manager := cluster.scheduler.manager.markStoreFailed keys } }
  | .completeStore keys success => some { cluster with
      scheduler := cluster.scheduler.whenAttached fun manager => manager.completeStore group keys success }
  | .prepareLoad keys => some { cluster with
      scheduler := { cluster.scheduler with
        manager := (cluster.scheduler.manager.prepareLoad group keys).2 }
      jobs := ⟨false, cluster.scheduler.loadSpec group keys, cluster.resets⟩ :: cluster.jobs }
  | .completeLoad keys => some { cluster with
      scheduler := cluster.scheduler.whenAttached fun manager => manager.completeLoad group keys }
  | .markLoadFailed keys => some { cluster with
      scheduler := cluster.scheduler.whenAttached fun manager => manager.markLoadFailed group keys }
  | .resetCache =>
      if cluster.scheduler.attached then
        let manager := cluster.scheduler.manager.resetCache
        some { cluster with
          scheduler := { cluster.scheduler with manager := manager }
          published := some manager.epoch
          resets := cluster.resets + 1 }
      else some { cluster with
        scheduler := { cluster.scheduler with pendingReset := true }
        resets := cluster.resets + 1 }
  | .restart => some { cluster with scheduler := .fresh }
  | .write rank job item payload complete =>
      (cluster.jobs[job]?).bind fun issued =>
        (writeCall group issued item payload).map fun call =>
          cluster.putSlot rank call.group call.slot
            ((cluster.slots rank call.group call.slot).put (written issued call complete))
  | .sync rank g => some { cluster with slots := fun r h slot =>
      if r = rank ∧ h = g then (cluster.slots r h slot).sync else cluster.slots r h slot }
  | .powerLoss rank choice => some { cluster with slots := fun r h slot =>
      if r = rank then (cluster.slots r h slot).powerLoss (choice h slot) else cluster.slots r h slot }

/-- The scheduler does not restart while a reset still waits for the slabs. -/
def Settled (cluster : Cluster groups ranks) : ClusterAction groups ranks → Prop
  | .restart => cluster.scheduler.pendingReset = false
  | _ => True

/-- The slot of a rank's slabs holds the block, or no valid header at all. -/
def Shows (io : SlabIo groups) (disk : Disk groups) (g : Fin groups) (slot : Nat)
    (content : Option (StoredBlock groups)) : Prop :=
  match content with
  | none => io.view disk g slot = none
  | some block => block.call.group = g ∧ block.call.slot = slot ∧
      ∃ sealed, block.call.Shown (io.slotBytes g) (disk g) sealed

/-- A read for a load, on any rank and through any slabs that show what the slot holds, raises or
returns a block whose store was issued after every reset that returned before the load. -/
def NothingUndone (cluster : Cluster groups ranks) : Prop :=
  ∀ load ∈ cluster.jobs, load.store = false → ∀ (item : Nat) key (slot : Nat),
    load.spec.keys[item]? = some key → load.spec.slots[item]? = some (slot : Int) →
    ∀ rank (io : SlabIo groups) disk, Shows io disk (group key) slot (cluster.slots rank (group key) slot).visible →
    ∀ views replies result,
      io.read (fun key => some (group key)) disk key slot views (some load.spec.epoch) replies = some result →
        ∃ block, (cluster.slots rank (group key) slot).visible = some block ∧
          result.flatten = block.call.payload ∧ load.era ≤ block.era

variable {group}

/-- The epoch that the next store or load goes out under, once the epoch file says `published`. -/
def horizon (cluster : Cluster groups ranks) (published : Int) : Int :=
  if cluster.scheduler.pendingReset then published + 1 else published

/-- Epochs follow resets: jobs issued before a reset lie below everything that comes after it, and
every block carries the epoch of its store. -/
structure Ordered (cluster : Cluster groups ranks) : Prop where
  calm : cluster.scheduler.attached = true → cluster.scheduler.pendingReset = false
  epoch : cluster.scheduler.attached = true →
    cluster.published = some cluster.scheduler.manager.epoch
  past : ∀ job ∈ cluster.jobs, job.Live → job.era ≤ cluster.resets ∧
    ∃ published, cluster.published = some published ∧ job.spec.epoch ≤ published ∧
      (job.era < cluster.resets → job.spec.epoch < cluster.horizon published)
  order : ∀ first ∈ cluster.jobs, ∀ later ∈ cluster.jobs, first.Live → later.Live →
    first.era < later.era → first.spec.epoch < later.spec.epoch
  stored : ∀ rank g slot block, (cluster.slots rank g slot).MayHold block →
    ∃ job ∈ cluster.jobs, job.Live ∧ job.era = block.era ∧ job.spec.epoch = block.call.epoch

theorem initial_ordered : (initial : Cluster groups ranks).Ordered where
  calm := fun _ => rfl
  epoch := fun attached => absurd attached Bool.false_ne_true
  past := fun _ issued => absurd issued List.not_mem_nil
  order := fun _ issued => absurd issued List.not_mem_nil
  stored := by
    intro rank g slot block held
    rcases held with held | held | held
    · cases held
    · cases held
    · cases held

variable {cluster : Cluster groups ranks}

/-- A call on the manager that keeps its epoch keeps the order. -/
theorem Ordered.withManager (ordered : cluster.Ordered)
    (manager : SlabOffloadingManager (List UInt8) groups)
    (same : manager.epoch = cluster.scheduler.manager.epoch) :
    ({ cluster with scheduler := { cluster.scheduler with manager := manager } } :
      Cluster groups ranks).Ordered where
  calm := ordered.calm
  epoch := fun attached => (ordered.epoch attached).trans (congrArg some same.symm)
  past := ordered.past
  order := ordered.order
  stored := ordered.stored

theorem Ordered.whenAttached (ordered : cluster.Ordered)
    {call : SlabOffloadingManager (List UInt8) groups → SlabOffloadingManager (List UInt8) groups}
    (same : ∀ manager, (call manager).epoch = manager.epoch) :
    ({ cluster with scheduler := cluster.scheduler.whenAttached call } :
      Cluster groups ranks).Ordered := by
  unfold Scheduler.whenAttached
  split
  · exact ordered.withManager _ (same _)
  · exact ordered

/-- A job that goes out under the current epoch keeps the order. -/
theorem Ordered.withJob (ordered : cluster.Ordered) {job : Job} (era : job.era = cluster.resets)
    (current : job.Live →
      cluster.scheduler.attached = true ∧ job.spec.epoch = cluster.scheduler.manager.epoch) :
    ({ cluster with jobs := job :: cluster.jobs } : Cluster groups ranks).Ordered where
  calm := ordered.calm
  epoch := ordered.epoch
  past := by
    intro other issued live
    rcases List.mem_cons.mp issued with rfl | earlier
    · obtain ⟨attached, same⟩ := current live
      exact ⟨era.le, _, ordered.epoch attached, same.le, fun before => absurd era before.ne⟩
    · exact ordered.past other earlier live
  order := by
    intro first firstIssued later laterIssued firstLive laterLive before
    rcases List.mem_cons.mp firstIssued with rfl | firstEarlier
    · rcases List.mem_cons.mp laterIssued with rfl | laterEarlier
      · exact absurd before (lt_irrefl _)
      · have bounded := (ordered.past later laterEarlier laterLive).1
        omega
    · rcases List.mem_cons.mp laterIssued with rfl | laterEarlier
      · obtain ⟨attached, same⟩ := current laterLive
        obtain ⟨-, published, known, -, below⟩ := ordered.past first firstEarlier firstLive
        have reached := below (by omega)
        rw [ordered.epoch attached] at known
        cases known
        rw [horizon, ordered.calm attached] at reached
        rw [same]
        exact reached
      · exact ordered.order first firstEarlier later laterEarlier firstLive laterLive before
  stored := by
    intro rank g slot block held
    obtain ⟨other, issued, rest⟩ := ordered.stored rank g slot block held
    exact ⟨other, List.mem_cons_of_mem _ issued, rest⟩

/-- Slots that hold only blocks of issued stores keep the order. -/
theorem Ordered.withSlots (ordered : cluster.Ordered)
    {slots : Fin (ranks + 1) → Fin groups → Nat → SlotState groups}
    (held : ∀ rank g slot block, (slots rank g slot).MayHold block →
      (cluster.slots rank g slot).MayHold block ∨
      ∃ job ∈ cluster.jobs, job.Live ∧ job.era = block.era ∧ job.spec.epoch = block.call.epoch) :
    ({ cluster with slots := slots } : Cluster groups ranks).Ordered where
  calm := ordered.calm
  epoch := ordered.epoch
  past := ordered.past
  order := ordered.order
  stored := by
    intro rank g slot block now
    rcases held rank g slot block now with before | issued
    · exact ordered.stored rank g slot block before
    · exact issued

end Cluster

theorem SlotState.put_mayHold {slot : SlotState groups} {block : Option (StoredBlock groups)}
    {other : StoredBlock groups} (held : (slot.put block).MayHold other) :
    slot.MayHold other ∨ block = some other := by
  rcases held with visible | durable | unsynced
  · exact .inr visible
  · exact .inl (.inr (.inl durable))
  · rcases List.mem_cons.mp unsynced with new | old
    · exact .inr new.symm
    · exact .inl (.inr (.inr old))

theorem SlotState.sync_mayHold {slot : SlotState groups} {other : StoredBlock groups}
    (held : slot.sync.MayHold other) : slot.MayHold other := by
  rcases held with visible | durable | unsynced
  · exact .inl visible
  · exact .inl durable
  · exact absurd unsynced List.not_mem_nil

theorem SlotState.powerLoss_mayHold {slot : SlotState groups} {choice : Option Nat}
    {other : StoredBlock groups} (held : (slot.powerLoss choice).MayHold other) :
    slot.MayHold other := by
  have left : (choice.bind fun index => slot.unsynced[index]?).getD slot.durable = some other := by
    rcases held with visible | durable | unsynced
    · exact visible
    · exact durable
    · exact absurd unsynced List.not_mem_nil
  cases kept : choice.bind fun index => slot.unsynced[index]? with
  | none =>
      rw [kept] at left
      exact .inr (.inl left)
  | some block =>
      rw [kept] at left
      obtain ⟨index, -, found⟩ := Option.bind_eq_some_iff.mp kept
      exact .inr (.inr (left ▸ List.mem_of_getElem? found))

namespace Cluster

variable {cluster : Cluster groups ranks}

/-- The epoch of an attached scheduler is the one that the jobs before it lie below. -/
theorem attach_epoch (counts : Fin groups → Nat) (rebuild : Bool) {published : Int}
    (known : cluster.published = some published) :
    (cluster.scheduler.attach counts cluster.view cluster.published rebuild).manager.epoch =
      cluster.horizon published := by
  rw [known]
  rfl

theorem step_ordered {group : List UInt8 → Fin groups} (cluster : Cluster groups ranks)
    (action : ClusterAction groups ranks) (next : Cluster groups ranks) (ordered : cluster.Ordered)
    (settled : cluster.Settled action) (taken : step group cluster action = some next) :
    next.Ordered := by
  cases action with
  | attach counts rebuild =>
      simp only [step] at taken
      split at taken
      · cases taken
      · cases taken
        refine ⟨fun _ => rfl, fun _ => rfl, ?_, ordered.order, ordered.stored⟩
        intro job issued live
        obtain ⟨bounded, published, known, below, before⟩ := ordered.past job issued live
        have epoch := attach_epoch counts rebuild known
        refine ⟨bounded, _, rfl, ?_, ?_⟩
        · rw [epoch]
          unfold horizon
          split <;> omega
        · intro earlier
          change job.spec.epoch <
            (cluster.scheduler.attach counts cluster.view cluster.published rebuild).manager.epoch
          rw [epoch]
          exact before earlier
  | lookup key =>
      cases taken
      refine ordered.whenAttached fun manager => ?_
      unfold lookup
      split
      · rfl
      · split <;> rfl
  | touch keys =>
      cases taken
      exact ordered.whenAttached fun _ => rfl
  | prepareStore keys =>
      simp only [step] at taken
      split at taken
      case isTrue attached =>
        rcases prepareStore_cases group cluster.scheduler.manager keys with
          same | ⟨placed, evicted, middle, siblings, stats, walked, same⟩
        · rw [same] at taken
          cases taken
          exact ordered
        · rw [same] at taken
          cases taken
          have kept := (takeSlots_frame _ walked).1.epoch
          have moved := ordered.withManager
            { middle.placeAll placed with siblings := siblings, seq := middle.seq + 1, stats := stats } kept
          exact moved.withJob rfl fun _ => ⟨attached, kept.symm⟩
      case isFalse => exact Option.some.inj taken ▸ ordered
  | markStoreFailed keys =>
      cases taken
      exact ordered.withManager _ rfl
  | completeStore keys success =>
      cases taken
      refine ordered.whenAttached fun manager => foldl_keeps SlabOffloadingManager.epoch ?_ keys manager
      intro state key
      dsimp only [completeStoreKey]
      split
      · rfl
      · split <;> rfl
  | prepareLoad keys =>
      cases taken
      have each : ∀ (manager : SlabOffloadingManager (List UInt8) groups) key,
          (manager.addReader key).epoch = manager.epoch := fun _ _ => rfl
      have kept : (cluster.scheduler.manager.prepareLoad group keys).2.epoch =
          cluster.scheduler.manager.epoch := foldl_keeps SlabOffloadingManager.epoch each keys _
      refine (ordered.withManager _ kept).withJob rfl ?_
      rintro ⟨slot, named⟩
      change (slot : Int) ∈ (cluster.scheduler.loadSpec group keys).slots at named
      unfold Scheduler.loadSpec at named ⊢
      split at named
      case isTrue attached =>
        refine ⟨attached, ?_⟩
        dsimp only
        rw [if_pos attached, kept]
        rfl
      case isFalse =>
        obtain ⟨key, -, same⟩ := List.mem_map.mp named
        omega
  | completeLoad keys =>
      cases taken
      refine ordered.whenAttached fun manager => foldl_keeps SlabOffloadingManager.epoch ?_ keys manager
      intro state key
      dsimp only [completeLoadKey]
      repeat' split
      all_goals rfl
  | markLoadFailed keys =>
      cases taken
      refine ordered.whenAttached fun manager => foldl_keeps SlabOffloadingManager.epoch ?_ keys manager
      intro state key
      dsimp only [markLoadFailedKey]
      split
      · rfl
      · split <;> rfl
  | resetCache =>
      simp only [step] at taken
      split at taken
      case isTrue attached =>
        cases taken
        refine ⟨ordered.calm, fun _ => rfl, ?_, ordered.order, ordered.stored⟩
        intro job issued live
        obtain ⟨bounded, published, known, below, -⟩ := ordered.past job issued live
        rw [ordered.epoch attached] at known
        cases known
        refine ⟨by dsimp only; omega, _, rfl, ?_, fun _ => ?_⟩
        · change job.spec.epoch ≤ cluster.scheduler.manager.epoch + 1
          omega
        · simp only [horizon, ordered.calm attached]
          change job.spec.epoch < cluster.scheduler.manager.epoch + 1
          omega
      case isFalse detached =>
        cases taken
        refine ⟨fun attached => absurd attached detached, ordered.epoch, ?_, ordered.order,
          ordered.stored⟩
        intro job issued live
        obtain ⟨bounded, published, known, below, -⟩ := ordered.past job issued live
        refine ⟨by dsimp only; omega, published, known, below, fun _ => ?_⟩
        simp only [horizon, if_true]
        omega
  | restart =>
      cases taken
      refine ⟨(fun attached => absurd attached Bool.false_ne_true), (fun attached => absurd attached Bool.false_ne_true), ?_,
        ordered.order, ordered.stored⟩
      intro job issued live
      obtain ⟨bounded, published, known, below, before⟩ := ordered.past job issued live
      refine ⟨bounded, published, known, below, fun earlier => ?_⟩
      have reached := before earlier
      have calm : cluster.scheduler.pendingReset = false := settled
      rw [horizon, calm] at reached
      exact reached
  | write rank job item payload complete =>
      obtain ⟨issued, found, rest⟩ := Option.bind_eq_some_iff.mp taken
      obtain ⟨call, made, rfl⟩ := Option.map_eq_some_iff.mp rest
      refine ordered.withSlots ?_
      intro r g slot block held
      split at held
      case isTrue here =>
        obtain ⟨rfl, rfl, rfl⟩ := here
        rcases SlotState.put_mayHold held with before | new
        · exact .inl before
        · right
          unfold written at new
          split at new
          case isTrue =>
            cases new
            obtain ⟨key, -, located⟩ := Option.bind_eq_some_iff.mp made
            obtain ⟨slot, named, packed⟩ := Option.bind_eq_some_iff.mp located
            split at packed
            case isTrue real =>
              cases packed
              refine ⟨issued, List.mem_of_getElem? found, ⟨slot.toNat, ?_⟩, rfl, rfl⟩
              rw [Int.toNat_of_nonneg real.2]
              exact List.mem_of_getElem? named
            case isFalse => cases packed
          case isFalse => cases new
      case isFalse => exact .inl held
  | sync rank g =>
      cases taken
      refine ordered.withSlots ?_
      intro r h slot block held
      split at held
      · exact .inl (SlotState.sync_mayHold held)
      · exact .inl held
  | powerLoss rank choice =>
      cases taken
      refine ordered.withSlots ?_
      intro r h slot block held
      split at held
      · exact .inl (SlotState.powerLoss_mayHold held)
      · exact .inl held

/-- Where epochs follow resets, no load gets a block from before a reset that it follows. -/
theorem Ordered.nothingUndone {group : List UInt8 → Fin groups} (ordered : cluster.Ordered) :
    cluster.NothingUndone group := by
  intro load issued _ item key slot named placed rank io disk shows views replies result returned
  cases content : (cluster.slots rank (group key) slot).visible with
  | none =>
      rw [content] at shows
      obtain ⟨g, header, located, served⟩ := SlabIo.read_eq_some returned
      cases located
      have parsed := served.parsed
      change parseHeader _ = none at shows
      rw [shows] at parsed
      cases parsed
  | some block =>
      rw [content] at shows
      obtain ⟨owner, place, sealed, shown⟩ := shows
      subst place
      rw [← owner] at shown
      obtain ⟨-, epoch, payload⟩ := SlabIo.read_shown (fun key => some (group key)) shown
        (congrArg some owner.symm) returned
      refine ⟨block, rfl, payload, ?_⟩
      obtain ⟨store, storeIssued, storeLive, era, storeEpoch⟩ :=
        ordered.stored rank _ _ block (.inl content)
      by_contra earlier
      have live : load.Live := ⟨_, List.mem_of_getElem? placed⟩
      have below := ordered.order store storeIssued load issued storeLive live (by omega)
      omega

/-- In every run in which the scheduler does not restart with a reset still pending, no load gets a
block from before a reset that returned before the load. Without a usable epoch file the manager
starts above every valid header of rank 0 and indexes nothing. -/
theorem reset_never_undone (group : List UInt8 → Fin groups)
    (actions : List (ClusterAction groups ranks)) (cluster : Cluster groups ranks)
    (settled : Run.Meets (step group) Settled initial actions)
    (reached : Run.run (step group) initial actions = some cluster) :
    cluster.NothingUndone group ∧
      ∀ (io : SlabIo groups) (disk : Disk groups) (pendingReset rebuild : Bool),
        (∀ g slot header, slot < io.slotCounts g → io.view disk g slot = some header →
          (header.epoch : Int) < (attachDisk io disk none pendingReset rebuild).epoch) ∧
        ∀ g, (attachDisk io disk none pendingReset rebuild).index g = .empty := by
  constructor
  · exact (Run.run_invariant_of_meets step_ordered initial_ordered settled reached).nothingUndone
  · intro io disk pendingReset rebuild
    rw [attachDisk_eq_attachView]
    exact ⟨fun g slot header inside found => attachView_above _ _ inside found, attachView_index⟩

/-- A block is stored, and a reset is asked for before the next scheduler attaches. -/
def storedThenReset : List (ClusterAction 1 0) :=
  [.attach (fun _ => 2) true, .prepareStore [Rank.someKey], .write (Fin.last 0) 0 0 [9] true,
    .sync (Fin.last 0) (Fin.last 0),
    .completeStore [Rank.someKey] true, .restart, .resetCache]

def loadedAgain : List (ClusterAction 1 0) :=
  [.attach (fun _ => 2) true, .prepareLoad [Rank.someKey]]

/-- The slabs of the one rank after the write. -/
def storedIo : SlabIo 1 := ⟨fun _ => 4096, fun _ => 2, 0⟩

def storedDisk : Disk 1 :=
  (storedIo.write (fun _ => some (Fin.last 0)) (fun _ => Medium.empty) Rank.someKey 0 [[9]] 1 (some 0)
    [128, 1, 128]).1

theorem storedDisk_shown :
    Shows storedIo storedDisk 0 0
      (some ⟨⟨0, 0, Rank.someKey, [9], 1, 0⟩, 0⟩) := by
  have done : (storedIo.write (fun _ => some (Fin.last 0)) (fun _ => Medium.empty) Rank.someKey 0 [[9]] 1 (some 0)
      [128, 1, 128]).2 = true := by decide +kernel
  obtain ⟨call, sealed, made, shown⟩ := SlabIo.write_shown done
  obtain ⟨g, grouped, -, -, rfl⟩ := Rank.callOf_eq_some.mp made
  cases grouped
  exact ⟨rfl, rfl, sealed, shown⟩

set_option maxRecDepth 100000 in
/-- A restart before the slabs are attached loses the reset: the old block is served again. -/
theorem reset_undone_restart :
    ∃ cluster, Run.run (step fun _ => 0) initial (storedThenReset ++ .restart :: loadedAgain) =
      some cluster ∧ ¬cluster.NothingUndone fun _ => 0 := by
  refine ⟨_, rfl, ?_⟩
  intro nothing
  obtain ⟨block, found, -, since⟩ := nothing ⟨false, ⟨[Rank.someKey], [0], 0, 1⟩, 1⟩
    List.mem_cons_self rfl 0 Rank.someKey 0 rfl rfl 0 storedIo storedDisk storedDisk_shown [[0]]
    [128, 1] [[9]] (by decide +kernel)
  cases found
  exact absurd since (by decide)

theorem reset_never_undone_attached :
    ∃ cluster, Run.run (step fun _ => 0) initial (storedThenReset ++ loadedAgain) = some cluster ∧
      cluster.NothingUndone (fun _ => 0) := by
  refine ⟨_, rfl, (reset_never_undone (fun _ => 0) (storedThenReset ++ loadedAgain) _ ?_ rfl).1⟩
  iterate 9 refine .cons (by trivial) rfl ?_
  trivial

end Cluster

end DgxSpark.Slab
