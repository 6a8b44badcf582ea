import DgxSpark.Library.Cell
import DgxSpark.Slab.Capacity
import DgxSpark.Slab.Rebuild

/-
This file chains runs of the scheduler and of rank 0 within one epoch: processes attach, store and
write, die at any moment and attach again, and a power loss may take back what was not synced.
-/

namespace DgxSpark.Slab

open SlabOffloadingManager Crc32

variable {groups : Nat}

/-- A valid header in a slot, with the number of the `prepare_store` call that it was written for. -/
structure StoredHeader where
  header : Header
  call : Nat

/-- Rank 0 over a chain of processes. `jobs` are the numbered stores of the last attached process;
`found` is what its attach found, and `first` the number of calls before it. -/
structure Chain (groups : Nat) where
  counts : Fin groups → Nat
  slots : Fin groups → Nat → Cell StoredHeader
  desk : Option (Desk (List UInt8) groups)
  jobs : List (Nat × SlabLoadStoreSpec (List UInt8))
  issued : Nat
  found : Fin groups → Nat → Option StoredHeader
  first : Nat

/-- A crash ends the process and leaves the page cache; a power loss takes that, too. A start under
another geometry wipes the slabs. -/
inductive ChainAction (groups : Nat) where
  | attach
  | call (call : Call (List UInt8))
  | write (job item : Nat) (payload : List UInt8) (complete : Bool)
  | sync (group : Fin groups)
  | crash
  | powerLoss (choice : Fin groups → Nat → Option Nat)
  | wipe (counts : Fin groups → Nat)

namespace Chain

variable (group : List UInt8 → Fin groups) (epoch : Int)

def initial (counts : Fin groups → Nat) : Chain groups where
  counts := counts
  slots := fun _ _ => .blank
  desk := none
  jobs := []
  issued := 0
  found := fun _ _ => none
  first := 0

/-- The valid headers on rank 0. -/
def view (chain : Chain groups) (g : Fin groups) (slot : Nat) : Option Header :=
  (chain.slots g slot).visible.map StoredHeader.header

/-- The header in a slot that an attach under the epoch takes. -/
def current (chain : Chain groups) (g : Fin groups) (slot : Nat) : Option StoredHeader :=
  if slot < chain.counts g then
    (chain.slots g slot).visible.filter fun stored =>
      decide (stored.header.group = g ∧ (stored.header.epoch : Int) = epoch)
  else none

/-- The manager that an attach makes, with the epoch as the epoch file has it. -/
def rebuilt (chain : Chain groups) : SlabOffloadingManager (List UInt8) groups :=
  .attachView chain.counts chain.view (some epoch) false true

/-- The store that a call sends to the worker. -/
def storeOf (desk : Desk (List UInt8) groups) :
    Call (List UInt8) → Option (SlabLoadStoreSpec (List UInt8))
  | .prepareStore keys =>
      match (desk.manager.prepareStore group keys).1 with
      | .store output => some output.storeSpec
      | _ => none
  | _ => none

/-- What the worker leaves in a slot: the header is blank until the seal is written in full. -/
def written (cell : Cell StoredHeader) (stored : Option StoredHeader) (complete : Bool) :
    Cell StoredHeader :=
  match stored, complete with
  | some stored, true => (cell.put none).put (some stored)
  | _, _ => cell.put none

/-- The block that one item of a job seals, and its slot. -/
def sealing (job : Nat × SlabLoadStoreSpec (List UInt8)) (item : Nat) (payload : List UInt8) :
    Option (Fin groups × Nat × Option StoredHeader) :=
  (job.2.keys[item]?).bind fun key =>
    (job.2.slots[item]?).bind fun slot =>
      if 0 ≤ slot then
        some (group key, slot.toNat,
          (sealedHeader (group key) key payload.length job.2.seq job.2.epoch (crc32 payload).toNat).map
            fun header => ⟨header, job.1⟩)
      else none

def step (chain : Chain groups) : ChainAction groups → Option (Chain groups)
  | .attach =>
      if chain.desk.isSome then none
      else some { chain with
        desk := some ⟨chain.rebuilt epoch, [], []⟩
        jobs := []
        found := chain.current epoch
        first := chain.issued }
  | .call .resetCache => none
  | .call call =>
      chain.desk.bind fun desk => (desk.step group call).map fun next =>
        match storeOf group desk call with
        | none => { chain with desk := some next }
        | some spec => { chain with
            desk := some next
            jobs := (chain.issued, spec) :: chain.jobs
            issued := chain.issued + 1 }
  | .write job item payload complete =>
      if chain.desk.isSome then
        (chain.jobs[job]?).bind fun issued => (sealing group issued item payload).map fun target =>
          { chain with slots := fun g slot =>
              if g = target.1 ∧ slot = target.2.1 then written (chain.slots g slot) target.2.2 complete
              else chain.slots g slot }
      else none
  | .sync g => some { chain with slots := fun h slot =>
      if h = g then (chain.slots h slot).sync else chain.slots h slot }
  | .crash => some { chain with desk := none }
  | .powerLoss choice => some { chain with
      desk := none
      slots := fun g slot => (chain.slots g slot).powerLoss (choice g slot) }
  | .wipe counts =>
      if chain.desk.isSome then none
      else some { chain with counts := counts, slots := fun _ _ => .blank }

/-- A power loss brings back no header that the last attach did not find, unless the last process
wrote it. -/
def NothingRevived (chain : Chain groups) : ChainAction groups → Prop
  | .powerLoss choice => ∀ g slot stored,
      ({ chain with slots := fun g slot => (chain.slots g slot).powerLoss (choice g slot) } :
        Chain groups).current epoch g slot = some stored →
      chain.found g slot = some stored ∨ chain.first ≤ stored.call
  | _ => True

/-- A rebuild points every key to the slot of the latest `prepare_store` call among the slots that
hold a valid header for it. -/
def PicksLatest (chain : Chain groups) : Prop :=
  ∀ g slot stored, chain.current epoch g slot = some stored →
    ∃ latest best, ((chain.rebuilt epoch).index g).get? stored.header.key = some latest ∧
      chain.current epoch g latest = some best ∧ best.header.key = stored.header.key ∧
      (slot ≠ latest → stored.call < best.call)

/-- The last process may have put the block there for one of its jobs. -/
def FromJob (chain : Chain groups) (g : Fin groups) (slot : Nat) (stored : StoredHeader) : Prop :=
  ∃ job ∈ chain.jobs, ∃ item : Nat, job.2.keys[item]? = some stored.header.key ∧
    job.2.slots[item]? = some (slot : Int) ∧ group stored.header.key = g ∧
    stored.call = job.1 ∧ stored.header.seq = job.2.seq

/-- The last attach found the block, or it is of the last process. -/
def Known (chain : Chain groups) (g : Fin groups) (slot : Nat) (stored : StoredHeader) : Prop :=
  chain.found g slot = some stored ∨ chain.FromJob group g slot stored

/-- Among the blocks that the last attach found and those of the stores since, sequence numbers grow
with the calls, and nothing else can be visible. -/
structure Recent (chain : Chain groups) : Prop where
  start : chain.first ≤ chain.issued
  foundCalls : ∀ g slot stored, chain.found g slot = some stored → stored.call < chain.first
  foundOrder : ∀ g slot stored h other later, chain.found g slot = some stored →
    chain.found h other = some later → stored.call < later.call → stored.header.seq < later.header.seq
  foundOnce : ∀ g slot stored other later, chain.found g slot = some stored →
    chain.found g other = some later → stored.call = later.call →
    stored.header.key = later.header.key → slot = other
  jobCalls : ∀ job ∈ chain.jobs, chain.first ≤ job.1 ∧ job.1 < chain.issued ∧ job.2.keys.Nodup
  jobAbove : ∀ job ∈ chain.jobs, ∀ g slot stored, chain.found g slot = some stored →
    stored.header.seq < job.2.seq
  jobOrder : ∀ job ∈ chain.jobs, ∀ later ∈ chain.jobs, job.1 < later.1 → job.2.seq < later.2.seq
  jobOnce : ∀ job ∈ chain.jobs, ∀ other ∈ chain.jobs, job.1 = other.1 → job = other
  held : ∀ g slot stored, (chain.slots g slot).MayHold stored →
    stored.call < chain.issued ∧ (chain.first ≤ stored.call → chain.FromJob group g slot stored)
  visible : ∀ g slot stored, chain.current epoch g slot = some stored →
    chain.Known group g slot stored
  counter : ∀ desk, chain.desk = some desk →
    (∀ g slot stored, chain.found g slot = some stored → stored.header.seq ≤ desk.manager.seq) ∧
      ∀ job ∈ chain.jobs, job.2.seq ≤ desk.manager.seq

variable {group epoch} {chain : Chain groups}

theorem Recent.known_call (recent : chain.Recent group epoch) {g : Fin groups} {slot : Nat}
    {stored : StoredHeader} (known : chain.Known group g slot stored) : stored.call < chain.issued := by
  rcases known with found | ⟨job, issued, -, -, -, -, same, -⟩
  · exact (recent.foundCalls g slot stored found).trans_le recent.start
  · rw [same]
    exact (recent.jobCalls job issued).2.1

theorem Recent.order (recent : chain.Recent group epoch) {g h : Fin groups} {slot other : Nat}
    {stored later : StoredHeader} (first : chain.Known group g slot stored)
    (second : chain.Known group h other later) (before : stored.call < later.call) :
    stored.header.seq < later.header.seq := by
  rcases first with found | ⟨job, issued, -, -, -, -, call, seq⟩
  · rcases second with alsoFound | ⟨newer, newerIssued, -, -, -, -, -, newerSeq⟩
    · exact recent.foundOrder g slot stored h other later found alsoFound before
    · rw [newerSeq]
      exact recent.jobAbove newer newerIssued g slot stored found
  · have behind := (recent.jobCalls job issued).1
    rcases second with found | ⟨newer, newerIssued, -, -, -, -, newerCall, newerSeq⟩
    · have ahead := recent.foundCalls h other later found
      omega
    · rw [seq, newerSeq]
      exact recent.jobOrder job issued newer newerIssued (by omega)

theorem Recent.once (recent : chain.Recent group epoch) {g : Fin groups} {slot other : Nat}
    {stored later : StoredHeader} (first : chain.Known group g slot stored)
    (second : chain.Known group g other later) (call : stored.call = later.call)
    (key : stored.header.key = later.header.key) : slot = other := by
  rcases first with found | ⟨job, issued, item, named, placed, -, jobCall, -⟩
  · rcases second with alsoFound | ⟨newer, newerIssued, -, -, -, -, newerCall, -⟩
    · exact recent.foundOnce g slot stored other later found alsoFound call key
    · have ahead := recent.foundCalls g slot stored found
      have behind := (recent.jobCalls newer newerIssued).1
      omega
  · rcases second with found | ⟨newer, newerIssued, newerItem, newerNamed, newerPlaced, -, newerCall, -⟩
    · have ahead := recent.foundCalls g other later found
      have behind := (recent.jobCalls job issued).1
      omega
    · have same := recent.jobOnce job issued newer newerIssued (by omega)
      subst same
      rw [← key, ← named] at newerNamed
      have inside := (List.getElem?_eq_some_iff.mp named).1
      have sameItem := (List.getElem?_inj inside (recent.jobCalls job issued).2.2).mp newerNamed.symm
      rw [sameItem, newerPlaced] at placed
      exact_mod_cast (Option.some.inj placed).symm

theorem initial_recent (counts : Fin groups → Nat) : (initial counts).Recent group epoch where
  start := le_refl 0
  foundCalls := fun _ _ _ found => absurd found (Option.some_ne_none _).symm
  foundOrder := fun _ _ _ _ _ _ found => absurd found (Option.some_ne_none _).symm
  foundOnce := fun _ _ _ _ _ found => absurd found (Option.some_ne_none _).symm
  jobCalls := fun _ issued => absurd issued List.not_mem_nil
  jobAbove := fun _ issued => absurd issued List.not_mem_nil
  jobOrder := fun _ issued => absurd issued List.not_mem_nil
  jobOnce := fun _ issued => absurd issued List.not_mem_nil
  held := fun _ _ _ held => absurd held Cell.not_mayHold_blank
  visible := by
    intro g slot stored here
    unfold current at here
    split at here
    · cases here
    · cases here
  counter := fun _ opened => absurd opened (Option.some_ne_none _).symm

/-- What an attach takes from a slot. -/
theorem current_eq_some {g : Fin groups} {slot : Nat} {stored : StoredHeader} :
    chain.current epoch g slot = some stored ↔
      slot < chain.counts g ∧ (chain.slots g slot).visible = some stored ∧
        stored.header.group = g ∧ (stored.header.epoch : Int) = epoch := by
  unfold current
  split
  case isTrue inside => rw [Option.filter_eq_some_iff, decide_eq_true_eq]; simp [inside]
  case isFalse outside => simp [outside]

/-- The rebuild sees exactly the current headers. -/
theorem currentEntry_view {g : Fin groups} {slot : Nat} (inside : slot < chain.counts g) :
    currentEntry chain.view epoch g slot =
      (chain.current epoch g slot).map fun stored => (stored.header.seq, stored.header.key) := by
  unfold current
  rw [if_pos inside, currentEntry, view]
  cases (chain.slots g slot).visible with
  | none => rfl
  | some stored =>
      rw [Option.map_some, Option.bind_some]
      dsimp only [Option.filter]
      by_cases same : stored.header.group = g ∧ (stored.header.epoch : Int) = epoch
      · rw [if_neg (by simp [same]), if_pos (decide_eq_true same)]
        rfl
      · rw [if_pos (not_and_or.mp same), if_neg (by rwa [decide_eq_true_eq])]
        rfl

theorem rebuilt_spec (chain : Chain groups) (epoch : Int) (g : Fin groups) :
    Rebuilt (chain.counts g) (currentEntry chain.view epoch g) ((chain.rebuilt epoch).index g)
      ((chain.rebuilt epoch).free g) (chain.rebuilt epoch).seq :=
  attach_rebuilt chain.counts epoch (fun g slot => currentEntry chain.view epoch g slot) g

/-- The rebuilt index picks the latest store whenever sequence numbers follow the calls. -/
theorem Recent.picksLatest (recent : chain.Recent group epoch) : chain.PicksLatest epoch := by
  intro g slot stored here
  have inside := (current_eq_some.mp here).1
  have spec := rebuilt_spec chain epoch g
  have entry : currentEntry chain.view epoch g slot = some (stored.header.seq, stored.header.key) := by
    rw [currentEntry_view inside, here]
    rfl
  obtain ⟨latest, indexed⟩ := spec.covers slot inside _ _ entry
  obtain ⟨within, seq, bestEntry, newest⟩ := (spec.newest _ latest).mp indexed
  rw [currentEntry_view within] at bestEntry
  obtain ⟨best, there, same⟩ := Option.map_eq_some_iff.mp bestEntry
  obtain ⟨bestSeq, bestKey⟩ := Prod.mk.inj same
  refine ⟨latest, best, indexed, there, bestKey, ?_⟩
  intro apart
  have known := recent.visible g slot stored here
  have bestKnown := recent.visible g latest best there
  have upper := newest slot inside _ entry
  rcases Nat.lt_trichotomy stored.call best.call with before | equal | after
  · exact before
  · exact absurd (recent.once known bestKnown equal bestKey.symm) apart
  · have above := recent.order bestKnown known after
    omega

/-! ### What a step keeps -/

/-- Slots that hold only what they held or what a job of the last process seals keep the order. -/
theorem Recent.withSlots (recent : chain.Recent group epoch) {counts : Fin groups → Nat}
    {desk : Option (Desk (List UInt8) groups)} {slots : Fin groups → Nat → Cell StoredHeader}
    (process : ∀ running, desk = some running → chain.desk = some running)
    (held : ∀ g slot stored, (slots g slot).MayHold stored →
      (chain.slots g slot).MayHold stored ∨ chain.FromJob group g slot stored)
    (visible : ∀ g slot stored,
      ({ chain with counts := counts, slots := slots } : Chain groups).current epoch g slot =
        some stored → chain.Known group g slot stored) :
    ({ chain with counts := counts, desk := desk, slots := slots } : Chain groups).Recent group epoch where
  start := recent.start
  foundCalls := recent.foundCalls
  foundOrder := recent.foundOrder
  foundOnce := recent.foundOnce
  jobCalls := recent.jobCalls
  jobAbove := recent.jobAbove
  jobOrder := recent.jobOrder
  jobOnce := recent.jobOnce
  held := by
    intro g slot stored now
    rcases held g slot stored now with before | job
    · exact recent.held g slot stored before
    · exact ⟨recent.known_call (.inr job), fun _ => job⟩
  visible := visible
  counter := fun running opened => recent.counter running (process running opened)

theorem mayHold_written {cell : Cell StoredHeader} {sealed : Option StoredHeader} {complete : Bool}
    {stored : StoredHeader} (held : (written cell sealed complete).MayHold stored) :
    cell.MayHold stored ∨ sealed = some stored := by
  unfold written at held
  split at held
  · rcases held.put with early | new
    · rcases early.put with before | blank
      · exact .inl before
      · cases blank
    · exact .inr new
  · rcases held.put with before | blank
    · exact .inl before
    · cases blank

theorem visible_written {cell : Cell StoredHeader} {sealed : Option StoredHeader} {complete : Bool}
    {stored : StoredHeader} (visible : (written cell sealed complete).visible = some stored) :
    sealed = some stored := by
  unfold written at visible
  split at visible
  · exact visible
  · cases visible

/-- The seal of an item carries the key, the sequence number and the call of its job. -/
theorem sealing_fromJob {job : Nat × SlabLoadStoreSpec (List UInt8)} {item : Nat} {payload : List UInt8}
    {g : Fin groups} {slot : Nat} {sealed : Option StoredHeader} {stored : StoredHeader}
    (issued : job ∈ chain.jobs) (made : sealing group job item payload = some (g, slot, sealed))
    (some : sealed = some stored) : chain.FromJob group g slot stored := by
  unfold sealing at made
  simp only [Option.bind_eq_some_iff] at made
  obtain ⟨key, named, place, placed, made⟩ := made
  split at made
  case isTrue inside =>
    cases made
    obtain ⟨header, packed, rfl⟩ := Option.map_eq_some_iff.mp some
    obtain ⟨-, -, -, -, -, ownKey, -, ownSeq, -⟩ := sealedHeader_eq_some packed
    refine ⟨job, issued, item, ?_, ?_, ?_, rfl, ?_⟩
    · rw [named, ownKey]
    · rw [placed, Int.toNat_of_nonneg inside]
    · rw [ownKey]
    · exact_mod_cast ownSeq
  case isFalse => cases made

/-- A visible block of unchanged slots is known as before. -/
theorem current_of_slot {slots : Fin groups → Nat → Cell StoredHeader} {g : Fin groups} {slot : Nat}
    {stored : StoredHeader}
    (here : ({ chain with slots := slots } : Chain groups).current epoch g slot = some stored)
    (same : (slots g slot).visible = some stored → (chain.slots g slot).visible = some stored) :
    chain.current epoch g slot = some stored := by
  obtain ⟨inside, visible, rest⟩ := current_eq_some.mp here
  exact current_eq_some.mpr ⟨inside, same visible, rest⟩

/-- A fresh process starts from what it finds. -/
theorem Recent.attached (recent : chain.Recent group epoch) :
    ({ chain with
        desk := some ⟨chain.rebuilt epoch, [], []⟩
        jobs := []
        found := chain.current epoch
        first := chain.issued } : Chain groups).Recent group epoch where
  start := le_refl _
  foundCalls := fun g slot stored found => recent.known_call (recent.visible g slot stored found)
  foundOrder := fun g slot stored h other later found alsoFound before =>
    recent.order (recent.visible g slot stored found) (recent.visible h other later alsoFound) before
  foundOnce := fun g slot stored other later found alsoFound call key =>
    recent.once (recent.visible g slot stored found) (recent.visible g other later alsoFound) call key
  jobCalls := fun _ issued => absurd issued List.not_mem_nil
  jobAbove := fun _ issued => absurd issued List.not_mem_nil
  jobOrder := fun _ issued => absurd issued List.not_mem_nil
  jobOnce := fun _ issued => absurd issued List.not_mem_nil
  held := by
    intro g slot stored held
    have bound := (recent.held g slot stored held).1
    exact ⟨bound, fun above => absurd bound (Nat.not_lt.mpr above)⟩
  visible := fun g slot stored here => .inl here
  counter := by
    intro desk opened
    cases opened
    refine ⟨?_, fun _ issued => absurd issued List.not_mem_nil⟩
    intro g slot stored found
    have here : chain.current epoch g slot = some stored := found
    have inside := (current_eq_some.mp here).1
    apply (rebuilt_spec chain epoch g).above slot inside stored.header.seq stored.header.key
    rw [currentEntry_view inside, here]
    rfl

/-- A call that issues no store moves the counter at most up. -/
theorem Recent.withDesk (recent : chain.Recent group epoch) {desk next : Desk (List UInt8) groups}
    (running : chain.desk = some desk) (grows : desk.manager.seq ≤ next.manager.seq) :
    ({ chain with desk := some next } : Chain groups).Recent group epoch where
  start := recent.start
  foundCalls := recent.foundCalls
  foundOrder := recent.foundOrder
  foundOnce := recent.foundOnce
  jobCalls := recent.jobCalls
  jobAbove := recent.jobAbove
  jobOrder := recent.jobOrder
  jobOnce := recent.jobOnce
  held := recent.held
  visible := recent.visible
  counter := by
    intro other opened
    cases opened
    obtain ⟨found, jobs⟩ := recent.counter desk running
    exact ⟨fun g slot stored here => (found g slot stored here).trans grows,
      fun job issued => (jobs job issued).trans grows⟩

/-- A store goes out under a number above everything known. -/
theorem Recent.withStore (recent : chain.Recent group epoch) {desk next : Desk (List UInt8) groups}
    {spec : SlabLoadStoreSpec (List UInt8)} (running : chain.desk = some desk)
    (number : spec.seq = desk.manager.seq + 1) (grows : next.manager.seq = desk.manager.seq + 1)
    (distinct : spec.keys.Nodup) :
    ({ chain with
        desk := some next
        jobs := (chain.issued, spec) :: chain.jobs
        issued := chain.issued + 1 } : Chain groups).Recent group epoch := by
  obtain ⟨foundBelow, jobsBelow⟩ := recent.counter desk running
  have kept : ∀ {g slot stored}, chain.FromJob group g slot stored →
      ({ chain with
          desk := some next
          jobs := (chain.issued, spec) :: chain.jobs
          issued := chain.issued + 1 } : Chain groups).FromJob group g slot stored := by
    rintro g slot stored ⟨job, issued, rest⟩
    exact ⟨job, List.mem_cons_of_mem _ issued, rest⟩
  constructor
  case start => exact recent.start.trans (Nat.le_succ _)
  case foundCalls => exact recent.foundCalls
  case foundOrder => exact recent.foundOrder
  case foundOnce => exact recent.foundOnce
  case jobCalls =>
    intro job issued
    rcases List.mem_cons.mp issued with rfl | earlier
    · exact ⟨recent.start, Nat.lt_succ_self _, distinct⟩
    · obtain ⟨above, below, nodup⟩ := recent.jobCalls job earlier
      exact ⟨above, below.trans (Nat.lt_succ_self _), nodup⟩
  case jobAbove =>
    intro job issued g slot stored found
    rcases List.mem_cons.mp issued with rfl | earlier
    · have below := foundBelow g slot stored found
      dsimp only
      omega
    · exact recent.jobAbove job earlier g slot stored found
  case jobOrder =>
    intro job issued later laterIssued before
    rcases List.mem_cons.mp issued with rfl | earlier
    · rcases List.mem_cons.mp laterIssued with rfl | laterEarlier
      · exact absurd before (lt_irrefl _)
      · have bound := (recent.jobCalls later laterEarlier).2.1
        dsimp only at before
        omega
    · rcases List.mem_cons.mp laterIssued with rfl | laterEarlier
      · have below := jobsBelow job earlier
        dsimp only
        omega
      · exact recent.jobOrder job earlier later laterEarlier before
  case jobOnce =>
    intro job issued other otherIssued same
    rcases List.mem_cons.mp issued with rfl | earlier
    · rcases List.mem_cons.mp otherIssued with rfl | otherEarlier
      · rfl
      · exact absurd same (recent.jobCalls other otherEarlier).2.1.ne'
    · rcases List.mem_cons.mp otherIssued with rfl | otherEarlier
      · exact absurd same (recent.jobCalls job earlier).2.1.ne
      · exact recent.jobOnce job earlier other otherEarlier same
  case held =>
    intro g slot stored held
    obtain ⟨bound, job⟩ := recent.held g slot stored held
    exact ⟨bound.trans (Nat.lt_succ_self _), fun above => kept (job above)⟩
  case visible =>
    intro g slot stored here
    rcases recent.visible g slot stored here with found | job
    · exact .inl found
    · exact .inr (kept job)
  case counter =>
    intro other opened
    cases opened
    constructor
    · intro g slot stored found
      have below := foundBelow g slot stored found
      omega
    · intro job issued
      rcases List.mem_cons.mp issued with rfl | earlier
      · dsimp only
        omega
      · have below := jobsBelow job earlier
        omega

/-- A store goes out under the next number with each key once. -/
theorem prepareStore_number {manager next : SlabOffloadingManager (List UInt8) groups}
    {keys : List (List UInt8)} {output : PrepareStoreOutput (List UInt8)}
    (answered : manager.prepareStore group keys = (.store output, next)) :
    output.storeSpec.seq = manager.seq + 1 ∧ next.seq = manager.seq + 1 ∧
      output.storeSpec.keys.Nodup := by
  rcases prepareStore_cases group manager keys with retry | ⟨taken, evicted, last, siblings, stats, done, same⟩
  · rw [retry] at answered
    cases answered
  · rw [same] at answered
    cases answered
    obtain ⟨frame, named⟩ := takeSlots_frame _ done
    refine ⟨rfl, congrArg (· + 1) frame.seq, ?_⟩
    dsimp only
    rw [named]
    exact (eraseDups_nodup keys).filter _

/-- The other calls leave the counter alone. -/
theorem step_seq {desk next : Desk (List UInt8) groups} {call : Call (List UInt8)}
    (taken : desk.step group call = some next) (nothing : storeOf group desk call = none) :
    next.manager.seq = desk.manager.seq := by
  cases Desk.step_cases taken with
  | lookup key =>
      dsimp only [lookup]
      split
      · rfl
      · split
        · rfl
        · rfl
  | touch keys => rfl
  | storeRetry keys same => rfl
  | store keys output next same =>
      simp only [storeOf, same] at nothing
      cases nothing
  | completeStore job keys success named opened names =>
      refine foldl_keeps (fun manager => manager.seq) ?_ keys desk.manager
      intro manager key
      dsimp only [completeStoreKey]
      split
      · rfl
      · split
        · rfl
        · rfl
  | load keys =>
      have kept (manager : SlabOffloadingManager (List UInt8) groups) (key : List UInt8) :
          (manager.addReader key).seq = manager.seq := rfl
      exact foldl_keeps (fun manager => manager.seq) kept keys desk.manager
  | completeLoad job keys named opened names =>
      refine foldl_keeps (fun manager => manager.seq) ?_ keys desk.manager
      intro manager key
      dsimp only [completeLoadKey]
      split
      · split
        · rfl
        · rfl
      · rfl
  | markStoreFailed job keys => rfl
  | markLoadFailed job keys named opened names =>
      refine foldl_keeps (fun manager => manager.seq) ?_ keys desk.manager
      intro manager key
      dsimp only [markLoadFailedKey]
      split
      · rfl
      · split
        · rfl
        · rfl
  | resetCache => rfl

/-- A call of the running process keeps the order. -/
theorem Recent.called (recent : chain.Recent group epoch) {desk next : Desk (List UInt8) groups}
    {call : Call (List UInt8)} (running : chain.desk = some desk)
    (taken : desk.step group call = some next) :
    (match storeOf group desk call with
      | none => { chain with desk := some next }
      | some spec => { chain with
          desk := some next
          jobs := (chain.issued, spec) :: chain.jobs
          issued := chain.issued + 1 } : Chain groups).Recent group epoch := by
  cases sent : storeOf group desk call with
  | none => exact recent.withDesk running (step_seq taken sent).ge
  | some spec =>
      cases Desk.step_cases taken with
      | store keys output manager same =>
          simp only [storeOf, same, Option.some.injEq] at sent
          subst sent
          obtain ⟨number, grows, distinct⟩ := prepareStore_number same
          exact recent.withStore running number grows distinct
      | storeRetry keys same =>
          simp only [storeOf, same] at sent
          cases sent
      | _ => cases sent

theorem step_recent (chain : Chain groups) (action : ChainAction groups) (next : Chain groups)
    (recent : chain.Recent group epoch) (condition : chain.NothingRevived epoch action)
    (taken : step group epoch chain action = some next) : next.Recent group epoch := by
  cases action with
  | attach =>
      simp only [step] at taken
      split at taken
      · cases taken
      · cases taken
        exact recent.attached
  | call call =>
      have goes : (chain.desk.bind fun desk => (desk.step group call).map fun next =>
          match storeOf group desk call with
          | none => { chain with desk := some next }
          | some spec => { chain with
              desk := some next
              jobs := (chain.issued, spec) :: chain.jobs
              issued := chain.issued + 1 }) = some next := by
        cases call with
        | resetCache => cases taken
        | _ => exact taken
      obtain ⟨desk, running, rest⟩ := Option.bind_eq_some_iff.mp goes
      obtain ⟨last, done, rfl⟩ := Option.map_eq_some_iff.mp rest
      exact recent.called running done
  | write job item payload complete =>
      simp only [step] at taken
      split at taken
      case isFalse => cases taken
      case isTrue =>
        obtain ⟨issued, named, rest⟩ := Option.bind_eq_some_iff.mp taken
        obtain ⟨⟨g, slot, sealed⟩, made, rfl⟩ := Option.map_eq_some_iff.mp rest
        have source := List.mem_of_getElem? named
        refine recent.withSlots (fun _ running => running) ?_ ?_
        · intro h other stored held
          dsimp only at held
          split at held
          case isTrue here =>
            obtain ⟨rfl, rfl⟩ := here
            rcases mayHold_written held with before | new
            · exact .inl before
            · exact .inr (sealing_fromJob source made new)
          case isFalse => exact .inl held
        · intro h other stored here
          obtain ⟨inside, visible, rest⟩ := current_eq_some.mp here
          dsimp only at visible
          split at visible
          case isTrue place =>
            obtain ⟨rfl, rfl⟩ := place
            exact .inr (sealing_fromJob source made (visible_written visible))
          case isFalse => exact recent.visible h other stored (current_eq_some.mpr ⟨inside, visible, rest⟩)
  | sync g =>
      cases taken
      refine recent.withSlots (fun _ running => running) ?_ ?_
      · intro h slot stored held
        split at held
        · exact .inl held.sync
        · exact .inl held
      · intro h slot stored here
        refine recent.visible h slot stored (current_of_slot here ?_)
        intro visible
        split at visible
        · exact visible
        · exact visible
  | crash =>
      cases taken
      exact recent.withSlots (fun _ running => absurd running (Option.some_ne_none _).symm)
        (fun _ _ _ held => .inl held) recent.visible
  | powerLoss choice =>
      cases taken
      refine recent.withSlots (fun _ running => absurd running (Option.some_ne_none _).symm)
        (fun _ _ _ held => .inl held.powerLoss) ?_
      intro g slot stored here
      rcases condition g slot stored here with found | own
      · exact .inl found
      · have left : ((chain.slots g slot).powerLoss (choice g slot)).MayHold stored :=
          .inl (current_eq_some.mp here).2.1
        exact .inr ((recent.held g slot stored left.powerLoss).2 own)
  | wipe counts =>
      simp only [step] at taken
      split at taken
      · cases taken
      case isFalse stopped =>
        cases taken
        refine recent.withSlots (fun _ running => running)
          (fun _ _ _ held => absurd held Cell.not_mayHold_blank) ?_
        intro g slot stored here
        have visible := (current_eq_some.mp here).2.1
        cases visible

end Chain

/-- Rebuilding the index points every key to its newest header, and in a chain of runs, crashes and
restarts in which no power loss brings a lost header back, that is the header of the latest store. -/
theorem rebuild_picks_newest {groups : Nat} :
    (∀ (io : SlabIo groups) (disk : Disk groups) (epoch : Int) (pendingReset : Bool) (g : Fin groups),
      let manager := attachDisk io disk (some epoch) pendingReset true
      manager.epoch = (if pendingReset then epoch + 1 else epoch) ∧
        Rebuilt (io.slotCounts g) (currentEntry (io.view disk) manager.epoch g) (manager.index g)
          (manager.free g) manager.seq) ∧
    ∀ (group : List UInt8 → Fin groups) (epoch : Int) (counts : Fin groups → Nat)
      (actions : List (ChainAction groups)) (chain : Chain groups),
      Run.Meets (Chain.step group epoch) (Chain.NothingRevived epoch) (Chain.initial counts) actions →
      Run.run (Chain.step group epoch) (Chain.initial counts) actions = some chain →
        chain.PicksLatest epoch := by
  constructor
  · intro io disk epoch pendingReset g
    rw [attachDisk_eq_attachView]
    refine ⟨rfl, ?_⟩
    exact attach_rebuilt io.slotCounts _ (fun g slot => currentEntry (io.view disk) _ g slot) g
  · intro group epoch counts actions chain meets reached
    exact (Run.run_invariant_of_meets (fun chain action next recent condition taken =>
      Chain.step_recent chain action next recent condition taken) (Chain.initial_recent counts) meets
        reached).picksLatest

namespace Chain

/-- Crashes and restarts alone never break the condition. -/
theorem meets_without_powerLoss {group : List UInt8 → Fin groups} {epoch : Int}
    {actions : List (ChainAction groups)} (chain : Chain groups)
    (none : ∀ action ∈ actions, ∀ choice, action ≠ .powerLoss choice) :
    Run.Meets (step group epoch) (NothingRevived epoch) chain actions := by
  induction actions generalizing chain with
  | nil => trivial
  | cons action rest ih =>
      have calm : chain.NothingRevived epoch action := by
        cases action with
        | powerLoss choice => exact absurd rfl (none _ List.mem_cons_self choice)
        | _ => trivial
      exact ⟨calm, fun next _ => ih next fun later inside => none later (List.mem_cons_of_mem _ inside)⟩

def blockKey (tag : UInt8) : List UInt8 := List.replicate 32 tag ++ List.replicate 4 0

def oneGroup (_ : List UInt8) : Fin 1 := Fin.last 0

/-- A block is stored, fails to load, and is stored again in the other slot before a crash. -/
def storedTwice : List (ChainAction 1) :=
  [.attach, .call (.prepareStore [blockKey 1]), .write 0 0 [9] true,
    .call (.completeStore 0 [blockKey 1] true), .call (.prepareLoad [blockKey 1]),
    .call (.markLoadFailed 0 [blockKey 1]), .call (.prepareStore [blockKey 1]), .write 0 0 [9] true,
    .crash]

/-- The slot of a synced block is given away and its header blanked; the process crashes, the next
one stores the block in the other slot, and the power goes before the blank is on the disk. -/
def blankLost : List (ChainAction 1) :=
  [.attach, .call (.prepareStore [blockKey 0]), .call (.prepareStore [blockKey 1]), .write 0 0 [9] true,
    .sync (Fin.last 0), .call (.completeStore 1 [blockKey 1] true), .call (.prepareStore [blockKey 2]),
    .write 0 0 [7] false, .crash, .attach, .call (.prepareStore [blockKey 1]), .write 0 0 [9] true,
    .powerLoss fun _ slot => if slot = 0 then some 0 else none]

def reached (actions : List (ChainAction 1)) : Chain 1 :=
  (Run.run (step oneGroup 0) (initial fun _ => 2) actions).getD (initial fun _ => 2)

theorem reached_storedTwice :
    Run.run (step oneGroup 0) (initial fun _ => 2) storedTwice = some (reached storedTwice) := rfl

theorem reached_blankLost :
    Run.run (step oneGroup 0) (initial fun _ => 2) blankLost = some (reached blankLost) := rfl

end Chain

open Chain in
/-- Two slots hold the block after the crash, and the index points to the later one. -/
theorem rebuild_picks_newest_storedTwice :
    (reached storedTwice).PicksLatest 0 ∧
      ((reached storedTwice).current 0 (Fin.last 0) 0).map StoredHeader.call = some 0 ∧
      ((reached storedTwice).current 0 (Fin.last 0) 1).map StoredHeader.call = some 1 := by
  refine ⟨?_, ?_, ?_⟩
  · exact rebuild_picks_newest.2 oneGroup 0 (fun _ => 2) storedTwice (reached storedTwice)
      (meets_without_powerLoss _ (by simp [storedTwice])) reached_storedTwice
  · decide +kernel
  · decide +kernel

open Chain in
/-- A power loss that undoes an unsynced blank brings back a header that the restart did not count:
the index points to the older store. -/
theorem rebuild_picks_older :
    ∃ chain, Run.run (step oneGroup 0) (initial fun _ => 2) blankLost = some chain ∧
      ¬chain.PicksLatest 0 := by
  refine ⟨_, reached_blankLost, ?_⟩
  intro picks
  have newer : ((reached blankLost).current 0 (Fin.last 0) 0).map (fun stored =>
      (stored.call, (((reached blankLost).rebuilt 0).index (Fin.last 0)).get? stored.header.key)) =
        some (3, some 1) := by decide +kernel
  have older : ((reached blankLost).current 0 (Fin.last 0) 1).map StoredHeader.call = some 1 := by
    decide +kernel
  obtain ⟨stored, here, both⟩ := Option.map_eq_some_iff.mp newer
  obtain ⟨call, chosen⟩ := Prod.mk.inj both
  obtain ⟨latest, best, indexed, there, -, later⟩ := picks _ 0 stored here
  rw [chosen] at indexed
  cases indexed
  rw [there] at older
  have bestCall : best.call = 1 := Option.some.inj older
  have wrong := later (by decide)
  omega

end DgxSpark.Slab
