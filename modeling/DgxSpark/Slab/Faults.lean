import DgxSpark.Slab.Capacity
import DgxSpark.Slab.Rebuild

/-
This file follows one scheduler process through calls in which opening the slabs, scanning them or
publishing the epoch may raise: what `_attach` and `reset_cache` leave at every such point.
-/

namespace DgxSpark.Slab

open SlabOffloadingManager

variable {groups : Nat}

/-- The operations of `_attach` that may raise. A publish that raises may have replaced the epoch
file already, when only the sync of its directory fails. -/
inductive AttachFault (groups : Nat) where
  | publishReset (landed : Bool)
  | openSlabs
  | maxEpoch
  | publishFound (landed : Bool)
  | scan (group : Fin groups)
deriving DecidableEq

/-- What a call of `_attach` meets: whether rank 0's metadata is there yet, and the operation that
raises if the call comes to it. -/
structure Attempt (groups : Nat) where
  present : Bool
  fault : Option (AttachFault groups)

inductive AttachAnswer where
  | answered (attached : Bool)
  | raised
deriving DecidableEq

/-- How a call ends. -/
inductive Outcome where
  | returned
  | raised
  | indexError
deriving DecidableEq

/-- The manager from its construction on, and the epoch file. `io` is the epoch of the open slabs;
before `tables` is set, `index` and `free` are the empty lists of the constructor. `requested` keeps
what the epoch file said when the last reset before the attachment was requested, and `stored` the
keys of the stores completed since the tables were made. -/
structure LazyManager (groups : Nat) where
  published : Option Int
  io : Option Int
  tables : Bool
  pendingReset : Bool
  manager : SlabOffloadingManager (List UInt8) groups
  requested : Option (Option Int)
  stored : List (List UInt8)

inductive LazyCall (groups : Nat) where
  | lookup (key : List UInt8) (attempt : Attempt groups)
  | prepareStore (keys : List (List UInt8)) (attempt : Attempt groups)
  | prepareLoad (keys : List (List UInt8)) (attempt : Attempt groups)
  | resetCache (fault : Option Bool)
  | touch (keys : List (List UInt8))
  | markStoreFailed (keys : List (List UInt8))
  | completeStore (keys : List (List UInt8)) (success : Bool)

namespace LazyManager

/-- A fresh process finds the epoch file as it is. -/
def fresh (published : Option Int) : LazyManager groups where
  published := published
  io := none
  tables := false
  pendingReset := false
  manager := {
    counts := fun _ => 0, index := fun _ => .empty, free := fun _ => []
    inflightStore := .empty, inflightLoad := .empty, condemned := .empty
    failedStore := ∅, siblings := .empty, seq := 0, epoch := 0, stats := ⟨0, 0, 0, 0, 0⟩ }
  requested := none
  stored := []

def withEpoch (state : LazyManager groups) (epoch : Int) : LazyManager groups :=
  { state with manager := { state.manager with epoch := epoch } }

/-- The epoch file gets the manager's epoch. -/
def publish (state : LazyManager groups) : LazyManager groups :=
  { state with published := some state.manager.epoch }

/-- A pending reset is taken off and raises the epoch, before the epoch file has it. -/
def takeRequest (state : LazyManager groups) : LazyManager groups :=
  { state.withEpoch (state.manager.epoch + 1) with pendingReset := false }

variable (group : List UInt8 → Fin groups) (counts : Fin groups → Nat)
  (view : Fin groups → Nat → Option Header) (rebuild : Bool)

/-- What the scan of a group yields. -/
def present (epoch : Int) (g : Fin groups) (slot : Nat) : Option (Nat × List UInt8) :=
  if rebuild then currentEntry view epoch g slot else none

/-- The tables as far as the scans got: the groups that were not reached are empty. -/
def fillTables (state : LazyManager groups) (reached : Fin groups → Bool) : LazyManager groups :=
  let full := SlabOffloadingManager.attach counts state.manager.epoch (present view rebuild state.manager.epoch)
  { state with
    tables := true
    stored := []
    manager := { full with
      index := fun g => if reached g then full.index g else .empty
      free := fun g => if reached g then full.free g else []
      seq := highestSeq fun g => if reached g then
        scanned (counts g) (present view rebuild state.manager.epoch g) else []
      inflightLoad := state.manager.inflightLoad
      failedStore := state.manager.failedStore } }

/-- The last part of `_attach`: group by group, scan and fill. -/
def scanGroups (state : LazyManager groups) (fault : Option (AttachFault groups)) :
    AttachAnswer × LazyManager groups :=
  match fault with
  | some (.scan g) =>
      if rebuild ∧ 0 < counts g then
        (.raised, state.fillTables counts view rebuild fun h => decide (h < g))
      else (.answered true, state.fillTables counts view rebuild fun _ => true)
  | _ => (.answered true, state.fillTables counts view rebuild fun _ => true)

/-- The middle part of `_attach`: the slabs are opened, and without a usable epoch file the epoch is
found from the headers and published. -/
def openSlabs (state : LazyManager groups) (known : Bool) (fault : Option (AttachFault groups)) :
    AttachAnswer × LazyManager groups :=
  if fault = some .openSlabs then (.raised, state)
  else
    let opened := { state with io := some state.manager.epoch }
    if known then opened.scanGroups counts view rebuild fault
    else if fault = some .maxEpoch then (.raised, opened)
    else
      let epoch := attachEpoch none false (topEpoch counts view)
      let found := { opened.withEpoch epoch with io := some epoch }
      match fault with
      | some (.publishFound landed) => (.raised, if landed then found.publish else found)
      | _ => found.publish.scanGroups counts view rebuild fault

/-- The geometry and the epoch as the files have them. -/
def readFiles (state : LazyManager groups) : LazyManager groups :=
  { state with manager := { state.manager with
      counts := counts, epoch := state.published.getD state.manager.epoch } }

/-- `_attach`, with the operation that raises if it is reached. -/
def attach (state : LazyManager groups) (attempt : Attempt groups) : AttachAnswer × LazyManager groups :=
  if state.io.isSome then (.answered true, state)
  else if attempt.present then
    let read := state.readFiles counts
    if state.pendingReset then
      match attempt.fault with
      | some (.publishReset landed) => (.raised, if landed then read.takeRequest.publish else read.takeRequest)
      | _ => read.takeRequest.publish.openSlabs counts view rebuild state.published.isSome attempt.fault
    else read.openSlabs counts view rebuild state.published.isSome attempt.fault
  else (.answered false, state)

/-- A call that attaches first: it goes on with the tables, or without slabs. -/
def attached (state : LazyManager groups) (attempt : Attempt groups)
    (without : LazyManager groups → LazyManager groups)
    (use : LazyManager groups → Outcome × LazyManager groups) : Outcome × LazyManager groups :=
  match state.attach counts view rebuild attempt with
  | (.raised, next) => (.raised, next)
  | (.answered false, next) => (.returned, without next)
  | (.answered true, next) => use next

/-- An access to the tables of a group fails while they are the empty lists of the constructor. -/
def useTables (state : LazyManager groups) (touched : Bool)
    (use : SlabOffloadingManager (List UInt8) groups → SlabOffloadingManager (List UInt8) groups) :
    Outcome × LazyManager groups :=
  if state.tables ∨ touched = false then (.returned, { state with manager := use state.manager })
  else (.indexError, state)

/-- `reset_cache` raises its epoch, publishes it and empties the tables, in this order. -/
def resetCache (state : LazyManager groups) (fault : Option Bool) : Outcome × LazyManager groups :=
  match state.io with
  | none => (.returned, { state with pendingReset := true, requested := some state.published })
  | some _ =>
      let raised := state.withEpoch (state.manager.epoch + 1)
      let epoch := state.manager.epoch + 1
      match fault with
      | some landed => (.raised, if landed then { raised with published := some epoch } else raised)
      | none =>
          if state.tables ∨ groups = 0 then
            (.returned, { state with
              published := some epoch, io := some epoch, manager := state.manager.resetCache, stored := [] })
          else (.indexError, { raised with published := some epoch, io := some epoch })

/-- One call, with how it ends. -/
def perform (state : LazyManager groups) : LazyCall groups → Outcome × LazyManager groups
  | .lookup key attempt => state.attached counts view rebuild attempt id fun next =>
      next.useTables true fun manager => (manager.lookup group key).2
  | .prepareStore keys attempt => state.attached counts view rebuild attempt id fun next =>
      next.useTables (!keys.isEmpty) fun manager => (manager.prepareStore group keys).2
  | .prepareLoad keys attempt => state.attached counts view rebuild attempt
      (fun next => { next with manager := keys.foldl addReader next.manager }) fun next =>
        next.useTables (!keys.isEmpty) fun manager => (manager.prepareLoad group keys).2
  | .resetCache fault => state.resetCache fault
  | .touch keys =>
      (.returned, if state.tables then { state with manager := state.manager.touch group keys } else state)
  | .markStoreFailed keys => (.returned, { state with manager := state.manager.markStoreFailed keys })
  | .completeStore keys success =>
      (.returned, if state.tables then { state with
        manager := state.manager.completeStore group keys success
        stored := keys ++ state.stored } else state)

/-- Every call is possible in every state. -/
def step (state : LazyManager groups) (call : LazyCall groups) : Option (LazyManager groups) :=
  some (state.perform group counts view rebuild call).2

/-- The epoch lies above all that was stored when the reset was requested: above the epoch file of
that time, or above every header when there was no usable file. -/
def Above (request : Option Int) (epoch : Int) : Prop :=
  match request with
  | some old => old < epoch
  | none => ∀ g slot header, slot < counts g → view g slot = some header → (header.epoch : Int) < epoch

/-- Not attached, and a requested reset is still to be applied: it is pending, or the epoch file
already carries it. -/
def Waiting (state : LazyManager groups) : Prop :=
  state.io = none ∧ ∀ request, state.requested = some request →
    state.pendingReset = true ∨ ∃ epoch, state.published = some epoch ∧ Above counts view request epoch

/-- Attached: the tables are there, every slot is in exactly one place, the epochs agree, the index
lists blocks of this epoch only, and a reset requested before has been applied. -/
structure Consistent (state : LazyManager groups) : Prop where
  tables : state.tables = true
  opened : state.io = some state.manager.epoch
  published : state.published = some state.manager.epoch
  geometry : state.manager.counts = counts
  slots : ∀ g slot, state.manager.copies group g slot = if slot < counts g then 1 else 0
  listed : ∀ g key slot, (state.manager.index g).get? key = some slot →
    key ∈ state.stored ∨ ∃ seq, currentEntry view state.manager.epoch g slot = some (seq, key)
  applied : ∀ request, state.requested = some request → Above counts view request state.manager.epoch

/-- What a call may leave behind, also when it raises. -/
def Atomic (state : LazyManager groups) : Prop :=
  state.Waiting counts view ∨ state.Consistent group counts view

/-- A fault that does no harm. Publishing a reset must have replaced the file, by an epoch above all
that is stored; opening the slabs may fail once that is so, or when no reset is pending; finding the
epoch, publishing it and scanning must not fail, nor the publish of a reset on attached slabs. -/
def HarmlessAttempt (state : LazyManager groups) (attempt : Attempt groups) : Prop :=
  state.io = none → attempt.present = true →
    match attempt.fault with
    | none => True
    | some (.publishReset landed) => state.pendingReset = true → landed = true ∧
        (state.published = none → Above counts view none (state.manager.epoch + 1))
    | some .openSlabs => state.pendingReset = true →
        state.published = none → Above counts view none (state.manager.epoch + 1)
    | some .maxEpoch => state.published ≠ none
    | some (.publishFound _) => state.published ≠ none
    | some (.scan g) => ¬(rebuild = true ∧ 0 < counts g)

def Harmless (state : LazyManager groups) : LazyCall groups → Prop
  | .lookup _ attempt => state.HarmlessAttempt counts view rebuild attempt
  | .prepareStore _ attempt => state.HarmlessAttempt counts view rebuild attempt
  | .prepareLoad _ attempt => state.HarmlessAttempt counts view rebuild attempt
  | .resetCache fault => state.io = none ∨ fault = none
  | _ => True

/-- The invariant behind it: what holds of every state besides. -/
structure Sound (state : LazyManager groups) : Prop where
  atomic : state.Atomic group counts view
  closed : state.io = none → state.tables = false
  flagged : state.io = none → state.pendingReset = true → state.requested = some state.published
  custody : state.io ≠ none → ∃ loads, state.manager.Custody group loads

variable {group counts view rebuild} {state : LazyManager groups}

theorem Above.mono {request : Option Int} {epoch higher : Int} (above : Above counts view request epoch)
    (raised : epoch ≤ higher) : Above counts view request higher := by
  cases request with
  | some old => exact lt_of_lt_of_le above raised
  | none => exact fun g slot header inside found => (above g slot header inside found).trans_le raised

/-- The epoch found without an epoch file lies above every header. -/
theorem above_found : Above counts view none (attachEpoch none false (topEpoch counts view)) := by
  intro g slot header inside found
  exact attachView_above false false inside found

theorem fresh_sound (published : Option Int) : (fresh published).Sound group counts view where
  atomic := .inl ⟨rfl, fun _ asked => by cases asked⟩
  closed := fun _ => rfl
  flagged := fun _ pending => by cases pending
  custody := fun opened => absurd rfl opened

/-! ### The tables -/

theorem fillTables_copies (state : LazyManager groups) (g : Fin groups) (slot : Nat) :
    (state.fillTables counts view rebuild fun _ => true).manager.copies group g slot =
      if slot < counts g then 1 else 0 := by
  rw [← attach_copies group counts state.manager.epoch (present view rebuild state.manager.epoch) g slot]
  rfl

theorem fillTables_listed (state : LazyManager groups) {g : Fin groups} {key : List UInt8} {slot : Nat}
    (found : ((state.fillTables counts view rebuild fun _ => true).manager.index g).get? key = some slot) :
    ∃ seq, currentEntry view state.manager.epoch g slot = some (seq, key) := by
  have rebuilt := attach_rebuilt counts state.manager.epoch (present view rebuild state.manager.epoch) g
  obtain ⟨-, seq, entry, -⟩ := (rebuilt.newest key slot).mp found
  unfold present at entry
  split at entry
  · exact ⟨seq, entry⟩
  · cases entry

theorem fillTables_custody (state : LazyManager groups) :
    (state.fillTables counts view rebuild fun _ => true).manager.Custody group [] := by
  have base := attach_custody group counts state.manager.epoch (present view rebuild state.manager.epoch)
  exact ⟨base.once, base.within, base.apart, fun _ => Nat.zero_le _, fun _ _ inside => by cases inside⟩

/-- Tables that are filled to the end are consistent with an epoch that is published and open. -/
theorem fillTables_sound (opened : state.io = some state.manager.epoch)
    (published : state.published = some state.manager.epoch)
    (applied : ∀ request, state.requested = some request → Above counts view request state.manager.epoch) :
    (state.fillTables counts view rebuild fun _ => true).Sound group counts view where
  atomic := .inr {
    tables := rfl
    opened := opened
    published := published
    geometry := rfl
    slots := fillTables_copies state
    listed := fun _ _ _ found => .inr (fillTables_listed state found)
    applied := applied }
  closed := fun shut => absurd (opened.symm.trans shut) (Option.some_ne_none _)
  flagged := fun shut => absurd (opened.symm.trans shut) (Option.some_ne_none _)
  custody := fun _ => ⟨[], fillTables_custody state⟩

/-- A scan that raises loses the slots of its group. -/
theorem fillTables_torn {g : Fin groups} (some : 0 < counts g) :
    ¬(state.fillTables counts view rebuild fun h => decide (h < g)).Consistent group counts view := by
  intro consistent
  have one := consistent.slots g 0
  rw [if_pos some] at one
  have none : (state.fillTables counts view rebuild fun h => decide (h < g)).manager.copies group g 0 = 0 := by
    simp [fillTables, SlabOffloadingManager.attach, copies, assigned]
  omega

/-! ### What `_attach` leaves -/

/-- What an attempt owes: a state as the invariant has it, open exactly when it answered so. -/
def Leaves (group : List UInt8 → Fin groups) (counts : Fin groups → Nat)
    (view : Fin groups → Nat → Option Header) (result : AttachAnswer × LazyManager groups) : Prop :=
  result.2.Sound group counts view ∧ (result.1 = .answered true → result.2.io ≠ none) ∧
    (result.1 = .answered false → result.2.io = none)

/-- What a harmful fault leaves: the call raised, and the state is torn. -/
def Tears (group : List UInt8 → Fin groups) (counts : Fin groups → Nat)
    (view : Fin groups → Nat → Option Header) (result : AttachAnswer × LazyManager groups) : Prop :=
  result.1 = .raised ∧ ¬result.2.Atomic group counts view

theorem not_atomic_of_open (opened : state.io ≠ none) (torn : ¬state.Consistent group counts view) :
    ¬state.Atomic group counts view := by
  rintro (waiting | consistent)
  · exact opened waiting.1
  · exact torn consistent

/-- Scanning is safe unless the scan of a group with slots raises. -/
theorem scanGroups_leaves {fault : Option (AttachFault groups)} (opened : state.io = some state.manager.epoch)
    (published : state.published = some state.manager.epoch)
    (applied : ∀ request, state.requested = some request → Above counts view request state.manager.epoch)
    (harmless : ∀ g, fault = some (.scan g) → ¬(rebuild = true ∧ 0 < counts g)) :
    Leaves group counts view (state.scanGroups counts view rebuild fault) := by
  have done : state.scanGroups counts view rebuild fault =
      (.answered true, state.fillTables counts view rebuild fun _ => true) := by
    unfold scanGroups
    split
    case h_1 g => rw [if_neg (harmless g rfl)]
    case h_2 => rfl
  rw [done]
  refine ⟨fillTables_sound opened published applied, ?_, fun other => by cases other⟩
  intro _ shut
  exact absurd (opened.symm.trans shut) (Option.some_ne_none _)

theorem scanGroups_tears {g : Fin groups} (opened : state.io ≠ none)
    (reached : rebuild = true ∧ 0 < counts g) :
    Tears group counts view (state.scanGroups counts view rebuild (some (.scan g))) := by
  unfold scanGroups
  dsimp only
  rw [if_pos reached]
  exact ⟨rfl, not_atomic_of_open opened (fillTables_torn reached.2)⟩

/-- A reset that the epoch file carries is applied wherever the epoch goes on from the file. -/
def Carried (counts : Fin groups → Nat) (view : Fin groups → Nat → Option Header)
    (state : LazyManager groups) : Prop :=
  ∀ request, state.requested = some request →
    ∃ epoch, state.published = some epoch ∧ Above counts view request epoch

/-- An attempt that raises before the slabs are open does no harm once the reset is carried. -/
theorem closed_leaves (closed : state.io = none) (empty : state.tables = false)
    (calm : state.pendingReset = false) (carried : Carried counts view state) :
    Leaves group counts view (.raised, state) := by
  have sound : state.Sound group counts view := {
    atomic := .inl ⟨closed, fun request asked => .inr (carried request asked)⟩
    closed := fun _ => empty
    flagged := fun _ pending => absurd (calm.symm.trans pending) Bool.false_ne_true
    custody := fun opened => absurd closed opened }
  exact ⟨sound, nofun, nofun⟩

/-- The slabs with a usable epoch file. -/
theorem openSlabs_known {fault : Option (AttachFault groups)} (closed : state.io = none)
    (empty : state.tables = false) (calm : state.pendingReset = false)
    (published : state.published = some state.manager.epoch) (carried : Carried counts view state)
    (harmless : ∀ g, fault = some (.scan g) → ¬(rebuild = true ∧ 0 < counts g)) :
    Leaves group counts view (state.openSlabs counts view rebuild true fault) := by
  unfold openSlabs
  split
  · exact closed_leaves closed empty calm carried
  · dsimp only
    rw [if_pos rfl]
    refine scanGroups_leaves rfl published ?_ harmless
    intro request asked
    obtain ⟨epoch, known, above⟩ := carried request asked
    rw [published] at known
    cases known
    exact above

/-- The slabs without a usable epoch file. -/
theorem openSlabs_unknown {fault : Option (AttachFault groups)} (closed : state.io = none)
    (empty : state.tables = false) (calm : state.pendingReset = false)
    (unread : ∀ request, state.requested = some request → request = none)
    (opens : fault = some .openSlabs → Carried counts view state) (finds : fault ≠ some .maxEpoch)
    (publishes : ∀ landed, fault ≠ some (.publishFound landed))
    (harmless : ∀ g, fault = some (.scan g) → ¬(rebuild = true ∧ 0 < counts g)) :
    Leaves group counts view (state.openSlabs counts view rebuild false fault) := by
  unfold openSlabs
  split
  case isTrue failed => exact closed_leaves closed empty calm (opens failed)
  case isFalse =>
    dsimp only
    rw [if_neg Bool.false_ne_true]
    split
    case h_1 landed _ => exact absurd rfl (publishes landed)
    case h_2 =>
      refine scanGroups_leaves rfl rfl ?_ harmless
      intro request asked
      rw [unread request asked]
      exact above_found

/-- The faults behind the opening that tear the state. -/
theorem openSlabs_tears {known : Bool} {fault : Option (AttachFault groups)}
    (torn : (fault = some .maxEpoch ∧ known = false) ∨
      (∃ landed, fault = some (.publishFound landed) ∧ known = false) ∨
      ∃ g, fault = some (.scan g) ∧ rebuild = true ∧ 0 < counts g)
    (empty : state.tables = false) :
    Tears group counts view (state.openSlabs counts view rebuild known fault) := by
  have bare : ∀ {next : LazyManager groups}, next.io ≠ none → next.tables = false →
      ¬next.Atomic group counts view := by
    intro next opened unset
    refine not_atomic_of_open opened fun consistent => ?_
    rw [consistent.tables] at unset
    cases unset
  rcases torn with ⟨rfl, rfl⟩ | ⟨landed, rfl, rfl⟩ | ⟨g, rfl, reached⟩
  · refine ⟨rfl, bare (Option.some_ne_none _) empty⟩
  · refine ⟨rfl, ?_⟩
    cases landed with
    | false => exact bare (Option.some_ne_none _) empty
    | true => exact bare (Option.some_ne_none _) empty
  · unfold openSlabs
    rw [if_neg (by simp)]
    dsimp only
    cases known with
    | true => exact scanGroups_tears (Option.some_ne_none _) reached
    | false => exact scanGroups_tears (Option.some_ne_none _) reached

theorem Sound.waiting (sound : state.Sound group counts view) (closed : state.io = none) :
    state.Waiting counts view := by
  rcases sound.atomic with waiting | consistent
  · exact waiting
  · exact absurd (closed.symm.trans consistent.opened) (Option.some_ne_none _).symm

/-- Without a pending reset every requested reset is carried by the epoch file. -/
theorem Sound.carried (sound : state.Sound group counts view) (closed : state.io = none)
    (calm : state.pendingReset = false) : Carried counts view state := by
  intro request asked
  rcases (sound.waiting closed).2 request asked with pending | carried
  · exact absurd (calm.symm.trans pending) Bool.false_ne_true
  · exact carried

/-- Publishing a pending reset carries it when the epoch file was usable, or when the new epoch lies
above all that is stored. -/
theorem carried_of_published {next : LazyManager groups} {request : Option Int} {epoch : Int}
    (asked : next.requested = some request) (published : next.published = some epoch) :
    Carried counts view next ↔ Above counts view request epoch := by
  constructor
  · intro carried
    obtain ⟨known, same, above⟩ := carried request asked
    rw [published] at same
    cases same
    exact above
  · intro above other alsoAsked
    rw [asked] at alsoAsked
    cases alsoAsked
    exact ⟨epoch, published, above⟩

/-- An unattached state with no pending reset is atomic exactly when its resets are carried. -/
theorem atomic_iff_carried (closed : state.io = none) (calm : state.pendingReset = false) :
    state.Atomic group counts view ↔ Carried counts view state := by
  constructor
  · rintro (waiting | consistent)
    · intro request asked
      rcases waiting.2 request asked with pending | carried
      · exact absurd (calm.symm.trans pending) Bool.false_ne_true
      · exact carried
    · exact absurd (closed.symm.trans consistent.opened) (Option.some_ne_none _).symm
  · exact fun carried => .inl ⟨closed, fun request asked => .inr (carried request asked)⟩

/-- The faults behind the opening, as the condition has them. -/
theorem harmless_behind {attempt : Attempt groups}
    (harmless : state.HarmlessAttempt counts view rebuild attempt) (closed : state.io = none)
    (present : attempt.present = true) :
    (attempt.fault = some .maxEpoch → state.published ≠ none) ∧
      (∀ landed, attempt.fault = some (.publishFound landed) → state.published ≠ none) ∧
      ∀ g, attempt.fault = some (.scan g) → ¬(rebuild = true ∧ 0 < counts g) := by
  have condition := harmless closed present
  refine ⟨?_, ?_, ?_⟩
  · intro fault
    rwa [fault] at condition
  · intro landed fault
    rwa [fault] at condition
  · intro g fault
    rwa [fault] at condition

theorem attach_calm {attempt : Attempt groups} (closed : state.io = none)
    (present : attempt.present = true) (calm : state.pendingReset = false) :
    state.attach counts view rebuild attempt =
      (state.readFiles counts).openSlabs counts view rebuild state.published.isSome attempt.fault := by
  rw [attach, closed, present, calm]
  rfl

theorem attach_pending {attempt : Attempt groups} (closed : state.io = none)
    (present : attempt.present = true) (pending : state.pendingReset = true)
    (publishes : ∀ landed, attempt.fault ≠ some (.publishReset landed)) :
    state.attach counts view rebuild attempt =
      (state.readFiles counts).takeRequest.publish.openSlabs counts view rebuild state.published.isSome
        attempt.fault := by
  rw [attach, closed, present, pending]
  dsimp only [Option.isSome_none]
  rw [if_neg Bool.false_ne_true, if_pos rfl, if_pos rfl]
  split
  case h_1 landed fault => exact absurd fault (publishes landed)
  case h_2 => rfl

theorem attach_unpublished {attempt : Attempt groups} {landed : Bool} (closed : state.io = none)
    (present : attempt.present = true) (pending : state.pendingReset = true)
    (fault : attempt.fault = some (.publishReset landed)) :
    state.attach counts view rebuild attempt = (.raised,
      if landed then (state.readFiles counts).takeRequest.publish
      else (state.readFiles counts).takeRequest) := by
  rw [attach, closed, present, pending, fault]
  rfl

/-- The reset of a pending request is carried when the epoch file was usable, or when the new epoch
lies above all that is stored. -/
theorem takeRequest_carried (sound : state.Sound group counts view) (closed : state.io = none)
    (pending : state.pendingReset = true) :
    Carried counts view (state.readFiles counts).takeRequest.publish ↔
      (state.published = none → Above counts view none (state.manager.epoch + 1)) := by
  have asked := sound.flagged closed pending
  rw [@carried_of_published _ counts view (state.readFiles counts).takeRequest.publish _ _ asked rfl]
  cases published : state.published with
  | some epoch =>
      have epochs : (state.readFiles counts).takeRequest.manager.epoch = epoch + 1 := by
        simp only [readFiles, takeRequest, withEpoch, published, Option.getD_some]
      rw [epochs]
      exact ⟨fun _ none => (by cases none), fun _ => Int.lt_succ epoch⟩
  | none =>
      have epochs : (state.readFiles counts).takeRequest.manager.epoch = state.manager.epoch + 1 := by
        simp only [readFiles, takeRequest, withEpoch, published, Option.getD_none]
      rw [epochs]
      exact ⟨fun above _ => above, fun above => above rfl⟩

/-- An attempt whose fault is harmless leaves a sound state. -/
theorem attach_leaves {attempt : Attempt groups} (sound : state.Sound group counts view)
    (harmless : state.HarmlessAttempt counts view rebuild attempt) :
    Leaves group counts view (state.attach counts view rebuild attempt) := by
  cases opened : state.io with
  | some epoch =>
      rw [attach, opened]
      exact ⟨sound, fun _ shut => absurd (opened.symm.trans shut) (Option.some_ne_none _), nofun⟩
  | none =>
      cases present : attempt.present with
      | false =>
          rw [attach, opened, present]
          exact ⟨sound, nofun, fun _ => opened⟩
      | true =>
          have empty := sound.closed opened
          obtain ⟨finds, publishes, scans⟩ := harmless_behind harmless opened present
          have condition := harmless opened present
          cases pending : state.pendingReset with
          | false =>
              have carried := sound.carried opened pending
              rw [attach_calm opened present pending]
              cases published : state.published with
              | some epoch =>
                  refine openSlabs_known opened empty pending ?_ carried scans
                  simp only [readFiles, published, Option.getD_some]
              | none =>
                  refine openSlabs_unknown opened empty pending ?_ (fun _ => carried)
                    (fun fault => finds fault published) (fun landed fault => publishes landed fault published)
                    scans
                  intro request asked
                  obtain ⟨epoch, known, -⟩ := carried request asked
                  rw [published] at known
                  cases known
          | true =>
              have carried := takeRequest_carried sound opened pending
              by_cases failed : ∃ landed, attempt.fault = some (.publishReset landed)
              · obtain ⟨landed, fault⟩ := failed
                rw [fault] at condition
                obtain ⟨whole, above⟩ := condition pending
                rw [attach_unpublished opened present pending fault, if_pos whole]
                exact closed_leaves opened empty rfl (carried.mpr above)
              · rw [attach_pending opened present pending (not_exists.mp failed)]
                cases published : state.published with
                | some epoch =>
                    refine openSlabs_known opened empty rfl rfl (carried.mpr ?_) scans
                    intro none
                    rw [published] at none
                    cases none
                | none =>
                    refine openSlabs_unknown opened empty rfl ?_ ?_ (fun fault => finds fault published)
                      (fun landed fault => publishes landed fault published) scans
                    · intro request same
                      have asked := sound.flagged opened pending
                      rw [published] at asked
                      exact Option.some.inj (same.symm.trans asked)
                    · intro fault
                      rw [fault] at condition
                      exact carried.mpr (condition pending)

/-- A request that is taken off and not published is lost. -/
theorem takeRequest_lost (sound : state.Sound group counts view) (closed : state.io = none)
    (pending : state.pendingReset = true) : ¬Carried counts view (state.readFiles counts).takeRequest := by
  intro carried
  obtain ⟨epoch, published, above⟩ := carried state.published (sound.flagged closed pending)
  have same : state.published = some epoch := published
  rw [same] at above
  exact absurd above (lt_irrefl epoch)

/-- What a fault behind the publish of the reset meets. -/
theorem attach_behind {attempt : Attempt groups} (closed : state.io = none)
    (present : attempt.present = true) (publishes : ∀ landed, attempt.fault ≠ some (.publishReset landed))
    (empty : state.tables = false) :
    ∃ next : LazyManager groups, next.tables = false ∧ state.attach counts view rebuild attempt =
      next.openSlabs counts view rebuild state.published.isSome attempt.fault := by
  cases pending : state.pendingReset with
  | false => exact ⟨state.readFiles counts, empty, attach_calm closed present pending⟩
  | true =>
      exact ⟨(state.readFiles counts).takeRequest.publish, empty,
        attach_pending closed present pending publishes⟩

/-- An attempt whose fault is harmful raises and leaves a torn state. -/
theorem attach_tears {attempt : Attempt groups} (sound : state.Sound group counts view)
    (harmful : ¬state.HarmlessAttempt counts view rebuild attempt) :
    Tears group counts view (state.attach counts view rebuild attempt) := by
  unfold HarmlessAttempt at harmful
  simp only [Classical.not_imp] at harmful
  obtain ⟨closed, present, condition⟩ := harmful
  have empty := sound.closed closed
  cases fault : attempt.fault with
  | none =>
      rw [fault] at condition
      exact absurd trivial condition
  | some kind =>
      rw [fault] at condition
      cases kind with
      | publishReset landed =>
          simp only [Classical.not_imp] at condition
          obtain ⟨pending, harm⟩ := condition
          rw [attach_unpublished closed present pending fault]
          refine ⟨rfl, ?_⟩
          cases landed with
          | true =>
              show ¬(state.readFiles counts).takeRequest.publish.Atomic group counts view
              refine mt (atomic_iff_carried ?_ ?_).mp ?_
              · exact closed
              · rfl
              · exact fun carried => harm ⟨rfl, (takeRequest_carried sound closed pending).mp carried⟩
          | false =>
              show ¬(state.readFiles counts).takeRequest.Atomic group counts view
              refine mt (atomic_iff_carried ?_ ?_).mp ?_
              · exact closed
              · rfl
              · exact takeRequest_lost sound closed pending
      | openSlabs =>
          simp only [Classical.not_imp] at condition
          obtain ⟨pending, unread, harm⟩ := condition
          rw [attach_pending closed present pending (by simp [fault]), fault]
          refine ⟨rfl, ?_⟩
          show ¬(state.readFiles counts).takeRequest.publish.Atomic group counts view
          refine mt (atomic_iff_carried ?_ ?_).mp ?_
          · exact closed
          · rfl
          · exact fun carried => harm ((takeRequest_carried sound closed pending).mp carried unread)
      | maxEpoch =>
          obtain ⟨next, unset, same⟩ := attach_behind closed present (by simp [fault]) empty
          rw [same, fault, not_not.mp condition]
          exact openSlabs_tears (.inl ⟨rfl, rfl⟩) unset
      | publishFound landed =>
          obtain ⟨next, unset, same⟩ := attach_behind closed present (by simp [fault]) empty
          rw [same, fault, not_not.mp condition]
          exact openSlabs_tears (.inr (.inl ⟨landed, rfl, rfl⟩)) unset
      | scan g =>
          obtain ⟨next, unset, same⟩ := attach_behind closed present (by simp [fault]) empty
          rw [same, fault]
          exact openSlabs_tears (.inr (.inr ⟨g, rfl, not_not.mp condition⟩)) unset

/-! ### The calls on attached slabs -/

/-- A change of the manager that keeps its slots in their places and indexes no key but the named. -/
structure Continues (group : List UInt8 → Fin groups) (manager next : SlabOffloadingManager (List UInt8) groups)
    (named : List (List UInt8)) : Prop where
  counts : next.counts = manager.counts
  epoch : next.epoch = manager.epoch
  copies : ∀ loads, manager.Custody group loads →
    ∀ g slot, next.copies group g slot = manager.copies group g slot
  custody : ∀ loads, manager.Custody group loads → ∃ open_, next.Custody group open_
  index : ∀ g key slot, (next.index g).get? key = some slot →
    (manager.index g).get? key = some slot ∨ key ∈ named

theorem Sound.continues (sound : state.Sound group counts view) (opened : state.io ≠ none)
    {next : SlabOffloadingManager (List UInt8) groups} {named : List (List UInt8)}
    (continues : Continues group state.manager next named) :
    ({ state with manager := next, stored := named ++ state.stored } : LazyManager groups).Sound
      group counts view := by
  rcases sound.atomic with waiting | consistent
  · exact absurd waiting.1 opened
  · obtain ⟨loads, custody⟩ := sound.custody opened
    refine ⟨.inr ?_, fun closed => absurd closed opened, fun closed => absurd closed opened,
      fun _ => continues.custody loads custody⟩
    constructor
    case tables => exact consistent.tables
    case opened => exact consistent.opened.trans (congrArg some continues.epoch.symm)
    case published => exact consistent.published.trans (congrArg some continues.epoch.symm)
    case geometry => exact continues.counts.trans consistent.geometry
    case slots => exact fun g slot => (continues.copies loads custody g slot).trans (consistent.slots g slot)
    case listed =>
      intro g key slot found
      dsimp only
      rw [continues.epoch]
      rcases continues.index g key slot found with before | new
      · rcases consistent.listed g key slot before with own | entry
        · exact .inl (List.mem_append_right _ own)
        · exact .inr entry
      · exact .inl (List.mem_append_left _ new)
    case applied =>
      intro request asked
      dsimp only
      rw [continues.epoch]
      exact consistent.applied request asked

theorem lookup_continues (manager : SlabOffloadingManager (List UInt8) groups) (key : List UInt8) :
    Continues group manager (manager.lookup group key).2 [] where
  counts := (lookup_frame group manager key).2.1
  epoch := by
    unfold lookup
    split
    · rfl
    · split
      · rfl
      · rfl
  copies := fun _ _ => (lookup_frame group manager key).1
  custody := fun loads custody => ⟨loads, lookup_custody custody key⟩
  index := by
    intro g other slot found
    refine .inl ?_
    unfold lookup at found
    split at found
    · rwa [refresh_get? group manager.index (key :: (manager.siblings.get? key).getD [])] at found
    · split at found
      · exact found
      · exact found

theorem prepareStore_continues (manager : SlabOffloadingManager (List UInt8) groups)
    (keys : List (List UInt8)) : Continues group manager (manager.prepareStore group keys).2 [] := by
  constructor
  case copies => exact fun _ custody => (prepareStore_custody custody keys).2
  case custody => exact fun loads custody => ⟨loads, (prepareStore_custody custody keys).1⟩
  all_goals rcases prepareStore_cases group manager keys with same | ⟨taken, evicted, next, _, _, done, same⟩
  all_goals rw [same]
  case epoch.inr => exact (takeSlots_frame _ done).1.epoch
  case counts.inr => exact (takeSlots_frame _ done).1.counts
  case index.inl => exact fun _ _ _ found => .inl found
  case index.inr => exact fun g key slot found => .inl ((takeSlots_frame _ done).1.index g key slot found)

theorem prepareLoad_continues (manager : SlabOffloadingManager (List UInt8) groups)
    (keys : List (List UInt8)) : Continues group manager (manager.prepareLoad group keys).2 [] where
  counts := (prepareLoad_frame group manager keys).1
  epoch := by
    have kept (manager : SlabOffloadingManager (List UInt8) groups) (key : List UInt8) :
        (manager.addReader key).epoch = manager.epoch := rfl
    exact foldl_keeps (fun manager => manager.epoch) kept keys manager
  copies := fun _ custody => (prepareLoad_custody keys custody).2
  custody := fun _ custody => ⟨_, (prepareLoad_custody keys custody).1⟩
  index := by
    have kept (manager : SlabOffloadingManager (List UInt8) groups) (key : List UInt8) :
        (manager.addReader key).index = manager.index := rfl
    have same : (manager.prepareLoad group keys).2.index = manager.index :=
      foldl_keeps (fun manager => manager.index) kept keys manager
    intro g key slot found
    rw [same] at found
    exact .inl found

theorem touch_continues (manager : SlabOffloadingManager (List UInt8) groups)
    (keys : List (List UInt8)) : Continues group manager (manager.touch group keys) [] where
  counts := rfl
  epoch := rfl
  copies := by
    intro _ _ g slot
    simp only [touch, copies, refresh_tally]
  custody := fun loads custody => ⟨loads, touch_custody custody keys⟩
  index := by
    intro g key slot found
    rw [touch, refresh_get?] at found
    exact .inl found

theorem markStoreFailed_continues (manager : SlabOffloadingManager (List UInt8) groups)
    (keys : List (List UInt8)) : Continues group manager (manager.markStoreFailed keys) [] where
  counts := rfl
  epoch := rfl
  copies := fun _ _ _ _ => rfl
  custody := fun loads custody => ⟨loads, markStoreFailed_custody custody keys⟩
  index := fun _ _ _ found => .inl found

/-- A completed store indexes only keys that it names. -/
theorem completeStore_index (success : Bool) (keys : List (List UInt8))
    (manager : SlabOffloadingManager (List UInt8) groups) {g : Fin groups} {key : List UInt8} {slot : Nat}
    (found : ((manager.completeStore group keys success).index g).get? key = some slot) :
    (manager.index g).get? key = some slot ∨ key ∈ keys := by
  induction keys generalizing manager with
  | nil => exact .inl found
  | cons head tail ih =>
      rcases ih (completeStoreKey group success manager head) found with early | later
      · unfold completeStoreKey at early
        split at early
        · exact .inl early
        · dsimp only at early
          split at early
          · by_cases same : g = group head
            · subst same
              dsimp only at early
              rw [Function.update_self] at early
              rcases OrderedDict.get?_set_cases early with ⟨here, -⟩ | ⟨-, before⟩
              · exact .inr (here ▸ List.mem_cons_self)
              · exact .inl before
            · dsimp only at early
              rw [Function.update_of_ne same] at early
              exact .inl early
          · exact .inl early
      · exact .inr (List.mem_cons_of_mem _ later)

theorem completeStore_continues (manager : SlabOffloadingManager (List UInt8) groups)
    (keys : List (List UInt8)) (success : Bool) :
    Continues group manager (manager.completeStore group keys success) keys where
  counts := (completeStore_frame group manager keys success).1
  epoch := by
    refine foldl_keeps (fun manager => manager.epoch) ?_ keys manager
    intro manager key
    dsimp only [completeStoreKey]
    split
    · rfl
    · split
      · rfl
      · rfl
  copies := fun _ custody => (completeStore_custody success keys custody).2
  custody := fun loads custody => ⟨loads, (completeStore_custody success keys custody).1⟩
  index := fun _ _ _ found => completeStore_index success keys manager found

theorem Sound.used (sound : state.Sound group counts view) (opened : state.io ≠ none) (touched : Bool)
    {use : SlabOffloadingManager (List UInt8) groups → SlabOffloadingManager (List UInt8) groups}
    (continues : ∀ manager, Continues group manager (use manager) []) :
    (state.useTables touched use).1 = .returned ∧ (state.useTables touched use).2.Sound group counts view := by
  rcases sound.atomic with waiting | consistent
  · exact absurd waiting.1 opened
  · rw [useTables, if_pos (.inl consistent.tables)]
    exact ⟨rfl, sound.continues opened (continues state.manager)⟩

/-- A call that attaches first keeps the invariant under a harmless fault. -/
theorem Sound.attached {attempt : Attempt groups} (sound : state.Sound group counts view)
    (harmless : state.HarmlessAttempt counts view rebuild attempt)
    {without : LazyManager groups → LazyManager groups} {use : LazyManager groups → Outcome × LazyManager groups}
    (outside : ∀ next : LazyManager groups, next.Sound group counts view → next.io = none →
      (without next).Sound group counts view)
    (inside : ∀ next : LazyManager groups, next.Sound group counts view → next.io ≠ none →
      (use next).1 ≠ .indexError ∧ (use next).2.Sound group counts view) :
    (state.attached counts view rebuild attempt without use).1 ≠ .indexError ∧
      (state.attached counts view rebuild attempt without use).2.Sound group counts view := by
  obtain ⟨kept, opens, shuts⟩ := attach_leaves sound harmless
  unfold LazyManager.attached
  generalize state.attach counts view rebuild attempt = result at kept opens shuts
  obtain ⟨answer, next⟩ := result
  cases answer with
  | raised => exact ⟨nofun, kept⟩
  | answered attached =>
      cases attached with
      | false => exact ⟨nofun, outside next kept (shuts rfl)⟩
      | true => exact inside next kept (opens rfl)

theorem attached_tears {attempt : Attempt groups} (sound : state.Sound group counts view)
    (harmful : ¬state.HarmlessAttempt counts view rebuild attempt)
    (without : LazyManager groups → LazyManager groups) (use : LazyManager groups → Outcome × LazyManager groups) :
    (state.attached counts view rebuild attempt without use).1 = .raised ∧
      ¬(state.attached counts view rebuild attempt without use).2.Atomic group counts view := by
  obtain ⟨raised, torn⟩ := attach_tears sound harmful
  unfold LazyManager.attached
  generalize state.attach counts view rebuild attempt = result at raised torn
  obtain ⟨answer, next⟩ := result
  cases raised
  exact ⟨rfl, torn⟩

/-- A change of the manager of an unattached process matters to nothing. -/
theorem Sound.outside (sound : state.Sound group counts view) (closed : state.io = none)
    (manager : SlabOffloadingManager (List UInt8) groups) :
    ({ state with manager := manager } : LazyManager groups).Sound group counts view where
  atomic := .inl (sound.waiting closed)
  closed := sound.closed
  flagged := sound.flagged
  custody := fun opened => absurd closed opened

theorem resetCache_sound {fault : Option Bool} (sound : state.Sound group counts view)
    (harmless : state.io = none ∨ fault = none) :
    (state.resetCache fault).1 ≠ .indexError ∧ (state.resetCache fault).2.Sound group counts view := by
  cases opened : state.io with
  | none =>
      rw [LazyManager.resetCache, opened]
      refine ⟨nofun, .inl ⟨rfl, fun _ _ => .inl rfl⟩, fun _ => sound.closed opened, fun _ _ => rfl, ?_⟩
      exact fun other => absurd rfl other
  | some epoch =>
      rcases harmless with closed | rfl
      · rw [opened] at closed
        cases closed
      · rcases sound.atomic with waiting | consistent
        · exact absurd (opened.symm.trans waiting.1) (Option.some_ne_none _)
        · rw [LazyManager.resetCache, opened]
          dsimp only
          rw [if_pos (.inl consistent.tables)]
          refine ⟨nofun, .inr ?_, nofun, nofun, fun _ => ⟨[], resetCache_custody state.manager⟩⟩
          constructor
          case tables => exact consistent.tables
          case opened => rfl
          case published => rfl
          case geometry => exact consistent.geometry
          case slots =>
            intro g slot
            rw [resetCache_copies, consistent.geometry]
          case listed =>
            intro g key slot found
            cases found
          case applied =>
            intro request asked
            exact (consistent.applied request asked).mono (Int.le_of_lt (Int.lt_succ _))

/-- A publish that raises in `reset_cache` leaves the raised epoch beside the old tables. -/
theorem resetCache_tears {landed : Bool} (sound : state.Sound group counts view)
    (opened : state.io ≠ none) :
    (state.resetCache (some landed)).1 = .raised ∧
      ¬(state.resetCache (some landed)).2.Atomic group counts view := by
  rcases sound.atomic with waiting | consistent
  · exact absurd waiting.1 opened
  · rw [LazyManager.resetCache, consistent.opened]
    refine ⟨rfl, ?_⟩
    have torn : ∀ {next : LazyManager groups}, next.io = state.io →
        next.manager.epoch = state.manager.epoch + 1 → ¬next.Atomic group counts view := by
      intro next io epoch
      refine not_atomic_of_open (by rwa [io]) fun whole => ?_
      have agree := whole.opened
      rw [io, consistent.opened, epoch] at agree
      have same := Option.some.inj agree
      omega
    cases landed with
    | false => exact torn rfl rfl
    | true => exact torn rfl rfl

/-- A call with a harmless fault, or none, keeps the invariant and ends without an index error. -/
theorem perform_sound {call : LazyCall groups} (sound : state.Sound group counts view)
    (harmless : state.Harmless counts view rebuild call) :
    (state.perform group counts view rebuild call).1 ≠ .indexError ∧
      (state.perform group counts view rebuild call).2.Sound group counts view := by
  have used : ∀ (touched : Bool)
      (use : SlabOffloadingManager (List UInt8) groups → SlabOffloadingManager (List UInt8) groups),
      (∀ manager, Continues group manager (use manager) []) → ∀ next : LazyManager groups,
        next.Sound group counts view → next.io ≠ none →
          (next.useTables touched use).1 ≠ .indexError ∧ (next.useTables touched use).2.Sound group counts view := by
    intro touched use continues next kept opened
    obtain ⟨returned, after⟩ := kept.used opened touched continues
    exact ⟨returned ▸ nofun, after⟩
  have opened : state.tables = true → state.io ≠ none := by
    intro filled closed
    rw [sound.closed closed] at filled
    cases filled
  cases call with
  | lookup key attempt =>
      exact sound.attached harmless (fun _ kept _ => kept)
        (used true _ fun manager => lookup_continues manager key)
  | prepareStore keys attempt =>
      exact sound.attached harmless (fun _ kept _ => kept)
        (used _ _ fun manager => prepareStore_continues manager keys)
  | prepareLoad keys attempt =>
      exact sound.attached harmless (fun _ kept closed => kept.outside closed _)
        (used _ _ fun manager => prepareLoad_continues manager keys)
  | resetCache fault => exact resetCache_sound sound harmless
  | touch keys =>
      refine ⟨nofun, ?_⟩
      dsimp only [perform]
      split
      case isTrue filled =>
        exact sound.continues (opened filled) (touch_continues state.manager keys)
      case isFalse => exact sound
  | markStoreFailed keys =>
      refine ⟨nofun, ?_⟩
      by_cases closed : state.io = none
      · exact sound.outside closed _
      · exact sound.continues closed (markStoreFailed_continues state.manager keys)
  | completeStore keys success =>
      refine ⟨nofun, ?_⟩
      dsimp only [perform]
      split
      case isTrue filled =>
        exact sound.continues (opened filled) (completeStore_continues state.manager keys success)
      case isFalse => exact sound

/-- A call with a harmful fault raises and leaves a torn state. -/
theorem perform_tears {call : LazyCall groups} (sound : state.Sound group counts view)
    (harmful : ¬state.Harmless counts view rebuild call) :
    (state.perform group counts view rebuild call).1 = .raised ∧
      ¬(state.perform group counts view rebuild call).2.Atomic group counts view := by
  cases call with
  | lookup key attempt => exact attached_tears sound harmful _ _
  | prepareStore keys attempt => exact attached_tears sound harmful _ _
  | prepareLoad keys attempt => exact attached_tears sound harmful _ _
  | resetCache fault =>
      obtain ⟨opened, raises⟩ := not_or.mp harmful
      cases fault with
      | none => exact absurd rfl raises
      | some landed => exact resetCache_tears sound opened
  | touch keys => exact absurd trivial harmful
  | markStoreFailed keys => exact absurd trivial harmful
  | completeStore keys success => exact absurd trivial harmful

/-- Rank 0 holds one block, stored under epoch 3. -/
def oldBlock : Header where
  magic := slabMagic
  version := slabVersion
  group := 0
  epoch := 3
  length := 1
  seq := 1
  key := [7]
  payloadCrc := 0
  headerCrc := 0

def oneBlock (_ : Fin 1) (slot : Nat) : Option Header := if slot = 0 then some oldBlock else none

def onlyGroup (_ : List UInt8) : Fin 1 := Fin.last 0

/-- The reset is requested, its publish raises, and the next call attaches. -/
def resetLost : List (LazyCall 1) :=
  [.resetCache none, .lookup [7] ⟨true, some (.publishReset false)⟩, .lookup [7] ⟨true, none⟩]

end LazyManager

end DgxSpark.Slab
