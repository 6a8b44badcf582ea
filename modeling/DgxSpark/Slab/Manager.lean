import DgxSpark.Library.OrderedDict

/-
This file embeds the attached `SlabOffloadingManager` of `kv_offload/tiering/multinode.py`.
-/

namespace DgxSpark.Slab

/-- The answers of `lookup`; a pending hit asks the caller to come back later. -/
inductive LookupResult where
  | miss
  | hit
  | hitPending
deriving DecidableEq

structure Stats where
  hits : Nat
  misses : Nat
  evictions : Nat
  stores : Nat
  loadFailures : Nat

/-- A job names its blocks by key and slot. A slot of -1 marks a key that vanished before its load. -/
structure SlabLoadStoreSpec (Key : Type) where
  keys : List Key
  slots : List Int
  epoch : Int
  seq : Nat

structure PrepareStoreOutput (Key : Type) where
  keysToStore : List Key
  storeSpec : SlabLoadStoreSpec Key
  evictedKeys : List Key

/-- The scheduler keeps one LRU index and one free list for each group, oldest entry first. -/
structure SlabOffloadingManager (Key : Type) (groups : Nat) where
  counts : Fin groups → Nat
  index : Fin groups → OrderedDict Key Nat
  free : Fin groups → List Nat
  inflightStore : OrderedDict Key Nat
  inflightLoad : OrderedDict Key Nat
  condemned : OrderedDict Key Nat
  failedStore : Finset Key
  siblings : OrderedDict Key (List Key)
  seq : Nat
  epoch : Int
  stats : Stats

/-- `DRAFTER_PER_TARGET` drafter blocks cover one target block. -/
def drafterPerTarget : Nat := 4

namespace SlabOffloadingManager

variable {Key : Type} [DecidableEq Key] {groups : Nat} (group : Key → Fin groups)

/-- `inflight_load.get(k, 0)`. -/
def readers (manager : SlabOffloadingManager Key groups) (key : Key) : Nat :=
  (manager.inflightLoad.get? key).getD 0

/-- One LRU refresh; a key outside the index stays outside. -/
def refresh (index : Fin groups → OrderedDict Key Nat) (key : Key) : Fin groups → OrderedDict Key Nat :=
  Function.update index (group key) ((index (group key)).moveToEnd key)

def lookup (manager : SlabOffloadingManager Key groups) (key : Key) :
    LookupResult × SlabOffloadingManager Key groups :=
  if key ∈ (manager.index (group key)).keys then
    -- The siblings of a target are refreshed with it.
    (.hit, { manager with
      index := (key :: (manager.siblings.get? key).getD []).foldl (refresh group) manager.index
      stats := { manager.stats with hits := manager.stats.hits + 1 } })
  else if key ∈ manager.inflightStore.keys then
    (.hitPending, manager)
  else
    (.miss, { manager with stats := { manager.stats with misses := manager.stats.misses + 1 } })

def touch (manager : SlabOffloadingManager Key groups) (keys : List Key) : SlabOffloadingManager Key groups :=
  { manager with index := keys.foldl (refresh group) manager.index }

/-- An entry may be evicted when no load reads it and the current call does not name it. -/
def mayEvict (manager : SlabOffloadingManager Key groups) (protect : List Key) (key : Key) : Bool :=
  manager.readers key == 0 && !protect.contains key

/-- `_evictable`. -/
def evictable (manager : SlabOffloadingManager Key groups) (g : Fin groups) (protect : List Key) : Nat :=
  (manager.index g).keys.countP (manager.mayEvict protect)

/-- `_take_slot`: a free slot first, then the slot of the oldest entry that may be evicted. The result
is `none` where the code raises. -/
def takeSlot (manager : SlabOffloadingManager Key groups) (g : Fin groups) (protect : List Key) :
    Option (Nat × List Key × SlabOffloadingManager Key groups) :=
  match manager.free g with
  | slot :: rest => some (slot, [], { manager with free := Function.update manager.free g rest })
  | [] =>
      match (manager.index g).entries.find? fun entry => manager.mayEvict protect entry.1 with
      | some (key, slot) => some (slot, [key], { manager with
          index := Function.update manager.index g ((manager.index g).erase key)
          siblings := manager.siblings.erase key
          stats := { manager.stats with evictions := manager.stats.evictions + 1 } })
      | none => none

/-- The slots of one store call, taken in key order, with the keys evicted on the way. -/
def takeSlots (protect : List Key) : List Key → SlabOffloadingManager Key groups →
    Option (List (Key × Nat) × List Key × SlabOffloadingManager Key groups)
  | [], manager => some ([], [], manager)
  | key :: rest, manager =>
      (manager.takeSlot (group key) protect).bind fun (slot, evicted, next) =>
        (takeSlots protect rest next).map fun (taken, later, last) =>
          ((key, slot) :: taken, evicted ++ later, last)

/-- A key is new when it is neither indexed nor being stored. -/
def isNew (manager : SlabOffloadingManager Key groups) (key : Key) : Bool :=
  decide (key ∉ (manager.index (group key)).keys ∧ key ∉ manager.inflightStore.keys)

/-- The slots that the new keys of one call need in a group. -/
def need (fresh : List Key) (g : Fin groups) : Nat := fresh.countP fun key => group key == g

/-- The i-th target of a call is linked to the i-th four drafter keys of the call. -/
def linkSiblings (drafters : List Key) : Nat → List Key → OrderedDict Key (List Key) →
    OrderedDict Key (List Key)
  | _, [], siblings => siblings
  | i, target :: rest, siblings =>
      let sib := (drafters.drop (drafterPerTarget * i)).take drafterPerTarget
      linkSiblings drafters (i + 1) rest (if sib.isEmpty then siblings else siblings.set target sib)

/-- What `prepare_store` answers: nothing, a store, or the error behind its preflight. -/
inductive StoreAnswer (Key : Type) where
  | retry
  | store (output : PrepareStoreOutput Key)
  | noEvictableSlot

def prepareStore (manager : SlabOffloadingManager Key groups) (keys : List Key) :
    StoreAnswer Key × SlabOffloadingManager Key groups :=
  let keys := keys.eraseDups
  let fresh := keys.filter (manager.isNew group)
  -- The preflight covers every group before anything changes.
  if (fresh.map group).all fun g =>
      decide (need group fresh g ≤ (manager.free g).length + manager.evictable g keys) then
    match takeSlots group keys fresh manager with
    | none => (.noEvictableSlot, manager)
    | some (taken, evicted, next) =>
        let targets := fresh.filter fun key => (group key).val == 0
        let drafters := keys.filter fun key => (group key).val != 0
        (.store {
            keysToStore := taken.map Prod.fst
            storeSpec := {
              keys := taken.map Prod.fst
              slots := taken.map fun pair => (pair.2 : Int)
              epoch := manager.epoch
              seq := manager.seq + 1 }
            evictedKeys := evicted },
          { next with
            inflightStore := taken.foldl (fun dict pair => dict.set pair.1 pair.2) next.inflightStore
            siblings := linkSiblings drafters 0 targets next.siblings
            seq := next.seq + 1
            stats := { next.stats with stores := next.stats.stores + taken.length } })
  else (.retry, manager)

def markStoreFailed (manager : SlabOffloadingManager Key groups) (keys : List Key) :
    SlabOffloadingManager Key groups :=
  { manager with failedStore := manager.failedStore ∪ keys.toFinset }

/-- One key of `complete_store`. -/
def completeStoreKey (success : Bool) (manager : SlabOffloadingManager Key groups) (key : Key) :
    SlabOffloadingManager Key groups :=
  match manager.inflightStore.get? key with
  | none => manager
  | some slot =>
      let g := group key
      if success ∧ key ∉ manager.failedStore then
        { manager with
          inflightStore := manager.inflightStore.erase key
          index := Function.update manager.index g ((manager.index g).set key slot)
          failedStore := manager.failedStore.erase key }
      else
        { manager with
          inflightStore := manager.inflightStore.erase key
          free := Function.update manager.free g (manager.free g ++ [slot])
          siblings := manager.siblings.erase key
          failedStore := manager.failedStore.erase key }

def completeStore (manager : SlabOffloadingManager Key groups) (keys : List Key) (success : Bool) :
    SlabOffloadingManager Key groups :=
  keys.foldl (completeStoreKey group success) manager

/-- The slot a load is given: -1 for a key outside the index. -/
def loadSlot (manager : SlabOffloadingManager Key groups) (key : Key) : Int :=
  match (manager.index (group key)).get? key with
  | some slot => slot
  | none => -1

/-- One more reader for a key. -/
def addReader (manager : SlabOffloadingManager Key groups) (key : Key) : SlabOffloadingManager Key groups :=
  { manager with inflightLoad := manager.inflightLoad.set key (manager.readers key + 1) }

def prepareLoad (manager : SlabOffloadingManager Key groups) (keys : List Key) :
    SlabLoadStoreSpec Key × SlabOffloadingManager Key groups :=
  ({ keys := keys, slots := keys.map (manager.loadSlot group), epoch := manager.epoch, seq := manager.seq },
    keys.foldl addReader manager)

/-- One key of `complete_load`: the last reader gives a condemned slot back. -/
def completeLoadKey (manager : SlabOffloadingManager Key groups) (key : Key) :
    SlabOffloadingManager Key groups :=
  if manager.readers key ≤ 1 then
    match manager.condemned.get? key with
    | some slot => { manager with
        inflightLoad := manager.inflightLoad.erase key
        condemned := manager.condemned.erase key
        free := Function.update manager.free (group key) (manager.free (group key) ++ [slot]) }
    | none => { manager with inflightLoad := manager.inflightLoad.erase key }
  else { manager with inflightLoad := manager.inflightLoad.set key (manager.readers key - 1) }

def completeLoad (manager : SlabOffloadingManager Key groups) (keys : List Key) :
    SlabOffloadingManager Key groups :=
  keys.foldl (completeLoadKey group) manager

/-- One key of `mark_load_failed`: a slot that is still read is condemned, not freed. -/
def markLoadFailedKey (manager : SlabOffloadingManager Key groups) (key : Key) :
    SlabOffloadingManager Key groups :=
  match (manager.index (group key)).get? key with
  | none => manager
  | some slot =>
      let g := group key
      let dropped := { manager with
        index := Function.update manager.index g ((manager.index g).erase key)
        siblings := manager.siblings.erase key
        stats := { manager.stats with loadFailures := manager.stats.loadFailures + 1 } }
      if 0 < manager.readers key then { dropped with condemned := manager.condemned.set key slot }
      else { dropped with free := Function.update manager.free g (manager.free g ++ [slot]) }

def markLoadFailed (manager : SlabOffloadingManager Key groups) (keys : List Key) :
    SlabOffloadingManager Key groups :=
  keys.foldl (markLoadFailedKey group) manager

/-- `reset_cache` of an attached manager, after the new epoch is published. -/
def resetCache (manager : SlabOffloadingManager Key groups) : SlabOffloadingManager Key groups :=
  { manager with
    epoch := manager.epoch + 1
    index := fun _ => .empty
    free := fun g => List.range (manager.counts g)
    inflightStore := .empty
    inflightLoad := .empty
    siblings := .empty
    condemned := .empty
    failedStore := ∅ }

end SlabOffloadingManager

end DgxSpark.Slab
