import DgxSpark.Offload.StoreJobs

/-
This file embeds `_lookup` of `offloading/scheduler.py`: how many tokens of a request the offloading manager has, beyond
those that are computed.
-/

namespace DgxSpark.Offload
open DgxSpark.Library

variable {Key : Type}

def cdiv (tokens size : Nat) : Nat := (tokens + size - 1) / size

/-- A group of a request: its number, its configuration and the keys of its blocks. -/
structure LookupGroup (Key : Type) where
  groupIdx : Nat
  config : GroupOffloadConfig
  offloadKeys : List Key

/-- The groups of a request in the order of the configuration. -/
def RequestOffloadState.lookupGroups {config : SchedulerOffloadConfig} (status : RequestOffloadState config Key) :
    List (LookupGroup Key) :=
  (config.kvGroupConfigs.zip status.groupStates).zipIdx.map fun ((groupConfig, groupState), groupIdx) =>
    ⟨groupIdx, groupConfig, groupState.offloadKeys⟩

namespace LookupGroup

def slides (group : LookupGroup Key) : Bool := group.config.slidingWindowSizeInBlocks.isSome

/-- The sliding window groups begin with the widest. -/
def wider (first second : LookupGroup Key) : Bool :=
  decide (second.config.slidingWindowSizeInBlocks.getD 0 ≤ first.config.slidingWindowSizeInBlocks.getD 0)

/-- `_sliding_window_groups`. -/
def slidingWindowGroups (groups : List (LookupGroup Key)) : List (LookupGroup Key) :=
  (groups.filter slides).mergeSort wider

/-- `_lookup_groups`. -/
def lookupOrder (groups : List (LookupGroup Key)) : List (LookupGroup Key) :=
  (groups.filter fun group => !group.slides) ++ slidingWindowGroups groups

end LookupGroup

section Scan

variable (manager : Key → Option Bool)

/-- The loop of `_maximal_prefix_lookup`. None is a deferred lookup. -/
def maximalPrefixLoop : List Key → Nat → Bool → Option Nat
  | [], hitCount, deferLookup => if deferLookup then none else some hitCount
  | key :: rest, hitCount, deferLookup =>
      match manager key with
      -- The loop goes on, so that the manager can start all its lookups.
      | none => maximalPrefixLoop rest (hitCount + 1) true
      | some true => maximalPrefixLoop rest (hitCount + 1) deferLookup
      | some false => if deferLookup then none else some hitCount

def maximalPrefixLookup (keys : List Key) : Option Nat := maximalPrefixLoop manager keys 0 false

/-- The loop of `_sliding_window_lookup` on the reversed keys, with as many left as the index of the key. -/
def slidingWindowLoop (slidingWindowSize : Nat) : List Key → Nat → Bool → Option Nat
  | [], consecutiveHits, deferLookup => if deferLookup then none else some consecutiveHits
  | key :: rest, consecutiveHits, deferLookup =>
      match manager key with
      | none => slidingWindowLoop slidingWindowSize rest 0 true
      | some false => slidingWindowLoop slidingWindowSize rest 0 deferLookup
      | some true =>
          if consecutiveHits + 1 = slidingWindowSize then
            if deferLookup then none else some (rest.length + slidingWindowSize)
          else slidingWindowLoop slidingWindowSize rest (consecutiveHits + 1) deferLookup

def slidingWindowLookup (keys : List Key) (slidingWindowSize : Nat) : Option Nat :=
  slidingWindowLoop manager slidingWindowSize keys.reverse 0 false

end Scan

/-- The variables of the loop. `lookupGroups` are the groups of the next round. -/
structure Search (Key : Type) where
  maxHitSizeTokens : Nat
  numHitTokens : Nat
  deferLookup : Bool
  eagleVerified : List Nat
  lookupGroups : List (LookupGroup Key)
  lookedUpSlidingWindow : Bool

/-- How the loop is left early: with no hit, or by an assertion. -/
inductive Leave where
  | noHit
  | keysMissing
deriving DecidableEq

section Loop

variable (manager : Key → Option Bool) (groups : List (LookupGroup Key)) (numTokens numComputedTokens : Nat)

/-- The blocks of a group that have hits, behind the computed ones. -/
def numHitBlocks (group : LookupGroup Key) (isEagleUnverified : Bool) (maxHitSizeTokens : Nat) : Option Nat :=
  let offloadedBlockSize := group.config.offloadedBlockSize
  match group.config.slidingWindowSizeInBlocks with
  | none =>
      let numBlocks := min (cdiv maxHitSizeTokens offloadedBlockSize) group.offloadKeys.length
      maximalPrefixLookup manager (slice group.offloadKeys (numComputedTokens / offloadedBlockSize) numBlocks)
  | some slidingWindowSizeInBlocks =>
      -- An eagle group is asked for one more block, which is dropped.
      let queryMax := if isEagleUnverified then
          min (maxHitSizeTokens + offloadedBlockSize) (group.offloadKeys.length * offloadedBlockSize)
        else maxHitSizeTokens
      let numBlocks := min (cdiv queryMax offloadedBlockSize) group.offloadKeys.length
      slidingWindowLookup manager (slice group.offloadKeys (numComputedTokens / offloadedBlockSize) numBlocks)
        (if isEagleUnverified then slidingWindowSizeInBlocks + 1 else slidingWindowSizeInBlocks)

/-- Fewer tokens than before: another round may be due. -/
def Search.shrink (search : Search Key) (group : LookupGroup Key) : Search Key :=
  let search := if group.config.isEagleGroup then search else { search with eagleVerified := [] }
  if search.deferLookup then
    { search with deferLookup := false, lookupGroups := LookupGroup.lookupOrder groups }
  else if search.lookedUpSlidingWindow ∧ search.lookupGroups.isEmpty then
    { search with lookupGroups := LookupGroup.slidingWindowGroups groups }
  else search

/-- The end of the body of the loop. -/
def Search.settle (search : Search Key) (group : LookupGroup Key) : Except Leave (Search Key) :=
  if search.maxHitSizeTokens < numComputedTokens + group.config.offloadedBlockSize then .error .noHit
  else
    let newNumHitTokens := search.maxHitSizeTokens - numComputedTokens
    let search := if newNumHitTokens < search.numHitTokens then search.shrink groups group else search
    .ok { search with
      lookedUpSlidingWindow := search.lookedUpSlidingWindow || group.slides
      numHitTokens := newNumHitTokens }

/-- The body of the loop over the groups. -/
def Search.turn (search : Search Key) (group : LookupGroup Key) : Except Leave (Search Key) :=
  let offloadedBlockSize := group.config.offloadedBlockSize
  if group.offloadKeys.length < numTokens / offloadedBlockSize then .error .keysMissing
  else
    let isEagleUnverified := group.config.isEagleGroup && !search.eagleVerified.contains group.groupIdx
    let maxHitSizeTokens := min search.maxHitSizeTokens (group.offloadKeys.length * offloadedBlockSize)
    if maxHitSizeTokens < numComputedTokens + offloadedBlockSize then .error .noHit
    else
      match numHitBlocks manager numComputedTokens group isEagleUnverified maxHitSizeTokens with
      | none =>
          { search with maxHitSizeTokens := maxHitSizeTokens, deferLookup := true }.settle groups numComputedTokens group
      | some 0 => .error .noHit
      | some (hits + 1) =>
          let numHitBlocks := if isEagleUnverified then hits else hits + 1
          { search with
            maxHitSizeTokens :=
              min maxHitSizeTokens (offloadedBlockSize * (numComputedTokens / offloadedBlockSize + numHitBlocks))
            eagleVerified :=
              if isEagleUnverified then group.groupIdx :: search.eagleVerified else search.eagleVerified }.settle groups
            numComputedTokens group

/-- A round over the groups that are due. -/
def Search.round (search : Search Key) : Except Leave (Search Key) :=
  search.lookupGroups.foldlM (Search.turn manager groups numTokens numComputedTokens)
    { search with lookupGroups := [], lookedUpSlidingWindow := false }

/-- The loop, for at most so many rounds. -/
def Search.rounds : Nat → Search Key → Option (Except Leave (Search Key))
  | 0, _ => none
  | fuel + 1, search =>
      if search.lookupGroups.isEmpty then some (.ok search)
      else
        match search.round manager groups numTokens numComputedTokens with
        | .error leave => some (.error leave)
        | .ok next => Search.rounds fuel next

/-- What the request may hit at most. -/
def maxHitSize (mambaAlignSize : Option Nat) : Nat :=
  if (groups.filter LookupGroup.slides).isEmpty then numTokens
  else
    -- The last token of the prompt is computed again. A window must still have its hit then.
    match mambaAlignSize with
    | none => numTokens - 1
    | some alignSize => (numTokens - 1) / alignSize * alignSize

def Search.start (mambaAlignSize : Option Nat) : Search Key where
  maxHitSizeTokens := maxHitSize groups numTokens mambaAlignSize
  numHitTokens := 0
  deferLookup := false
  eagleVerified := []
  lookupGroups := LookupGroup.lookupOrder groups
  lookedUpSlidingWindow := false

/-- The keys of a group for a hit of so many tokens in all. -/
def LookupGroup.hitKeys (group : LookupGroup Key) (numTokens : Nat) : List Key :=
  let keys := slice group.offloadKeys (numComputedTokens / group.config.offloadedBlockSize)
    (cdiv numTokens group.config.offloadedBlockSize)
  match group.config.slidingWindowSizeInBlocks with
  | none => keys
  | some window => keys.drop (keys.length - window)

/-- `_lookup`. The answer none delays the request. Without an answer the loop needs more rounds. -/
def lookup [DecidableEq Key] (mambaAlignSize : Option Nat) (blocksBeingLoaded : Option (List Key)) (fuel : Nat) :
    Option (Except Leave (Option Nat)) :=
  (Search.rounds manager groups numTokens numComputedTokens fuel (Search.start groups numTokens mambaAlignSize)).map
    fun
    | .error .noHit => .ok (some 0)
    | .error .keysMissing => .error .keysMissing
    | .ok search =>
        if search.deferLookup then .ok none
        else if groups.any fun group =>
            (group.hitKeys numComputedTokens (numComputedTokens + search.numHitTokens)).any
              (blocksBeingLoaded.getD []).contains then .ok none
        else .ok (some search.numHitTokens)

end Loop

end DgxSpark.Offload
