import Mathlib.Data.Finset.Dedup
import Mathlib.Data.Finset.Lattice.Basic
import DgxSpark.Library.OrderedDict

/-
This file embeds `_update_requests_with_invalid_blocks` of the scheduler, which walks the blocks of every
KV cache group.
-/

namespace DgxSpark.Scheduler

/-- What the walk reads of a group's entry of `single_type_managers`. The coordinator has already
multiplied the block size of a sharded group by its context-parallel size. -/
structure Manager where
  blockSize : Nat
  dcpWorldSize : Nat
  blockSize_pos : 0 < blockSize

def Manager.tokensPerBlock (manager : Manager) : Nat := manager.blockSize * max 1 manager.dcpWorldSize

/-- The state of the walk over the blocks of one request. -/
structure Walk where
  marked : Finset Nat
  blocksToEvict : Finset Nat
  isAffected : Bool
  markedInvalidBlock : Bool
  firstBadToken : Option Nat

/-- What the call has found so far, with the `num_computed_tokens` of the requests. -/
structure Recovery where
  affectedReqIds : Finset String
  totalAffectedTokens : Int
  blocksToEvict : Finset Nat
  marked : Finset Nat
  numComputedTokens : OrderedDict String Int

/-- A block under the walk: its first token as the walk counts, its id, and the blocks from it on. -/
structure Visit where
  badToken : Nat
  blockId : Nat
  downstream : List Nat

/-- `first_bad_token` after another bad one. -/
def earliest (first : Option Nat) (badToken : Nat) : Nat :=
  match first with
  | none => badToken
  | some first => if badToken < first then badToken else first

section Update

variable (invalidBlockIds : Finset Nat) (evictBlocks : Bool)

def visitBlock (walk : Walk) (visit : Visit) : Walk :=
  if visit.blockId ∉ invalidBlockIds then walk
  else if visit.blockId ∈ walk.marked then { walk with isAffected := true }
  else {
    marked := insert visit.blockId walk.marked
    blocksToEvict := if evictBlocks then walk.blocksToEvict ∪ visit.downstream.toFinset else walk.blocksToEvict
    isAffected := true
    markedInvalidBlock := true
    firstBadToken := some (earliest walk.firstBadToken visit.badToken) }

/-- The blocks of a group that the walk visits, in units of so many tokens. -/
def groupVisits (tokensPerBlock : Nat) (reqNumComputedTokens : Int) (reqBlockIds : List Nat) : List Visit :=
  let reqNumComputedBlocks := ((reqNumComputedTokens + tokensPerBlock - 1) / tokensPerBlock).toNat
  ((reqBlockIds.take reqNumComputedBlocks).zipIdx).map fun (blockId, idx) =>
    ⟨idx * tokensPerBlock, blockId, reqBlockIds.drop idx⟩

variable (managers : Nat → Manager) (blockIds : String → List (List Nat))
  (numScheduledTokens : OrderedDict String Nat) (blockSize : Nat)

def reqNumComputedTokens (request : String × Int) : Int :=
  request.2 - (numScheduledTokens.get? request.1).getD 0

/-- The walk over the groups of a request. -/
def walkRequest (request : String × Int) (walk : Walk) : Walk :=
  (blockIds request.1).zipIdx.foldl (fun walk (reqBlockIds, groupIdx) =>
    (groupVisits (managers groupIdx).tokensPerBlock (reqNumComputedTokens numScheduledTokens request)
      reqBlockIds).foldl (visitBlock invalidBlockIds evictBlocks) walk) walk

def updateRequest (recovery : Recovery) (request : String × Int) : Recovery :=
  let walk := walkRequest invalidBlockIds evictBlocks managers blockIds numScheduledTokens request
    ⟨recovery.marked, recovery.blocksToEvict, false, false, none⟩
  let computed := reqNumComputedTokens numScheduledTokens request
  let recovery := { recovery with marked := walk.marked, blocksToEvict := walk.blocksToEvict }
  let recovery :=
    match walk.firstBadToken with
    | none => recovery
    | some first =>
        let first := first - first % blockSize
        { recovery with
          numComputedTokens := recovery.numComputedTokens.set request.1 first
          totalAffectedTokens := recovery.totalAffectedTokens + (computed - first) }
  if walk.isAffected then
    let recovery :=
      if walk.markedInvalidBlock then recovery
      else { recovery with
        numComputedTokens := recovery.numComputedTokens.set request.1 computed
        totalAffectedTokens := recovery.totalAffectedTokens + (request.2 - computed) }
    { recovery with affectedReqIds := insert request.1 recovery.affectedReqIds }
  else recovery

def updateRequestsWithInvalidBlocks (requests : OrderedDict String Int) : Recovery :=
  requests.entries.foldl (updateRequest invalidBlockIds evictBlocks managers blockIds numScheduledTokens blockSize)
    ⟨∅, 0, ∅, ∅, requests⟩

end Update

end DgxSpark.Scheduler
