import Mathlib.Data.List.Induction
import DgxSpark.Scheduler.InvalidBlocks

/-
This file says when the recovery from invalid blocks is complete: the walk counts a sharded group's
blocks in units that are too large.
-/

namespace DgxSpark.Scheduler

variable {invalidBlockIds : Finset Nat} {evictBlocks : Bool} {managers : Nat → Manager}
  {blockIds : String → List (List Nat)} {numScheduledTokens : OrderedDict String Nat} {blockSize : Nat}

/-- A block of a request begins below the tokens computed before the step, at so many tokens a block. -/
def Covers (blockIds : String → List (List Nat)) (numScheduledTokens : OrderedDict String Nat) (unit : Nat → Nat)
    (request : String × Int) (groupIdx idx blockId : Nat) : Prop :=
  (∃ row, (blockIds request.1)[groupIdx]? = some row ∧ row[idx]? = some blockId) ∧
    ((idx * unit groupIdx : Nat) : Int) < reqNumComputedTokens numScheduledTokens request

/-- The visits of a request, group after group. -/
def visits (managers : Nat → Manager) (blockIds : String → List (List Nat))
    (numScheduledTokens : OrderedDict String Nat) (request : String × Int) : List Visit :=
  (blockIds request.1).zipIdx.flatMap fun (reqBlockIds, groupIdx) =>
    groupVisits (managers groupIdx).tokensPerBlock (reqNumComputedTokens numScheduledTokens request) reqBlockIds

theorem walkRequest_eq (request : String × Int) (walk : Walk) :
    walkRequest invalidBlockIds evictBlocks managers blockIds numScheduledTokens request walk =
      (visits managers blockIds numScheduledTokens request).foldl (visitBlock invalidBlockIds evictBlocks) walk := by
  rw [walkRequest, visits, List.foldl_flatMap]

theorem Manager.tokensPerBlock_pos (manager : Manager) : 0 < manager.tokensPerBlock :=
  Nat.mul_pos manager.blockSize_pos (lt_of_lt_of_le one_pos (le_max_left _ _))

theorem Manager.blockSize_le (manager : Manager) : manager.blockSize ≤ manager.tokensPerBlock :=
  Nat.le_mul_of_pos_right _ (lt_of_lt_of_le one_pos (le_max_left _ _))

/-- A block is among the first ones that cover the tokens exactly when it begins below them. -/
theorem lt_blocks_iff {unit idx : Nat} {computed : Int} (positive : 0 < unit) :
    idx < ((computed + unit - 1) / unit).toNat ↔ ((idx * unit : Nat) : Int) < computed := by
  rw [Int.lt_toNat, ← Int.add_one_le_iff, Int.le_ediv_iff_mul_le (by exact_mod_cast positive)]
  push_cast
  constructor
  · intro below
    nlinarith
  · intro below
    nlinarith

theorem mem_groupVisits {unit : Nat} {computed : Int} {row : List Nat} {visit : Visit} (positive : 0 < unit) :
    visit ∈ groupVisits unit computed row ↔ ∃ idx blockId, row[idx]? = some blockId ∧
      ((idx * unit : Nat) : Int) < computed ∧ visit = ⟨idx * unit, blockId, row.drop idx⟩ := by
  simp only [groupVisits, List.mem_map, Prod.exists]
  constructor
  · rintro ⟨blockId, idx, inside, rfl⟩
    rw [List.mk_mem_zipIdx_iff_getElem?, List.getElem?_take] at inside
    split at inside
    case isTrue below => exact ⟨idx, blockId, inside, (lt_blocks_iff positive).mp below, rfl⟩
    case isFalse => cases inside
  · rintro ⟨idx, blockId, place, below, rfl⟩
    refine ⟨blockId, idx, ?_, rfl⟩
    rw [List.mk_mem_zipIdx_iff_getElem?, List.getElem?_take, if_pos ((lt_blocks_iff positive).mpr below)]
    exact place

/-- The visits are the blocks that begin below the computed tokens in the units of the walk. -/
theorem mem_visits {request : String × Int} {visit : Visit} :
    visit ∈ visits managers blockIds numScheduledTokens request ↔ ∃ groupIdx row idx blockId,
      (blockIds request.1)[groupIdx]? = some row ∧ row[idx]? = some blockId ∧
        ((idx * (managers groupIdx).tokensPerBlock : Nat) : Int) < reqNumComputedTokens numScheduledTokens request ∧
          visit = ⟨idx * (managers groupIdx).tokensPerBlock, blockId, row.drop idx⟩ := by
  simp only [visits, List.mem_flatMap, Prod.exists, List.mk_mem_zipIdx_iff_getElem?]
  constructor
  · rintro ⟨row, groupIdx, place, inside⟩
    obtain ⟨idx, blockId, found, below, same⟩ := (mem_groupVisits (managers groupIdx).tokensPerBlock_pos).mp inside
    exact ⟨groupIdx, row, idx, blockId, place, found, below, same⟩
  · rintro ⟨groupIdx, row, idx, blockId, place, found, below, same⟩
    exact ⟨row, groupIdx, place, (mem_groupVisits (managers groupIdx).tokensPerBlock_pos).mpr
      ⟨idx, blockId, found, below, same⟩⟩

/-- The visit of an invalid block that no request before has marked. -/
def Visit.Fresh (visit : Visit) (invalidBlockIds marked : Finset Nat) : Prop :=
  visit.blockId ∈ invalidBlockIds ∧ visit.blockId ∉ marked

/-- The walk after some visits, begun with some blocks marked. -/
structure Walked (invalidBlockIds marked : Finset Nat) (visited : List Visit) (walk : Walk) : Prop where
  marks : ∀ blockId, blockId ∈ walk.marked ↔
    blockId ∈ marked ∨ ∃ visit ∈ visited, visit.blockId = blockId ∧ blockId ∈ invalidBlockIds
  affected : walk.isAffected = true ↔ ∃ visit ∈ visited, visit.blockId ∈ invalidBlockIds
  newly : walk.markedInvalidBlock = true ↔ ∃ visit ∈ visited, visit.Fresh invalidBlockIds marked
  first : ∀ visit ∈ visited, visit.Fresh invalidBlockIds marked →
    ∃ first, walk.firstBadToken = some first ∧ first ≤ visit.badToken
  found : ∀ first, walk.firstBadToken = some first →
    ∃ visit ∈ visited, visit.Fresh invalidBlockIds marked ∧ visit.badToken = first

theorem exists_concat {Item : Type} {items : List Item} {last : Item} {holds : Item → Prop} :
    (∃ item ∈ items ++ [last], holds item) ↔ (∃ item ∈ items, holds item) ∨ holds last := by
  simp only [List.mem_append, List.mem_singleton, or_and_right, exists_or, exists_eq_left]

theorem earliest_le (first : Option Nat) (badToken : Nat) :
    earliest first badToken ≤ badToken ∧ ∀ old, first = some old → earliest first badToken ≤ old := by
  cases first with
  | none => exact ⟨le_rfl, fun old same => absurd same (Option.some_ne_none old).symm⟩
  | some old =>
      simp only [earliest, Option.some.injEq, forall_eq']
      split <;> omega

theorem earliest_cases (first : Option Nat) (badToken : Nat) :
    earliest first badToken = badToken ∨ first = some (earliest first badToken) := by
  cases first with
  | none => exact .inl rfl
  | some old =>
      simp only [earliest, Option.some.injEq]
      split
      · exact .inl rfl
      · exact .inr rfl

/-- One more visit. A block that is visited twice stands at one place. -/
theorem Walked.visit {marked : Finset Nat} {visited : List Visit} {walk : Walk} {visit : Visit}
    (walked : Walked invalidBlockIds marked visited walk)
    (placed : ∀ other ∈ visited, visit.blockId ∈ invalidBlockIds → other.blockId = visit.blockId →
      other.badToken = visit.badToken) :
    Walked invalidBlockIds marked (visited ++ [visit]) (visitBlock invalidBlockIds evictBlocks walk visit) := by
  unfold visitBlock
  split
  case isTrue valid =>
    have stale : ¬visit.Fresh invalidBlockIds marked := fun fresh => valid fresh.1
    constructor
    · intro blockId
      rw [exists_concat, walked.marks]
      have other : ¬(visit.blockId = blockId ∧ blockId ∈ invalidBlockIds) := by
        rintro ⟨rfl, invalid⟩
        exact valid invalid
      simp only [other, or_false]
    · rw [exists_concat, walked.affected]
      simp only [valid, or_false]
    · rw [exists_concat, walked.newly]
      simp only [stale, or_false]
    · intro other inside fresh
      rcases List.mem_append.mp inside with earlier | last
      · exact walked.first other earlier fresh
      · cases List.mem_singleton.mp last
        exact absurd fresh stale
    · intro first same
      obtain ⟨other, inside, fresh⟩ := walked.found first same
      exact ⟨other, List.mem_append_left _ inside, fresh⟩
  case isFalse invalid =>
    rw [not_not] at invalid
    split
    case isTrue known =>
      -- The block was marked by an earlier request, or is seen again.
      have again : visit.Fresh invalidBlockIds marked →
          ∃ other ∈ visited, other.Fresh invalidBlockIds marked ∧ other.badToken = visit.badToken := by
        intro fresh
        rcases (walked.marks visit.blockId).mp known with before | ⟨other, inside, same, _⟩
        · exact absurd before fresh.2
        · exact ⟨other, inside, ⟨same ▸ invalid, same ▸ fresh.2⟩, placed other inside invalid same⟩
      constructor
      · intro blockId
        rw [exists_concat, walked.marks]
        constructor
        · rintro (before | earlier)
          · exact .inl before
          · exact .inr (.inl earlier)
        · rintro (before | earlier | ⟨rfl, _⟩)
          · exact .inl before
          · exact .inr earlier
          · exact (walked.marks visit.blockId).mp known
      · rw [exists_concat]
        exact ⟨fun _ => .inr invalid, fun _ => rfl⟩
      · rw [exists_concat, walked.newly]
        constructor
        · exact .inl
        · rintro (earlier | fresh)
          · exact earlier
          · obtain ⟨other, inside, fresh, _⟩ := again fresh
            exact ⟨other, inside, fresh⟩
      · intro other inside fresh
        rcases List.mem_append.mp inside with earlier | last
        · exact walked.first other earlier fresh
        · cases List.mem_singleton.mp last
          obtain ⟨same, inside, fresh, place⟩ := again fresh
          rw [← place]
          exact walked.first same inside fresh
      · intro first same
        obtain ⟨other, inside, fresh⟩ := walked.found first same
        exact ⟨other, List.mem_append_left _ inside, fresh⟩
    case isFalse unknown =>
      have fresh : visit.Fresh invalidBlockIds marked :=
        ⟨invalid, fun before => unknown ((walked.marks visit.blockId).mpr (.inl before))⟩
      obtain ⟨below, older⟩ := earliest_le walk.firstBadToken visit.badToken
      constructor
      · intro blockId
        rw [exists_concat, Finset.mem_insert, walked.marks]
        constructor
        · rintro (rfl | before | earlier)
          · exact .inr (.inr ⟨rfl, invalid⟩)
          · exact .inl before
          · exact .inr (.inl earlier)
        · rintro (before | earlier | ⟨rfl, _⟩)
          · exact .inr (.inl before)
          · exact .inr (.inr earlier)
          · exact .inl rfl
      · rw [exists_concat]
        exact ⟨fun _ => .inr invalid, fun _ => rfl⟩
      · rw [exists_concat]
        exact ⟨fun _ => .inr fresh, fun _ => rfl⟩
      · intro other inside freshOther
        refine ⟨_, rfl, ?_⟩
        rcases List.mem_append.mp inside with earlier | last
        · obtain ⟨first, same, low⟩ := walked.first other earlier freshOther
          exact (older first same).trans low
        · cases List.mem_singleton.mp last
          exact below
      · intro first same
        cases same
        rcases earliest_cases walk.firstBadToken visit.badToken with here | before
        · exact ⟨visit, List.mem_append_right _ (List.mem_singleton.mpr rfl), fresh, here.symm⟩
        · obtain ⟨other, inside, freshOther⟩ := walked.found _ before
          exact ⟨other, List.mem_append_left _ inside, freshOther⟩

/-- The walk over all visits of a request. -/
theorem walked_all {marked blocksToEvict : Finset Nat} {visited : List Visit}
    (placed : ∀ visit ∈ visited, ∀ other ∈ visited, visit.blockId ∈ invalidBlockIds →
      other.blockId = visit.blockId → other.badToken = visit.badToken) :
    Walked invalidBlockIds marked visited
      (visited.foldl (visitBlock invalidBlockIds evictBlocks) ⟨marked, blocksToEvict, false, false, none⟩) := by
  induction visited using List.reverseRecOn with
  | nil => constructor <;> simp
  | append_singleton before visit ih =>
      rw [List.foldl_append]
      have inside : visit ∈ before ++ [visit] := List.mem_append_right _ (List.mem_singleton.mpr rfl)
      have earlier := ih fun first here second there => placed first (List.mem_append_left _ here) second
        (List.mem_append_left _ there)
      exact earlier.visit fun other there => placed visit inside other (List.mem_append_left _ there)

section Update

variable {recovery : Recovery} {request : String × Int}

/-- The walk that the update of a request makes. -/
def walkAfter (invalidBlockIds : Finset Nat) (evictBlocks : Bool) (managers : Nat → Manager)
    (blockIds : String → List (List Nat)) (numScheduledTokens : OrderedDict String Nat) (recovery : Recovery)
    (request : String × Int) : Walk :=
  walkRequest invalidBlockIds evictBlocks managers blockIds numScheduledTokens request
    ⟨recovery.marked, recovery.blocksToEvict, false, false, none⟩

/-- What the update of a request leaves of its computed tokens. -/
def tokensAfter (numScheduledTokens : OrderedDict String Nat) (blockSize : Nat) (request : String × Int) (walk : Walk)
    (tokens : Option Int) : Option Int :=
  match walk.firstBadToken with
  | some first => if walk.isAffected ∧ ¬walk.markedInvalidBlock then some (reqNumComputedTokens numScheduledTokens request)
      else some ((first - first % blockSize : Nat) : Int)
  | none => if walk.isAffected ∧ ¬walk.markedInvalidBlock then some (reqNumComputedTokens numScheduledTokens request)
      else tokens

theorem updateRequest_spec :
    let walk := walkAfter invalidBlockIds evictBlocks managers blockIds numScheduledTokens recovery request
    let next := updateRequest invalidBlockIds evictBlocks managers blockIds numScheduledTokens blockSize recovery request
    next.marked = walk.marked ∧
      (∀ reqId, reqId ∈ next.affectedReqIds ↔
        reqId ∈ recovery.affectedReqIds ∨ reqId = request.1 ∧ walk.isAffected = true) ∧
      (∀ reqId, reqId ≠ request.1 → next.numComputedTokens.get? reqId = recovery.numComputedTokens.get? reqId) ∧
      next.numComputedTokens.get? request.1 =
        tokensAfter numScheduledTokens blockSize request walk (recovery.numComputedTokens.get? request.1) := by
  intro walk next
  simp only [next, updateRequest, tokensAfter]
  rw [show walkRequest invalidBlockIds evictBlocks managers blockIds numScheduledTokens request
    ⟨recovery.marked, recovery.blocksToEvict, false, false, none⟩ = walk from rfl]
  cases walk.firstBadToken <;> cases walk.isAffected <;> cases walk.markedInvalidBlock
  all_goals simp +contextual [OrderedDict.get?_set_of_ne, or_comm]

end Update

/-- An invalid block that several requests hold stands at the same place in all of them. -/
def SharedEqually (invalidBlockIds : Finset Nat) (blockIds : String → List (List Nat))
    (requests : OrderedDict String Int) : Prop :=
  ∀ first ∈ requests.keys, ∀ second ∈ requests.keys, ∀ blockId ∈ invalidBlockIds,
    ∀ (groupIdx : Nat) (row : List Nat) (idx otherIdx : Nat) (other : List Nat) (place : Nat),
    (blockIds first)[groupIdx]? = some row → row[idx]? = some blockId →
      (blockIds second)[otherIdx]? = some other → other[place]? = some blockId → groupIdx = otherIdx ∧ idx = place

theorem SharedEqually.visits {requests : OrderedDict String Int}
    (shared : SharedEqually invalidBlockIds blockIds requests) {request : String × Int}
    (inside : request ∈ requests.entries) :
    ∀ visit ∈ visits managers blockIds numScheduledTokens request,
      ∀ other ∈ visits managers blockIds numScheduledTokens request, visit.blockId ∈ invalidBlockIds →
        other.blockId = visit.blockId → other.badToken = visit.badToken := by
  have key : request.1 ∈ requests.keys := List.mem_map_of_mem inside
  intro visit here other there invalid same
  obtain ⟨groupIdx, row, idx, blockId, group, place, _, rfl⟩ := mem_visits.mp here
  obtain ⟨otherIdx, otherRow, otherPlace, otherId, otherGroup, otherFound, _, rfl⟩ := mem_visits.mp there
  cases same
  obtain ⟨rfl, rfl⟩ := shared _ key _ key _ invalid _ _ _ _ _ _ group place otherGroup otherFound
  rfl

section Run

variable (invalidBlockIds evictBlocks managers blockIds numScheduledTokens blockSize)

/-- The tokens of a block before it in its row, as the coordinator counts and as the walk counts. -/
def CoversEffective : String × Int → Nat → Nat → Nat → Prop :=
  Covers blockIds numScheduledTokens fun groupIdx => (managers groupIdx).blockSize

def CoversWalked : String × Int → Nat → Nat → Nat → Prop :=
  Covers blockIds numScheduledTokens fun groupIdx => (managers groupIdx).tokensPerBlock

/-- The call after some of the requests. -/
def recoverAfter (requests : OrderedDict String Int) (before : List (String × Int)) : Recovery :=
  before.foldl (updateRequest invalidBlockIds evictBlocks managers blockIds numScheduledTokens blockSize)
    ⟨∅, 0, ∅, ∅, requests⟩

end Run

theorem CoversWalked.effective {request : String × Int} {groupIdx idx blockId : Nat}
    (walked : CoversWalked managers blockIds numScheduledTokens request groupIdx idx blockId) :
    CoversEffective managers blockIds numScheduledTokens request groupIdx idx blockId := by
  refine ⟨walked.1, lt_of_le_of_lt ?_ walked.2⟩
  exact_mod_cast Nat.mul_le_mul_left idx (managers groupIdx).blockSize_le

theorem exists_visit {request : String × Int} (holds : Nat → Nat → Prop) :
    (∃ visit ∈ visits managers blockIds numScheduledTokens request, holds visit.badToken visit.blockId) ↔
      ∃ groupIdx idx blockId, CoversWalked managers blockIds numScheduledTokens request groupIdx idx blockId ∧
        holds (idx * (managers groupIdx).tokensPerBlock) blockId := by
  constructor
  · rintro ⟨visit, inside, held⟩
    obtain ⟨groupIdx, row, idx, blockId, group, place, below, rfl⟩ := mem_visits.mp inside
    exact ⟨groupIdx, idx, blockId, ⟨⟨row, group, place⟩, below⟩, held⟩
  · rintro ⟨groupIdx, idx, blockId, ⟨⟨row, group, place⟩, below⟩, held⟩
    exact ⟨_, mem_visits.mpr ⟨groupIdx, row, idx, blockId, group, place, below, rfl⟩, held⟩

variable {requests : OrderedDict String Int}

/-- The walk of a request after the requests before it. -/
theorem walkAfter_walked (shared : SharedEqually invalidBlockIds blockIds requests) {request : String × Int}
    (inside : request ∈ requests.entries) (recovery : Recovery) :
    Walked invalidBlockIds recovery.marked (visits managers blockIds numScheduledTokens request)
      (walkAfter invalidBlockIds evictBlocks managers blockIds numScheduledTokens recovery request) := by
  rw [walkAfter, walkRequest_eq]
  exact walked_all (shared.visits inside)

/-- The marked blocks are the invalid ones that the walks of the requests before have reached. -/
theorem recoverAfter_marked (shared : SharedEqually invalidBlockIds blockIds requests) {before : List (String × Int)}
    (inside : ∀ request ∈ before, request ∈ requests.entries) (blockId : Nat) :
    blockId ∈ (recoverAfter invalidBlockIds evictBlocks managers blockIds numScheduledTokens blockSize requests
        before).marked ↔
      blockId ∈ invalidBlockIds ∧ ∃ earlier ∈ before, ∃ groupIdx idx,
        CoversWalked managers blockIds numScheduledTokens earlier groupIdx idx blockId := by
  induction before using List.reverseRecOn with
  | nil => simp [recoverAfter]
  | append_singleton before request ih =>
      have earlier := ih fun other there => inside other (List.mem_append_left _ there)
      have here := inside request (List.mem_append_right _ (List.mem_singleton.mpr rfl))
      rw [recoverAfter, List.foldl_append, List.foldl_cons, List.foldl_nil, updateRequest_spec.1,
        (walkAfter_walked shared here _).marks, exists_concat]
      change blockId ∈ (recoverAfter invalidBlockIds evictBlocks managers blockIds numScheduledTokens blockSize
        requests before).marked ∨ _ ↔ _
      rw [earlier]
      have visited : (∃ visit ∈ visits managers blockIds numScheduledTokens request,
          visit.blockId = blockId ∧ blockId ∈ invalidBlockIds) ↔
            blockId ∈ invalidBlockIds ∧
              ∃ groupIdx idx, CoversWalked managers blockIds numScheduledTokens request groupIdx idx blockId := by
        rw [exists_visit fun _ other => other = blockId ∧ blockId ∈ invalidBlockIds]
        constructor
        · rintro ⟨groupIdx, idx, _, covers, rfl, invalid⟩
          exact ⟨invalid, groupIdx, idx, covers⟩
        · rintro ⟨invalid, groupIdx, idx, covers⟩
          exact ⟨groupIdx, idx, blockId, covers, rfl, invalid⟩
      rw [visited]
      constructor
      · rintro (⟨invalid, before⟩ | ⟨invalid, here⟩)
        · exact ⟨invalid, .inl before⟩
        · exact ⟨invalid, .inr here⟩
      · rintro ⟨invalid, before | here⟩
        · exact .inl ⟨invalid, before⟩
        · exact .inr ⟨invalid, here⟩

/-- The updates of other requests change nothing of a request. -/
theorem foldl_other {items : List (String × Int)} {reqId : String} (other : reqId ∉ items.map Prod.fst)
    (recovery : Recovery) :
    let last := items.foldl
      (updateRequest invalidBlockIds evictBlocks managers blockIds numScheduledTokens blockSize) recovery
    (reqId ∈ last.affectedReqIds ↔ reqId ∈ recovery.affectedReqIds) ∧
      last.numComputedTokens.get? reqId = recovery.numComputedTokens.get? reqId := by
  induction items generalizing recovery with
  | nil => exact ⟨Iff.rfl, rfl⟩
  | cons head rest ih =>
      rw [List.map_cons, List.mem_cons, not_or] at other
      obtain ⟨_, affected, kept, _⟩ := @updateRequest_spec invalidBlockIds evictBlocks managers blockIds
        numScheduledTokens blockSize recovery head
      obtain ⟨same, tokens⟩ := ih other.2 (updateRequest invalidBlockIds evictBlocks managers blockIds
        numScheduledTokens blockSize recovery head)
      refine ⟨?_, tokens.trans (kept reqId other.1)⟩
      rw [List.foldl_cons, same, affected]
      simp [other.1]

/-- What the call makes of a request, told from its own walk. -/
theorem recovered_request {before after : List (String × Int)} {request : String × Int}
    (split : requests.entries = before ++ request :: after) :
    let result := updateRequestsWithInvalidBlocks invalidBlockIds evictBlocks managers blockIds numScheduledTokens
      blockSize requests
    let walk := walkAfter invalidBlockIds evictBlocks managers blockIds numScheduledTokens
      (recoverAfter invalidBlockIds evictBlocks managers blockIds numScheduledTokens blockSize requests before) request
    (request.1 ∈ result.affectedReqIds ↔ walk.isAffected = true) ∧
      result.numComputedTokens.get? request.1 =
        tokensAfter numScheduledTokens blockSize request walk (some request.2) := by
  intro result walk
  have distinct := requests.nodup
  rw [split, List.map_append, List.map_cons, List.nodup_append, List.nodup_cons] at distinct
  have early : request.1 ∉ before.map Prod.fst := fun inside =>
    distinct.2.2 _ inside _ List.mem_cons_self rfl
  have start : requests.get? request.1 = some request.2 :=
    OrderedDict.get?_eq_some_iff.mpr (by simp [split])
  obtain ⟨fresh, kept⟩ := @foldl_other invalidBlockIds evictBlocks managers blockIds numScheduledTokens blockSize before
    request.1 early ⟨∅, 0, ∅, ∅, requests⟩
  obtain ⟨_, affected, _, tokens⟩ := @updateRequest_spec invalidBlockIds evictBlocks managers blockIds
    numScheduledTokens blockSize
    (recoverAfter invalidBlockIds evictBlocks managers blockIds numScheduledTokens blockSize requests before) request
  obtain ⟨same, final⟩ := @foldl_other invalidBlockIds evictBlocks managers blockIds numScheduledTokens blockSize after
    request.1 distinct.2.1.1 (updateRequest invalidBlockIds evictBlocks managers blockIds numScheduledTokens blockSize
      (recoverAfter invalidBlockIds evictBlocks managers blockIds numScheduledTokens blockSize requests before) request)
  have whole : result = after.foldl
      (updateRequest invalidBlockIds evictBlocks managers blockIds numScheduledTokens blockSize)
      (updateRequest invalidBlockIds evictBlocks managers blockIds numScheduledTokens blockSize
        (recoverAfter invalidBlockIds evictBlocks managers blockIds numScheduledTokens blockSize requests before)
        request) := by
    simp only [result, updateRequestsWithInvalidBlocks, recoverAfter]
    rw [split, List.foldl_append, List.foldl_cons]
  rw [whole]
  constructor
  · rw [same, affected]
    have absent : request.1 ∉ (recoverAfter invalidBlockIds evictBlocks managers blockIds numScheduledTokens blockSize
        requests before).affectedReqIds := fun inside => Finset.notMem_empty _ (fresh.mp inside)
    simp [absent, walk]
  · have begun : (recoverAfter invalidBlockIds evictBlocks managers blockIds numScheduledTokens blockSize requests
        before).numComputedTokens.get? request.1 = some request.2 := kept.trans start
    rw [final, tokens, begun]

/-- A token aligned down to the scheduler's block. -/
def alignDown (blockSize token : Nat) : Nat := token - token % blockSize

theorem alignDown_mono (blockSize : Nat) {first second : Nat} (order : first ≤ second) :
    alignDown blockSize first ≤ alignDown blockSize second := by
  have whole : ∀ token, alignDown blockSize token = blockSize * (token / blockSize) := by
    intro token
    have parts := Nat.div_add_mod token blockSize
    rw [alignDown]
    omega
  rw [whole, whole]
  exact Nat.mul_le_mul_left _ (Nat.div_le_div_right order)

/-- A walk leaves a request below a place that it had computed exactly when one of its fresh invalid
blocks, aligned down, is. -/
theorem tokensAfter_le {marked : Finset Nat} {visited : List Visit} {walk : Walk} {request : String × Int}
    (walked : Walked invalidBlockIds marked visited walk) {place : Nat}
    (computed : (place : Int) < reqNumComputedTokens numScheduledTokens request) :
    (∃ tokens, tokensAfter numScheduledTokens blockSize request walk (some request.2) = some tokens ∧ tokens ≤ place) ↔
      ∃ visit ∈ visited, visit.Fresh invalidBlockIds marked ∧ alignDown blockSize visit.badToken ≤ place := by
  have total : reqNumComputedTokens numScheduledTokens request ≤ request.2 := by
    rw [reqNumComputedTokens]
    omega
  unfold tokensAfter
  cases first : walk.firstBadToken with
  | none =>
      constructor
      · rintro ⟨tokens, same, low⟩
        simp only at same
        split at same <;> cases same <;> omega
      · rintro ⟨visit, inside, fresh, _⟩
        obtain ⟨_, same, _⟩ := walked.first visit inside fresh
        cases first.symm.trans same
  | some least =>
      obtain ⟨visit, inside, fresh, same⟩ := walked.found least first
      have newly : walk.markedInvalidBlock = true := walked.newly.mpr ⟨visit, inside, fresh⟩
      simp only [newly, not_true, and_false, if_false, Option.some.injEq, exists_eq_left', Nat.cast_le]
      constructor
      · intro low
        exact ⟨visit, inside, fresh, by rw [same]; exact low⟩
      · rintro ⟨other, there, freshOther, low⟩
        obtain ⟨lower, value, below⟩ := walked.first other there freshOther
        cases first.symm.trans value
        exact (alignDown_mono blockSize below).trans low

section Recovered

variable (invalidBlockIds evictBlocks managers blockIds numScheduledTokens blockSize requests)

/-- The recovery is complete: the affected requests are those with an invalid block among the blocks of
their computed tokens, and the first request that reaches such a block computes from it or earlier on. -/
def Recovered : Prop :=
  let result := updateRequestsWithInvalidBlocks invalidBlockIds evictBlocks managers blockIds numScheduledTokens
    blockSize requests
  ∀ before request after, requests.entries = before ++ request :: after →
    (request.1 ∈ result.affectedReqIds ↔ ∃ groupIdx idx, ∃ blockId ∈ invalidBlockIds,
      CoversEffective managers blockIds numScheduledTokens request groupIdx idx blockId) ∧
    ∀ groupIdx idx, ∀ blockId ∈ invalidBlockIds,
      CoversEffective managers blockIds numScheduledTokens request groupIdx idx blockId →
      (∀ earlier ∈ before, ∀ otherGroup place,
        ¬CoversEffective managers blockIds numScheduledTokens earlier otherGroup place blockId) →
      ∃ tokens : Int, result.numComputedTokens.get? request.1 = some tokens ∧
        tokens ≤ (idx * (managers groupIdx).blockSize : Nat)

/-- The larger units of the walk do no harm: a request with an invalid block has one that begins below its
computed tokens in these units too, and a request that is the first to reach an invalid block also reaches
one in these units, before the requests ahead of it do, that begins no later when it is aligned down. -/
def Rescued : Prop :=
  ∀ before request after, requests.entries = before ++ request :: after →
    ((∃ groupIdx idx, ∃ blockId ∈ invalidBlockIds,
        CoversEffective managers blockIds numScheduledTokens request groupIdx idx blockId) →
      ∃ groupIdx idx, ∃ blockId ∈ invalidBlockIds,
        CoversWalked managers blockIds numScheduledTokens request groupIdx idx blockId) ∧
    ∀ groupIdx idx, ∀ blockId ∈ invalidBlockIds,
      CoversEffective managers blockIds numScheduledTokens request groupIdx idx blockId →
      (∀ earlier ∈ before, ∀ otherGroup place,
        ¬CoversEffective managers blockIds numScheduledTokens earlier otherGroup place blockId) →
      ∃ walkedGroup place, ∃ walkedId ∈ invalidBlockIds,
        CoversWalked managers blockIds numScheduledTokens request walkedGroup place walkedId ∧
        (∀ earlier ∈ before, ∀ otherGroup otherPlace,
          ¬CoversWalked managers blockIds numScheduledTokens earlier otherGroup otherPlace walkedId) ∧
        alignDown blockSize (place * (managers walkedGroup).tokensPerBlock) ≤ idx * (managers groupIdx).blockSize

end Recovered

theorem affected_iff (shared : SharedEqually invalidBlockIds blockIds requests) {before after : List (String × Int)}
    {request : String × Int} (split : requests.entries = before ++ request :: after) :
    request.1 ∈ (updateRequestsWithInvalidBlocks invalidBlockIds evictBlocks managers blockIds numScheduledTokens
        blockSize requests).affectedReqIds ↔
      ∃ groupIdx idx, ∃ blockId ∈ invalidBlockIds,
        CoversWalked managers blockIds numScheduledTokens request groupIdx idx blockId := by
  have inside : request ∈ requests.entries := by simp [split]
  rw [(recovered_request split).1, (walkAfter_walked shared inside _).affected,
    exists_visit fun _ blockId => blockId ∈ invalidBlockIds]
  constructor
  · rintro ⟨groupIdx, idx, blockId, covers, invalid⟩
    exact ⟨groupIdx, idx, blockId, invalid, covers⟩
  · rintro ⟨groupIdx, idx, blockId, invalid, covers⟩
    exact ⟨groupIdx, idx, blockId, covers, invalid⟩

theorem truncated_iff (shared : SharedEqually invalidBlockIds blockIds requests) {before after : List (String × Int)}
    {request : String × Int} (split : requests.entries = before ++ request :: after) {place : Nat}
    (computed : (place : Int) < reqNumComputedTokens numScheduledTokens request) :
    (∃ tokens, (updateRequestsWithInvalidBlocks invalidBlockIds evictBlocks managers blockIds numScheduledTokens
        blockSize requests).numComputedTokens.get? request.1 = some tokens ∧ tokens ≤ place) ↔
      ∃ walkedGroup idx, ∃ walkedId ∈ invalidBlockIds,
        CoversWalked managers blockIds numScheduledTokens request walkedGroup idx walkedId ∧
        (∀ earlier ∈ before, ∀ otherGroup otherPlace,
          ¬CoversWalked managers blockIds numScheduledTokens earlier otherGroup otherPlace walkedId) ∧
        alignDown blockSize (idx * (managers walkedGroup).tokensPerBlock) ≤ place := by
  have inside : request ∈ requests.entries := by simp [split]
  have early : ∀ earlier ∈ before, earlier ∈ requests.entries := fun earlier there => by simp [split, there]
  rw [(recovered_request split).2, tokensAfter_le (walkAfter_walked shared inside _) computed]
  refine (exists_visit fun badToken blockId => (blockId ∈ invalidBlockIds ∧ blockId ∉ (recoverAfter invalidBlockIds
    evictBlocks managers blockIds numScheduledTokens blockSize requests before).marked) ∧
      alignDown blockSize badToken ≤ place).trans ?_
  have unmarked : ∀ blockId ∈ invalidBlockIds, blockId ∉ (recoverAfter invalidBlockIds evictBlocks managers blockIds
      numScheduledTokens blockSize requests before).marked ↔ ∀ earlier ∈ before, ∀ otherGroup otherPlace,
        ¬CoversWalked managers blockIds numScheduledTokens earlier otherGroup otherPlace blockId := by
    intro blockId invalid
    rw [recoverAfter_marked shared early]
    simp only [invalid, true_and, not_exists, not_and]
  constructor
  · rintro ⟨groupIdx, idx, blockId, covers, ⟨invalid, fresh⟩, low⟩
    exact ⟨groupIdx, idx, blockId, invalid, covers, (unmarked blockId invalid).mp fresh, low⟩
  · rintro ⟨groupIdx, idx, blockId, invalid, covers, fresh, low⟩
    exact ⟨groupIdx, idx, blockId, covers, ⟨invalid, (unmarked blockId invalid).mpr fresh⟩, low⟩

/-- The recovery is complete exactly when the larger units of the walk do no harm. -/
theorem invalid_blocks_recovered_iff (invalidBlockIds : Finset Nat) (evictBlocks : Bool) (managers : Nat → Manager)
    (blockIds : String → List (List Nat)) (numScheduledTokens : OrderedDict String Nat) (blockSize : Nat)
    (requests : OrderedDict String Int) (shared : SharedEqually invalidBlockIds blockIds requests) :
    Recovered invalidBlockIds evictBlocks managers blockIds numScheduledTokens blockSize requests ↔
      Rescued invalidBlockIds managers blockIds numScheduledTokens blockSize requests := by
  simp only [Recovered, Rescued]
  apply forall_congr'
  intro before
  apply forall_congr'
  intro request
  apply forall_congr'
  intro after
  apply imp_congr_right
  intro split
  apply and_congr
  · rw [affected_iff shared split]
    constructor
    · exact fun same => same.mpr
    · refine fun reaches => ⟨?_, reaches⟩
      rintro ⟨groupIdx, idx, blockId, invalid, walked⟩
      exact ⟨groupIdx, idx, blockId, invalid, walked.effective⟩
  · apply forall_congr'
    intro groupIdx
    apply forall_congr'
    intro idx
    apply forall_congr'
    intro blockId
    apply imp_congr_right
    intro invalid
    apply imp_congr_right
    intro covers
    apply imp_congr_right
    intro first
    exact truncated_iff shared split covers.2

/-- Where no group is sharded, the walk counts as the coordinator does and the recovery is complete. -/
theorem rescued_of_replicated (replicated : ∀ groupIdx, (managers groupIdx).dcpWorldSize ≤ 1) :
    Rescued invalidBlockIds managers blockIds numScheduledTokens blockSize requests := by
  have units : ∀ groupIdx, (managers groupIdx).tokensPerBlock = (managers groupIdx).blockSize := by
    intro groupIdx
    rw [Manager.tokensPerBlock, max_eq_left (replicated groupIdx), Nat.mul_one]
  have same : CoversWalked managers blockIds numScheduledTokens = CoversEffective managers blockIds numScheduledTokens := by
    unfold CoversWalked CoversEffective
    simp only [units]
  intro before request after _
  rw [same]
  refine ⟨id, ?_⟩
  intro groupIdx idx blockId invalid covers first
  refine ⟨groupIdx, idx, blockId, invalid, covers, first, ?_⟩
  rw [units]
  exact Nat.sub_le _ _

/-- A target group sharded over four ranks and a replicated drafter group. -/
def shardedManagers (groupIdx : Nat) : Manager :=
  if groupIdx = 0 then ⟨256, 4, by decide⟩ else ⟨64, 1, by decide⟩

def oneTable (_ : String) : List (List Nat) := [[10, 11, 12, 13], (List.range 16).map (100 + ·)]

def oneRequest : OrderedDict String Int := ⟨[("r", 1024)], by decide⟩

/-- The third block of the target group covers tokens 512 to 767 of the 1024 that are computed. -/
theorem invalid_blocks_missed :
    ¬Recovered {12} true shardedManagers oneTable .empty 256 oneRequest := by
  intro recovered
  have affected := (recovered [] ("r", 1024) [] rfl).1.mpr
    ⟨0, 2, 12, by decide, ⟨[10, 11, 12, 13], rfl, rfl⟩, by decide⟩
  exact absurd affected (by decide)

theorem oneTable_place {reqId : String} {groupIdx idx : Nat} {row : List Nat}
    (group : (oneTable reqId)[groupIdx]? = some row) (place : row[idx]? = some 12) : groupIdx = 0 ∧ idx = 2 := by
  match groupIdx with
  | 0 =>
      cases group
      refine ⟨rfl, ?_⟩
      match idx with
      | 0 => cases place
      | 1 => cases place
      | 2 => rfl
      | 3 => cases place
      | _ + 4 => cases place
  | 1 =>
      cases group
      obtain ⟨other, _, same⟩ := List.mem_map.mp (List.mem_of_getElem? place)
      omega
  | _ + 2 => cases group

theorem oneTable_shared : SharedEqually {12} oneTable oneRequest := by
  intro first _ second _ blockId invalid groupIdx row idx otherIdx other place group found otherGroup otherFound
  cases Finset.mem_singleton.mp invalid
  obtain ⟨rfl, rfl⟩ := oneTable_place group found
  obtain ⟨rfl, rfl⟩ := oneTable_place otherGroup otherFound
  exact ⟨rfl, rfl⟩

theorem invalid_blocks_recovered_iff_oneRequest :
    Recovered {12} true shardedManagers oneTable .empty 256 oneRequest ↔
      Rescued {12} shardedManagers oneTable .empty 256 oneRequest :=
  invalid_blocks_recovered_iff {12} true shardedManagers oneTable .empty 256 oneRequest oneTable_shared

end DgxSpark.Scheduler
