import DgxSpark.Dcp.SparseUtils
import DgxSpark.Dcp.Indexer
import Mathlib.Algebra.Order.BigOperators.Ring.Finset

/-
This file embeds `compact_dcp_candidates` of `mla/sparse_utils.py` and shows that it is a stable partition of each row,
and that the ranks together keep every candidate whose block is in the table once.
-/

namespace DgxSpark.Dcp
open DgxSpark.Library

section Kernel

variable (src : Nat → Int) (inStride0 outStride0 NUM_TOPK_TOKENS BLOCK : Nat)

def candidateLane (row offs : Nat) : Int := maskedLoad (offs < NUM_TOPK_TOKENS) (src (row * inStride0 + offs)) (-1)

def validLane (row offs : Nat) : Int := if 0 ≤ candidateLane src inStride0 NUM_TOPK_TOKENS row offs then 1 else 0

/-- The stores of `_compact_dcp_candidates_kernel` into the output rows. -/
def compactStores (row : Nat) : List (Nat × Int) :=
  (arange 0 BLOCK).flatMap fun offs =>
    let idx := candidateLane src inStride0 NUM_TOPK_TOKENS row offs
    let validI := validLane src inStride0 NUM_TOPK_TOKENS row
    let pos := cumsum validI (offs + 1) - validI offs
    maskedStore (0 ≤ idx) (row * outStride0 + pos.toNat) idx

/-- Its store into the counts. -/
def compactCounts (row : Nat) : List (Nat × Int) :=
  [(row, cumsum (validLane src inStride0 NUM_TOPK_TOKENS row) BLOCK)]

end Kernel

/-- `contiguous` for rows of a width. -/
def contiguous (width : Nat) (rows : Nat → Nat → Int) (place : Nat) : Int := rows (place / width) (place % width)

/-- What `compact_dcp_candidates` returns once its programs have run: the filled rows, the lengths, and the mask of the
empty rows where it is asked for. The counts are clamped after the mask is taken. -/
def Compacted (numTokens numTopk : Nat) (tokenIndices : Nat → Nat → Int) (returnEmpty : Bool) (out lengths : Nat → Int)
    (empty : Option (Nat → Bool)) : Prop :=
  ∃ blank counts : Nat → Int,
    let src := contiguous numTopk tokenIndices
    Launched (List.range numTokens) (compactStores src numTopk numTopk numTopk (nextPowerOf2 numTopk)) (fun _ => -1) out ∧
    Launched (List.range numTokens) (compactCounts src numTopk numTopk (nextPowerOf2 numTopk)) blank counts ∧
    empty = (if returnEmpty then some fun row => decide (counts row = 0) else none) ∧
    lengths = fun row => max (counts row) 1

/-- The ids of a row. -/
def idsOf (numTopk : Nat) (tokenIndices : Nat → Nat → Int) (row : Nat) : List Int :=
  (List.range numTopk).map (tokenIndices row)

/-- The ids of a row that are no holes. -/
def validIds (numTopk : Nat) (tokenIndices : Nat → Nat → Int) (row : Nat) : List Int :=
  (idsOf numTopk tokenIndices row).filter fun idx => decide (0 ≤ idx)

section Row

variable {numTokens numTopk row : Nat} {tokenIndices : Nat → Nat → Int} {returnEmpty : Bool} {out lengths : Nat → Int}
  {empty : Option (Nat → Bool)}

theorem candidateLane_contiguous (row : Nat) {offs : Nat} (inside : offs < numTopk) :
    candidateLane (contiguous numTopk tokenIndices) numTopk numTopk row offs = tokenIndices row offs := by
  have positive : 0 < numTopk := by omega
  rw [candidateLane, maskedLoad, if_pos inside, contiguous, Nat.mul_comm, Nat.mul_add_div positive, Nat.mul_add_mod,
    Nat.div_eq_of_lt inside, Nat.mod_eq_of_lt inside, Nat.add_zero]

theorem candidateLane_beyond (row : Nat) {offs : Nat} (beyond : numTopk ≤ offs) :
    candidateLane (contiguous numTopk tokenIndices) numTopk numTopk row offs = -1 :=
  if_neg (by omega)

/-- The prefix sum before a lane counts the ids before it. -/
theorem cumsum_validLane (row : Nat) {offs : Nat} (inside : offs ≤ numTopk) :
    cumsum (validLane (contiguous numTopk tokenIndices) numTopk numTopk row) offs =
      (((idsOf numTopk tokenIndices row).take offs).countP fun idx => decide (0 ≤ idx) : Nat) := by
  rw [idsOf, ← List.map_take, List.take_range, min_eq_left inside]
  induction offs with
  | zero => rfl
  | succ offs ih =>
      simp only [cumsum] at ih ⊢
      rw [List.range_succ, List.map_append, List.sum_append, ih (by omega), List.map_append, List.countP_append]
      simp only [validLane, candidateLane_contiguous row (show offs < numTopk by omega), List.map_cons, List.map_nil,
        List.sum_cons, List.sum_nil, List.countP_singleton, decide_eq_true_eq]
      split <;> simp

theorem idsOf_getElem? (tokenIndices : Nat → Nat → Int) (row : Nat) {col : Nat} (inside : col < numTopk) :
    (idsOf numTopk tokenIndices row)[col]? = some (tokenIndices row col) := by
  rw [idsOf, List.getElem?_map, List.getElem?_range inside]
  rfl

/-- A valid id comes after the valid ids before it. -/
theorem validIds_getElem? {offs : Nat} (inside : offs < numTopk) (valid : 0 ≤ tokenIndices row offs) :
    (validIds numTopk tokenIndices row)[((idsOf numTopk tokenIndices row).take offs).countP
      fun idx => decide (0 ≤ idx)]? = some (tokenIndices row offs) :=
  filter_getElem?_countP (idsOf_getElem? tokenIndices row inside) (decide_eq_true valid)

theorem length_validIds : (validIds numTopk tokenIndices row).length ≤ numTopk := by
  have bound := List.length_filter_le (fun idx : Int => decide (0 ≤ idx)) (idsOf numTopk tokenIndices row)
  rw [idsOf, List.length_map, List.length_range] at bound
  exact bound

/-- A store of a row's program puts a valid id after the valid ids before it. -/
theorem mem_compactStores {place : Nat} {value : Int} :
    (place, value) ∈ compactStores (contiguous numTopk tokenIndices) numTopk numTopk numTopk (nextPowerOf2 numTopk) row ↔
      ∃ col, col < (validIds numTopk tokenIndices row).length ∧ place = row * numTopk + col ∧
        (validIds numTopk tokenIndices row)[col]? = some value := by
  have lanes : ∀ offs, offs < numTopk →
      cumsum (validLane (contiguous numTopk tokenIndices) numTopk numTopk row) (offs + 1) -
        validLane (contiguous numTopk tokenIndices) numTopk numTopk row offs =
      (((idsOf numTopk tokenIndices row).take offs).countP fun idx => decide (0 ≤ idx) : Nat) := by
    intro offs inside
    rw [cumsum_succ, cumsum_validLane row inside.le]
    omega
  simp only [compactStores, arange, List.mem_flatMap, List.mem_map, List.mem_range, mem_maskedStore, Prod.mk.injEq]
  constructor
  · rintro ⟨offs, -, valid, rfl, rfl⟩
    have inside : offs < numTopk := by
      by_contra beyond
      rw [candidateLane_beyond row (not_lt.mp beyond)] at valid
      omega
    rw [candidateLane_contiguous row inside] at valid ⊢
    have found := validIds_getElem? inside valid
    obtain ⟨below, -⟩ := List.getElem?_eq_some_iff.mp found
    exact ⟨_, below, by rw [lanes offs inside, Int.toNat_natCast], found⟩
  · rintro ⟨col, below, rfl, same⟩
    obtain ⟨offs, id, found, valid, count⟩ := exists_countP_take below
    have inside : offs < numTopk := by
      obtain ⟨short, -⟩ := List.getElem?_eq_some_iff.mp found
      rw [idsOf, List.length_map, List.length_range] at short
      exact short
    rw [idsOf_getElem? tokenIndices row inside, Option.some.injEq] at found
    subst found
    have value := validIds_getElem? inside (of_decide_eq_true valid)
    rw [count, same, Option.some.injEq] at value
    refine ⟨offs, ⟨offs, inside.trans_le (le_nextPowerOf2 numTopk), Nat.zero_add offs⟩, ?_, ?_, ?_⟩
    · rw [candidateLane_contiguous row inside]
      exact of_decide_eq_true valid
    · rw [lanes offs inside, count, Int.toNat_natCast]
    · rw [candidateLane_contiguous row inside, value]

/-- A place of the output rows is in one row. -/
theorem place_unique {other col otherCol : Nat} (inside : col < numTopk) (otherInside : otherCol < numTopk)
    (same : row * numTopk + col = other * numTopk + otherCol) : row = other ∧ col = otherCol := by
  have positive : 0 < numTopk := by omega
  have rows := congrArg (· / numTopk) same
  simp only [Nat.mul_comm _ numTopk, Nat.mul_add_div positive, Nat.div_eq_of_lt inside, Nat.div_eq_of_lt otherInside,
    Nat.add_zero] at rows
  subst rows
  exact ⟨rfl, Nat.add_left_cancel same⟩

/-- A column holds the valid id of its place, or a hole where there are not so many. -/
theorem Compacted.column (compacted : Compacted numTokens numTopk tokenIndices returnEmpty out lengths empty)
    (token : row < numTokens) {col : Nat} (inside : col < numTopk) :
    out (row * numTopk + col) = ((validIds numTopk tokenIndices row)[col]?).getD (-1) := by
  obtain ⟨-, -, launched, -, -, -⟩ := compacted
  cases found : (validIds numTopk tokenIndices row)[col]? with
  | some id =>
      obtain ⟨below, -⟩ := List.getElem?_eq_some_iff.mp found
      refine launched.written ⟨row, List.mem_range.mpr token, mem_compactStores.mpr ⟨col, below, rfl, found⟩⟩ ?_
      intro other _ value member
      obtain ⟨otherCol, otherBelow, same, stored⟩ := mem_compactStores.mp member
      obtain ⟨rfl, rfl⟩ := place_unique inside (otherBelow.trans_le length_validIds) same
      rw [found] at stored
      exact (Option.some.inj stored).symm
  | none =>
      refine launched.other fun other _ value member => ?_
      obtain ⟨otherCol, otherBelow, same, stored⟩ := mem_compactStores.mp member
      obtain ⟨rfl, rfl⟩ := place_unique inside (otherBelow.trans_le length_validIds) same
      rw [found] at stored
      cases stored

/-- A compacted row is its valid ids and then holes. -/
theorem Compacted.columns (compacted : Compacted numTokens numTopk tokenIndices returnEmpty out lengths empty)
    (token : row < numTokens) : (List.range numTopk).map (fun col => out (row * numTopk + col)) =
      validIds numTopk tokenIndices row ++
        List.replicate (numTopk - (validIds numTopk tokenIndices row).length) (-1) := by
  have short := @length_validIds numTopk row tokenIndices
  refine List.ext_getElem? fun col => ?_
  by_cases inside : col < numTopk
  · rw [List.getElem?_map, List.getElem?_range inside, Option.map_some, compacted.column token inside,
      List.getElem?_append]
    split
    case isTrue below => rw [List.getElem?_eq_getElem below, Option.getD_some]
    case isFalse beyond =>
      rw [List.getElem?_eq_none (not_lt.mp beyond), List.getElem?_replicate, if_pos (by omega), Option.getD_none]
  · rw [List.getElem?_eq_none (by simpa using inside), List.getElem?_eq_none (by simp; omega)]

/-- The count of a row is that of its valid ids. -/
theorem compactCounts_eq (row : Nat) :
    cumsum (validLane (contiguous numTopk tokenIndices) numTopk numTopk row) (nextPowerOf2 numTopk) =
      (validIds numTopk tokenIndices row).length := by
  obtain ⟨extra, padded⟩ := Nat.exists_eq_add_of_le (le_nextPowerOf2 numTopk)
  have beyond : ∀ extra, cumsum (validLane (contiguous numTopk tokenIndices) numTopk numTopk row) (numTopk + extra) =
      cumsum (validLane (contiguous numTopk tokenIndices) numTopk numTopk row) numTopk := by
    intro extra
    induction extra with
    | zero => rfl
    | succ extra ih =>
        rw [← Nat.add_assoc, cumsum_succ, ih, validLane, candidateLane_beyond row (Nat.le_add_right _ _)]
        simp
  rw [padded, beyond, cumsum_validLane row le_rfl, List.take_of_length_le (by simp [idsOf]), validIds,
    List.countP_eq_length_filter]

/-- The length of a row is that of its valid ids, or one; the mask has the rows without any. -/
theorem Compacted.length (compacted : Compacted numTokens numTopk tokenIndices returnEmpty out lengths empty)
    (token : row < numTokens) : lengths row = max (validIds numTopk tokenIndices row).length 1 ∧
      (returnEmpty = true → ∃ mask, empty = some mask ∧ mask row = decide (validIds numTopk tokenIndices row = [])) := by
  obtain ⟨blank, counts, -, launched, rfl, rfl⟩ := compacted
  have count : counts row = (validIds numTopk tokenIndices row).length := by
    rw [← compactCounts_eq row]
    refine launched.written ⟨row, List.mem_range.mpr token, List.mem_singleton_self _⟩ ?_
    intro other _ value member
    rw [compactCounts, List.mem_singleton, Prod.mk.injEq] at member
    obtain ⟨rfl, rfl⟩ := member
    rfl
  refine ⟨?_, fun asked => ⟨fun row => decide (counts row = 0), if_pos asked, ?_⟩⟩
  · dsimp only
    rw [count]
    omega
  · dsimp only
    rw [count]
    exact decide_eq_decide.mpr (by rw [Int.natCast_eq_zero, List.length_eq_zero_iff])

end Row

section Ranks

variable (conversion : Conversion) (BLOCK_SIZE NUM_TOPK_TOKENS DCP_SIZE DCP_RANK DCP_INTERLEAVE : Nat)

/-- A global candidate whose block is in the table. -/
def inTable (tok : Int) : Bool :=
  decide (0 ≤ tok ∧ localOf DCP_SIZE DCP_INTERLEAVE tok.toNat / BLOCK_SIZE < conversion.maxNumBlocksPerReq)

/-- One that a rank owns. -/
def ownedHere (tok : Int) : Bool :=
  inTable conversion BLOCK_SIZE DCP_SIZE DCP_INTERLEAVE tok && decide (ownerOf DCP_SIZE DCP_INTERLEAVE tok.toNat = DCP_RANK)

/-- Where the table puts a candidate of a token. -/
def candidateSlot (row : Nat) (tok : Int) : Int :=
  let place := localOf DCP_SIZE DCP_INTERLEAVE tok.toNat
  conversion.blockTable (conversion.reqId row * conversion.maxNumBlocksPerReq + place / BLOCK_SIZE) * BLOCK_SIZE +
    (place % BLOCK_SIZE : Nat)

/-- The slots of the candidates of a token that a rank owns. -/
def ownedSlots (row : Nat) : List Int :=
  ((idsOf NUM_TOPK_TOKENS conversion.tokenIndices row).filter
    (ownedHere conversion BLOCK_SIZE DCP_SIZE DCP_RANK DCP_INTERLEAVE)).map
      (candidateSlot conversion BLOCK_SIZE DCP_SIZE DCP_INTERLEAVE row)

variable {conversion BLOCK_SIZE NUM_TOPK_TOKENS DCP_SIZE DCP_RANK DCP_INTERLEAVE} {BLOCK_N : Nat}
  {program : Nat × Nat → List ((Nat × Nat) × Int)} {memory converted : Nat × Nat → Int} {row : Nat}

theorem convertLane_owned (ranked : DCP_RANK < DCP_SIZE) (row col : Nat) :
    (convertLane conversion none BLOCK_SIZE DCP_SIZE DCP_RANK DCP_INTERLEAVE row col).1 =
      if ownedHere conversion BLOCK_SIZE DCP_SIZE DCP_RANK DCP_INTERLEAVE (conversion.tokenIndices row col) then
        candidateSlot conversion BLOCK_SIZE DCP_SIZE DCP_INTERLEAVE row (conversion.tokenIndices row col)
      else -1 := by
  by_cases negative : conversion.tokenIndices row col < 0
  · rw [convertLane_negative row col negative, if_neg]
    simp [ownedHere, inTable, not_le.mpr negative]
  · obtain ⟨p, read⟩ := Int.eq_ofNat_of_zero_le (not_lt.mp negative)
    have owned : (DCP_SIZE = 1 ∨ ownerOf DCP_SIZE DCP_INTERLEAVE p = DCP_RANK) ↔
        ownerOf DCP_SIZE DCP_INTERLEAVE p = DCP_RANK := by
      refine ⟨fun either => either.elim (fun whole => ?_) id, .inr⟩
      rw [whole, ownerOf_one]
      omega
    rw [convertLane_natCast row col p (by omega) read, read]
    simp only [owned, ownedHere, inTable, candidateSlot, Int.toNat_natCast, Int.natCast_nonneg, true_and, Bool.and_eq_true,
      decide_eq_true_eq]
    by_cases here : ownerOf DCP_SIZE DCP_INTERLEAVE p = DCP_RANK ∧
        localOf DCP_SIZE DCP_INTERLEAVE p / BLOCK_SIZE < conversion.maxNumBlocksPerReq
    · rw [if_pos here, if_pos here.symm]
    · rw [if_neg here, if_neg fun both => here both.symm]

/-- Tables of one width have the same candidates in them. -/
theorem ownedHere_eq {other : Conversion} (width : conversion.maxNumBlocksPerReq = other.maxNumBlocksPerReq) :
    ownedHere conversion BLOCK_SIZE DCP_SIZE DCP_RANK DCP_INTERLEAVE = fun tok =>
      inTable other BLOCK_SIZE DCP_SIZE DCP_INTERLEAVE tok &&
        decide (ownerOf DCP_SIZE DCP_INTERLEAVE tok.toNat = DCP_RANK) := by
  funext tok
  simp only [ownedHere, inTable, width]

/-- Kept items of a list of items and holes are the items of the list. -/
theorem filter_map_holes {Item : Type} (own : Item → Bool) {value : Item → Int} (nonneg : ∀ item, 0 ≤ value item)
    (items : List Item) : (items.map fun item => if own item then value item else -1).filter (fun id => decide (0 ≤ id)) =
      (items.filter own).map value := by
  induction items with
  | nil => rfl
  | cons item items ih =>
      by_cases here : own item = true
      · simp [here, nonneg item, ih]
      · simp [here, ih]

/-- The valid ids of a filtered row are the slots of the candidates that the rank owns. -/
theorem validIds_converted (blocks : ∀ place, 0 ≤ conversion.blockTable place)
    (returned : filterAndConvertDcpIndex conversion BLOCK_SIZE BLOCK_N NUM_TOPK_TOKENS DCP_SIZE DCP_RANK
      DCP_INTERLEAVE = some program)
    (launched : Launched (convertGrid conversion BLOCK_N NUM_TOPK_TOKENS) program memory converted)
    (token : row < conversion.numTokens) :
    validIds NUM_TOPK_TOKENS (fun row col => converted (row, col)) row =
      ownedSlots conversion BLOCK_SIZE NUM_TOPK_TOKENS DCP_SIZE DCP_RANK DCP_INTERLEAVE row := by
  obtain ⟨ranked, -, -⟩ := filterAndConvertDcpIndex_some returned
  have slots : ∀ tok, 0 ≤ candidateSlot conversion BLOCK_SIZE DCP_SIZE DCP_INTERLEAVE row tok := by
    intro tok
    have block := blocks (conversion.reqId row * conversion.maxNumBlocksPerReq +
      localOf DCP_SIZE DCP_INTERLEAVE tok.toNat / BLOCK_SIZE)
    have start := Int.mul_nonneg block (Int.natCast_nonneg BLOCK_SIZE)
    simp only [candidateSlot]
    omega
  have lanes : idsOf NUM_TOPK_TOKENS (fun row col => converted (row, col)) row =
      (idsOf NUM_TOPK_TOKENS conversion.tokenIndices row).map fun tok =>
        if ownedHere conversion BLOCK_SIZE DCP_SIZE DCP_RANK DCP_INTERLEAVE tok then
          candidateSlot conversion BLOCK_SIZE DCP_SIZE DCP_INTERLEAVE row tok
        else -1 := by
    rw [idsOf, idsOf, List.map_map]
    refine List.map_congr_left fun col member => ?_
    rw [filterAndConvertDcpIndex_launched returned launched token (List.mem_range.mp member), convertLane_owned ranked]
    rfl
  rw [validIds, lanes, filter_map_holes _ slots]
  rfl

/-- What several owners share out is counted once by one of them. -/
theorem sum_countP_owner {Item : Type} (test : Item → Bool) (owner : Item → Nat) (ranks : Nat)
    (owned : ∀ item, owner item < ranks) (items : List Item) :
    ∑ rank ∈ Finset.range ranks, items.countP (fun item => test item && decide (owner item = rank)) =
      items.countP test := by
  induction items with
  | nil => simp
  | cons item items ih =>
      simp only [List.countP_cons, Finset.sum_add_distrib, ih, Nat.add_left_cancel_iff]
      by_cases here : test item = true
      · simp [here, owned item]
      · simp [here]

/-- The valid ids of a rank that compacts the rows it filtered are counted by its length, without the one of an empty
row. -/
theorem Compacted.owned {numTokens numTopk : Nat} {tokenIndices : Nat → Nat → Int} {out lengths : Nat → Int}
    {mask : Nat → Bool} (compacted : Compacted numTokens numTopk tokenIndices true out lengths (some mask))
    (token : row < numTokens) : lengths row - (if mask row then 1 else 0) = (validIds numTopk tokenIndices row).length := by
  obtain ⟨length, masked⟩ := compacted.length token
  obtain ⟨_, same, value⟩ := masked rfl
  cases same
  rw [length, value]
  by_cases none : validIds numTopk tokenIndices row = []
  · simp [none]
  · have some := List.length_pos_iff.mpr none
    rw [decide_eq_false none]
    simp only [Bool.false_eq_true, if_false]
    omega

end Ranks

/-- One token with the candidates 0 and 3 and a hole, and two blocks in its table. -/
def threeCandidates : Conversion := ⟨1, fun _ => 0, fun place => place, 2, fun _ col => [0, -1, 3, -1].getD col (-1)⟩

end DgxSpark.Dcp
