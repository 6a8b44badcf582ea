import DgxSpark.Library.TopK
import DgxSpark.Dcp.PrefillBounds
import Mathlib.Order.WithBot
import Mathlib.Data.Nat.Log
import Mathlib.Data.Real.Basic

/-
This file embeds the merge of the local top-k rows in `sparse_attn_indexer.py`: the packing kernel, the
gather and the second top-k. A score is a number or minus infinity.
-/

namespace DgxSpark.Dcp
open DgxSpark.Library

/-- `to(tl.float32)` of an integer: exact up to 24 bits, beyond them rounded to even. -/
def float32OfInt (n : Int) : Int :=
  if n.natAbs ≤ 2 ^ 24 then n
  else
    let unit := 2 ^ (Nat.log 2 n.natAbs - 23)
    let quotient := n.natAbs / unit
    let rest := n.natAbs % unit
    let rounded := if 2 * rest < unit ∨ 2 * rest = unit ∧ quotient % 2 = 0 then quotient else quotient + 1
    n.sign * (rounded * unit : Nat)

/-- The logits of a rank. -/
structure Logits (Score : Type) where
  cols : Nat
  value : Nat → Nat → WithBot Score

/-- What a rank enters the merge with. -/
structure RankCandidates (Score : Type) where
  logits : Option (Logits Score)
  topkIndices : Nat → Nat → Int
  rowStarts : Option (Nat → Nat)

section Merge

variable {Score : Type}

/-- A rank that owns nothing takes part with one column of minus infinity, and no index. -/
def RankCandidates.entered (rows : Nat) (input : RankCandidates Score) : Logits Score × (Nat → Nat → Int) :=
  match input.logits with
  | none => (⟨1, fun _ _ => ⊥⟩, fun _ _ => -1)
  | some logits => if rows * logits.cols = 0 then (⟨1, fun _ _ => ⊥⟩, fun _ _ => -1) else (logits, input.topkIndices)

variable (DCP_RANK DCP_WORLD_SIZE CP_INTERLEAVE : Nat)

/-- One lane of `_pack_dcp_topk_candidates_kernel`: a score and a global position. -/
def packLane (logits : Logits Score) (topkIndices : Nat → Nat → Int) (rowStarts : Option (Nat → Nat)) (row col : Nat) :
    WithBot Score × Int :=
  let localIdx := topkIndices row col
  let valid := 0 ≤ localIdx
  let safeLocalIdx := max localIdx 0
  let rowStart := rowStarts.elim 0 fun starts => starts row
  let scoreCol := min (safeLocalIdx + rowStart) (max ((logits.cols : Int) - 1) 0)
  let score := maskedLoad valid (logits.value row scoreCol.toNat) ⊥
  let score := if valid then score else ⊥
  let globalId := safeLocalIdx.tdiv CP_INTERLEAVE * (DCP_WORLD_SIZE * CP_INTERLEAVE) + DCP_RANK * CP_INTERLEAVE +
    safeLocalIdx.tmod CP_INTERLEAVE
  let globalId := if valid then globalId else -1
  (score, float32OfInt globalId)

/-- The programs of the packing launch: a row and a tile of its columns. -/
def packGrid (rows TOPK : Nat) : List (Nat × Nat) := List.range rows ×ˢ List.range ((TOPK + 512 - 1) / 512)

/-- `_pack_dcp_topk_candidates_kernel` with what the rank has entered. -/
def packDcpTopkCandidatesKernel (rows TOPK : Nat) (input : RankCandidates Score) (program : Nat × Nat) :
    List ((Nat × Nat) × (WithBot Score × Int)) :=
  (arange (program.2 * 512) 512).flatMap fun col =>
    maskedStore (col < TOPK) (program.1, col)
      (packLane DCP_RANK DCP_WORLD_SIZE CP_INTERLEAVE (input.entered rows).1 (input.entered rows).2 input.rowStarts
        program.1 col)

/-- `all_gather` along the candidates: the rows of the ranks, in rank order. -/
def gatheredRow (packed : Nat → Nat × Nat → WithBot Score × Int) (k row : Nat) : List (WithBot Score × Int) :=
  (List.range DCP_WORLD_SIZE).flatMap fun rank => (List.range k).map fun col => packed rank (row, col)

variable [LinearOrder Score] (topk : List (WithBot Score) → Nat → List Nat)

/-- The second top-k: the ids of the best candidates, with padding for those at minus infinity. -/
def mergedRow (k : Nat) (gathered : List (WithBot Score × Int)) : List Int :=
  (topk (gathered.map Prod.fst) k).map fun place =>
    let (score, id) := gathered.getD place (⊥, -1)
    if ⊥ < score then id else -1

/-- A row of `topk_indices` on a rank after `_merge_dcp_topk_global`. -/
def mergeDcpTopkRow (k : Nat) (input : RankCandidates Score) (packed : Nat → Nat × Nat → WithBot Score × Int)
    (row : Nat) : List Int :=
  if DCP_WORLD_SIZE ≤ 1 then (List.range k).map (input.topkIndices row)
  else mergedRow topk k (gatheredRow DCP_WORLD_SIZE packed k row)

end Merge

/-- `torch.topk` returns as many places as asked for, and no other place has a larger score. -/
def IsTopk {Score : Type} [LinearOrder Score] (topk : List Score → Nat → List Nat) : Prop :=
  ∀ scores k, k ≤ scores.length → (topk scores k).length = k ∧ (topk scores k).Nodup ∧
    (∀ place ∈ topk scores k, place < scores.length) ∧
      ∀ inside ∈ topk scores k, ∀ outside, outside ∉ topk scores k → ∀ high ∈ scores[inside]?,
        ∀ low ∈ scores[outside]?, low ≤ high

section Rows

variable {Score : Type} [LinearOrder Score]

/-- The local places that a row of a rank holds. -/
def RankCandidates.picked (input : RankCandidates Score) (k row : Nat) : Finset Nat :=
  ((Finset.range k).filter fun col => 0 ≤ input.topkIndices row col).image fun col =>
    (input.topkIndices row col).toNat

/-- A row of a rank holds a top-k of the positions that it owns below the bound, by their places in its shard. -/
structure RankCandidates.Holds (input : RankCandidates Score) (ranks interleave rank k row bound : Nat)
    (score : Nat → WithBot Score) : Prop where
  owns : input.logits = none → localCount ranks interleave rank bound = 0
  reads : ∀ logits, input.logits = some logits → ∀ place, place < localCount ranks interleave rank bound →
    place + (input.rowStarts.elim 0 fun starts => starts row) < logits.cols ∧
      logits.value row (place + input.rowStarts.elim 0 fun starts => starts row) =
        score (globalOf ranks interleave rank place)
  distinct : input.logits ≠ none → ∀ first second, first < k → second < k → 0 ≤ input.topkIndices row first →
    input.topkIndices row first = input.topkIndices row second → first = second
  padded : input.logits ≠ none → ∀ col, col < k → 0 ≤ input.topkIndices row col ∨ input.topkIndices row col = -1
  top : input.logits ≠ none → IsTop (fun place => score (globalOf ranks interleave rank place)) k
    (Finset.range (localCount ranks interleave rank bound)) (input.picked k row)

/-- The positions below a bound whose score is finite. -/
def finitePositions (score : Nat → WithBot Score) (bound : Nat) : Finset Nat :=
  (Finset.range bound).filter fun position => ⊥ < score position

/-- A row of global ids: distinct positions among some with their largest scores, and padding. -/
structure MergedRow (k : Nat) (positions : Finset Nat) (score : Nat → WithBot Score) (row : List Int) : Prop where
  length : row.length = k
  ids : ∀ id ∈ row, 0 ≤ id ∨ id = -1
  distinct : (row.filter (0 ≤ ·)).Nodup
  among : ∀ id ∈ row, 0 ≤ id → id.toNat ∈ positions
  scores : (((row.filter (0 ≤ ·)).map fun id => score id.toNat : List (WithBot Score)) : Multiset (WithBot Score)) =
    largestScores k (positions.val.map score)
  padding : row.count (-1) = k - min k positions.card
  top : IsTop score k positions ((row.filter (0 ≤ ·)).map Int.toNat).toFinset

/-- A row whose ids are a top-k of some positions holds their largest scores. -/
theorem MergedRow.of_top {k : Nat} {positions selected : Finset Nat} {score : Nat → WithBot Score} {row : List Int}
    (length : row.length = k) (ids : ∀ id ∈ row, 0 ≤ id ∨ id = -1) (top : IsTop score k positions selected)
    (values : selected.val = ((row.filter (0 ≤ ·)).map Int.toNat : List Nat)) :
    MergedRow k positions score row := by
  have apart : ((row.filter (0 ≤ ·)).map Int.toNat).Nodup := by
    rw [← Multiset.coe_nodup, ← values]
    exact selected.nodup
  constructor
  · exact length
  · exact ids
  · exact List.Nodup.of_map _ apart
  · intro id member nonneg
    apply top.subset
    rw [← Finset.mem_val, values, Multiset.mem_coe]
    apply List.mem_map_of_mem
    simp [member, nonneg]
  · rw [← top.scores_eq, values, Multiset.map_coe, List.map_map]
    rfl
  · have parts : row.length = _ := List.length_eq_countP_add_countP fun id : Int => decide (0 ≤ id)
    have negative : row.countP (fun id => decide ¬decide (0 ≤ id) = true) = row.count (-1) := by
      apply List.countP_congr
      intro id member
      rcases ids id member with nonneg | padding
      · have notPadding : id ≠ -1 := by omega
        simp [nonneg, notPadding]
      · simp [padding]
    have nonneg : row.countP (fun id => decide (0 ≤ id)) = selected.card := by
      rw [List.countP_eq_length_filter, Finset.card_def, values, Multiset.coe_card, List.length_map]
    have counted := top.card
    omega
  · have same : ((row.filter (0 ≤ ·)).map Int.toNat).toFinset = selected := by
      apply Finset.val_injective
      rw [values, ← List.toFinset_eq apart]
    rwa [same]

section Lanes

variable {ranks interleave rank k rows row col bound : Nat} {input : RankCandidates Score}
  {score : Nat → WithBot Score}

theorem float32OfInt_small {n : Int} (small : n.natAbs ≤ 2 ^ 24) : float32OfInt n = n := if_pos small

omit [LinearOrder Score] in
theorem mem_picked {place : Nat} : place ∈ input.picked k row ↔
    ∃ col, col < k ∧ input.topkIndices row col = place := by
  simp only [RankCandidates.picked, Finset.mem_image, Finset.mem_filter, Finset.mem_range]
  constructor
  · rintro ⟨col, ⟨inside, nonneg⟩, rfl⟩
    exact ⟨col, inside, (Int.toNat_of_nonneg nonneg).symm⟩
  · rintro ⟨col, inside, same⟩
    exact ⟨col, ⟨inside, by omega⟩, by omega⟩

/-- A lane of the kernel is padding, or the position of a place that the row holds, with its score. -/
theorem packLane_cases (someRun : 0 < interleave) (ranked : rank < ranks) (placed : row < rows) (inside : col < k)
    (small : bound ≤ 2 ^ 24) (holds : input.Holds ranks interleave rank k row bound score) :
    (packLane rank ranks interleave (input.entered rows).1 (input.entered rows).2 input.rowStarts row col = (⊥, -1) ∧
        (input.logits = none ∨ input.topkIndices row col < 0)) ∨
      ∃ place ∈ input.picked k row, input.logits ≠ none ∧ input.topkIndices row col = place ∧
        place < localCount ranks interleave rank bound ∧
          packLane rank ranks interleave (input.entered rows).1 (input.entered rows).2 input.rowStarts row col =
            (score (globalOf ranks interleave rank place), ((globalOf ranks interleave rank place : Nat) : Int)) := by
  have padding : ∀ (logits : Logits Score) (indices : Nat → Nat → Int), indices row col < 0 →
      packLane rank ranks interleave logits indices input.rowStarts row col = (⊥, -1) := by
    intro logits indices negative
    have invalid : ¬0 ≤ indices row col := by omega
    simp [packLane, invalid, float32OfInt]
  cases own : input.logits with
  | none =>
      refine Or.inl ⟨?_, Or.inl rfl⟩
      apply padding
      simp [RankCandidates.entered, own]
  | some logits =>
      have here : input.logits ≠ none := by simp [own]
      by_cases negative : input.topkIndices row col < 0
      · refine Or.inl ⟨?_, Or.inr negative⟩
        apply padding
        simp only [RankCandidates.entered, own]
        split
        · show (-1 : Int) < 0
          decide
        · exact negative
      obtain ⟨place, same⟩ := Int.eq_ofNat_of_zero_le (not_lt.mp negative)
      have picked : place ∈ input.picked k row := mem_picked.mpr ⟨col, inside, same⟩
      have counted : place < localCount ranks interleave rank bound :=
        Finset.mem_range.mp ((holds.top here).subset picked)
      obtain ⟨read, value⟩ := holds.reads logits own place counted
      have nonempty : rows * logits.cols ≠ 0 := Nat.mul_ne_zero (by omega) (by omega)
      have entered : input.entered rows = (logits, input.topkIndices) := by
        simp [RankCandidates.entered, own, nonempty]
      refine Or.inr ⟨place, picked, by simp, same, counted, ?_⟩
      rw [entered]
      have column : (min ((place : Int) + (input.rowStarts.elim 0 fun starts => starts row : Nat))
          (max ((logits.cols : Int) - 1) 0)).toNat = place + input.rowStarts.elim 0 fun starts => starts row := by
        omega
      have id : (place : Int).tdiv interleave * (ranks * interleave) + rank * interleave + (place : Int).tmod interleave =
          (globalOf ranks interleave rank place : Nat) := by
        rw [globalOf]
        push_cast
        rfl
      have owned : globalOf ranks interleave rank place < bound := by
        obtain ⟨position, below, owner, stands⟩ := (lt_localCount_iff someRun ranked bound place).mp counted
        rw [← stands, ← owner, globalOf_localOf ranks someRun]
        exact below
      have exact_ : float32OfInt (globalOf ranks interleave rank place : Nat) =
          (globalOf ranks interleave rank place : Nat) := by
        apply float32OfInt_small
        rw [Int.natAbs_natCast]
        omega
      have nonneg : (0 : Int) ≤ place := by omega
      have safe : max (place : Int) 0 = place := by omega
      simp only [packLane, same, safe, nonneg, if_true, id, exact_, maskedLoad]
      rw [← value, ← column]

omit [LinearOrder Score] in
/-- After the packing launch a candidate is the lane of its column. -/
theorem packed_eq {memory packed : Nat × Nat → WithBot Score × Int}
    (launched : Launched (packGrid rows k) (packDcpTopkCandidatesKernel rank ranks interleave rows k input) memory
      packed) (placed : row < rows) (inside : col < k) :
    packed (row, col) =
      packLane rank ranks interleave (input.entered rows).1 (input.entered rows).2 input.rowStarts row col := by
  apply launched.written
  · refine ⟨(row, col / 512), ?_, ?_⟩
    · simp only [packGrid, List.mem_product, List.mem_range]
      omega
    · simp only [packDcpTopkCandidatesKernel, List.mem_flatMap, mem_maskedStore, arange, List.mem_map, List.mem_range]
      exact ⟨col, ⟨col % 512, by omega, by omega⟩, inside, rfl⟩
  · intro program _ value member
    simp only [packDcpTopkCandidatesKernel, List.mem_flatMap, mem_maskedStore, Prod.mk.injEq] at member
    obtain ⟨_, -, -, ⟨rfl, rfl⟩, rfl⟩ := member
    rfl

/-- The positions among a rank's candidates with a finite score. -/
def finiteIds (packed : Nat × Nat → WithBot Score × Int) (k row : Nat) : Finset Nat :=
  ((Finset.range k).filter fun col => ⊥ < (packed (row, col)).1).image fun col => (packed (row, col)).2.toNat

/-- The candidates of a rank are a top-k of its finite positions. -/
theorem finiteIds_top (someRun : 0 < interleave) (ranked : rank < ranks) (placed : row < rows)
    (small : bound ≤ 2 ^ 24) (holds : input.Holds ranks interleave rank k row bound score)
    {memory packed : Nat × Nat → WithBot Score × Int}
    (launched : Launched (packGrid rows k) (packDcpTopkCandidatesKernel rank ranks interleave rows k input) memory
      packed) :
    IsTop score k ((share ranks interleave rank bound).filter fun position => ⊥ < score position)
      (finiteIds packed k row) := by
  have lanes : ∀ col, col < k → _ := fun col inside => packLane_cases someRun ranked placed inside small holds
  by_cases own : input.logits = none
  · have nothing : share ranks interleave rank bound = ∅ := by
      rw [← Finset.card_eq_zero, ← localCount_eq_share someRun ranked]
      exact holds.owns own
    have empty : finiteIds packed k row = ∅ := by
      rw [finiteIds, Finset.image_eq_empty, Finset.filter_eq_empty_iff]
      intro col member
      have inside := Finset.mem_range.mp member
      rw [packed_eq launched placed inside]
      obtain ⟨padding, -⟩ | ⟨place, -, here, -⟩ := lanes col inside
      · simp [padding]
      · exact absurd own here
    rw [nothing, empty]
    constructor
    · exact Finset.empty_subset _
    · simp
    · simp
  · have named : IsTop score k (share ranks interleave rank bound)
        ((input.picked k row).image (globalOf ranks interleave rank)) := by
      have shared : (Finset.range (localCount ranks interleave rank bound)).image (globalOf ranks interleave rank) =
          share ranks interleave rank bound := by
        ext position
        simp only [Finset.mem_image, Finset.mem_range, share, Finset.mem_filter]
        constructor
        · rintro ⟨place, counted, rfl⟩
          obtain ⟨position, below, owner, stands⟩ := (lt_localCount_iff someRun ranked bound place).mp counted
          rw [← stands, ← owner, globalOf_localOf ranks someRun]
          exact ⟨below, rfl⟩
        · rintro ⟨below, owner⟩
          refine ⟨localOf ranks interleave position, ?_, ?_⟩
          · exact (lt_localCount_iff someRun ranked bound _).mpr ⟨position, below, owner, rfl⟩
          · rw [← owner, globalOf_localOf ranks someRun]
      rw [← shared]
      apply (holds.top own).image
      · intro first _ second _ same
        have := congrArg (localOf ranks interleave) same
        rwa [localOf_globalOf someRun ranked, localOf_globalOf someRun ranked] at this
      · intro place _
        rfl
    have same : finiteIds packed k row =
        ((input.picked k row).image (globalOf ranks interleave rank)).filter fun position => ⊥ < score position := by
      ext position
      simp only [finiteIds, Finset.mem_image, Finset.mem_filter, Finset.mem_range]
      constructor
      · rintro ⟨col, ⟨inside, finite⟩, rfl⟩
        rw [packed_eq launched placed inside] at finite ⊢
        obtain ⟨padding, -⟩ | ⟨place, picked, -, -, -, lane⟩ := lanes col inside
        · simp [padding] at finite
        · rw [lane] at finite ⊢
          exact ⟨⟨place, picked, rfl⟩, finite⟩
      · rintro ⟨⟨place, picked, rfl⟩, finite⟩
        obtain ⟨col, inside, held⟩ := mem_picked.mp picked
        refine ⟨col, ⟨inside, ?_⟩, ?_⟩
        all_goals
          rw [packed_eq launched placed inside]
          obtain ⟨-, absent | negative⟩ | ⟨other, -, -, also, -, lane⟩ := lanes col inside
          · exact absurd absent own
          · omega
          · have here : other = place := by omega
            rw [lane, here]
            first | exact finite | rfl
    rw [same]
    apply named.filter
    intro low high below finite
    exact lt_of_lt_of_le finite below

end Lanes

section Merged

variable {ranks interleave k rows row bound : Nat} {inputs : Nat → RankCandidates Score}
  {score : Nat → WithBot Score} {topk : List (WithBot Score) → Nat → List Nat}
  {memory packed : Nat → Nat × Nat → WithBot Score × Int}

/-- The candidate at a place of the gathered row. -/
def candidate (packed : Nat → Nat × Nat → WithBot Score × Int) (k row place : Nat) : WithBot Score × Int :=
  packed (place / k) (row, place % k)

omit [LinearOrder Score] in
theorem gatheredRow_eq (packed : Nat → Nat × Nat → WithBot Score × Int) (ranks k row : Nat) :
    gatheredRow ranks packed k row = (List.range (ranks * k)).map (candidate packed k row) :=
  flatMap_blocks ranks k fun rank col => packed rank (row, col)

/-- The places that the second top-k selects are a choice of all places. -/
theorem selected_top (valid : IsTopk topk) (someRank : 0 < ranks) :
    IsTop (fun place => (candidate packed k row place).1) k (Finset.range (ranks * k))
      (topk ((gatheredRow ranks packed k row).map Prod.fst) k).toFinset := by
  have scores : (gatheredRow ranks packed k row).map Prod.fst =
      (List.range (ranks * k)).map fun place => (candidate packed k row place).1 := by
    rw [gatheredRow_eq, List.map_map]
    rfl
  have wide : k ≤ ranks * k := Nat.le_mul_of_pos_left k someRank
  obtain ⟨length, distinct, inside, largest⟩ := valid ((gatheredRow ranks packed k row).map Prod.fst) k
    (by rw [scores]; simpa using wide)
  constructor
  · intro place member
    have := inside place (List.mem_toFinset.mp member)
    rw [scores, List.length_map, List.length_range] at this
    exact Finset.mem_range.mpr this
  · rw [List.toFinset_card_of_nodup distinct, length, Finset.card_range, Nat.min_eq_left wide]
  · intro high highIn low lowIn left
    rw [List.mem_toFinset] at highIn left
    have highInside := inside high highIn
    rw [scores, List.length_map, List.length_range] at highInside
    have lowInside := Finset.mem_range.mp lowIn
    apply largest high highIn low left
    · rw [scores]
      simp [highInside]
    · rw [scores]
      simp [lowInside]

/-- What the candidates of all ranks are: padding, or a position with its score. -/
theorem candidate_cases (someRun : 0 < interleave) (placed : row < rows) (small : bound ≤ 2 ^ 24)
    (holds : ∀ rank, rank < ranks → (inputs rank).Holds ranks interleave rank k row bound score)
    (launched : ∀ rank, rank < ranks → Launched (packGrid rows k)
      (packDcpTopkCandidatesKernel rank ranks interleave rows k (inputs rank)) (memory rank) (packed rank))
    {place : Nat} (inside : place < ranks * k) :
    (candidate packed k row place).1 = ⊥ ∨
      ∃ local_, (inputs (place / k)).topkIndices row (place % k) = (local_ : Nat) ∧
        (inputs (place / k)).logits ≠ none ∧
        local_ < localCount ranks interleave (place / k) bound ∧
        candidate packed k row place = (score (globalOf ranks interleave (place / k) local_),
          ((globalOf ranks interleave (place / k) local_ : Nat) : Int)) := by
  have someK : 0 < k := by
    apply Nat.pos_of_ne_zero
    intro zero
    rw [zero, Nat.mul_zero] at inside
    omega
  have ranked : place / k < ranks := by
    rwa [Nat.div_lt_iff_lt_mul someK]
  have col := Nat.mod_lt place someK
  rw [candidate, packed_eq (launched _ ranked) placed col]
  obtain ⟨padding, -⟩ | ⟨local_, -, own, held, counted, lane⟩ :=
    packLane_cases someRun ranked placed col small (holds _ ranked)
  · rw [padding]
    exact Or.inl rfl
  · exact Or.inr ⟨local_, held, own, counted, lane⟩

/-- Two candidates with finite scores are different positions. -/
theorem candidate_injective (someRun : 0 < interleave) (placed : row < rows) (small : bound ≤ 2 ^ 24)
    (holds : ∀ rank, rank < ranks → (inputs rank).Holds ranks interleave rank k row bound score)
    (launched : ∀ rank, rank < ranks → Launched (packGrid rows k)
      (packDcpTopkCandidatesKernel rank ranks interleave rows k (inputs rank)) (memory rank) (packed rank)) :
    Set.InjOn (fun place => (candidate packed k row place).2.toNat)
      ((Finset.range (ranks * k)).filter fun place => ⊥ < (candidate packed k row place).1) := by
  intro first firstIn second secondIn same
  obtain ⟨firstIn, firstFinite⟩ := Finset.mem_filter.mp firstIn
  obtain ⟨secondIn, secondFinite⟩ := Finset.mem_filter.mp secondIn
  rw [Finset.mem_range] at firstIn secondIn
  have someK : 0 < k := by
    apply Nat.pos_of_ne_zero
    intro zero
    rw [zero, Nat.mul_zero] at firstIn
    omega
  have firstRanked : first / k < ranks := by rwa [Nat.div_lt_iff_lt_mul someK]
  have secondRanked : second / k < ranks := by rwa [Nat.div_lt_iff_lt_mul someK]
  obtain firstBottom | ⟨firstLocal, firstHeld, own, -, firstIs⟩ :=
    candidate_cases someRun placed small holds launched firstIn
  · exact absurd firstFinite (by simp [firstBottom])
  obtain secondBottom | ⟨secondLocal, secondHeld, -, -, secondIs⟩ :=
    candidate_cases someRun placed small holds launched secondIn
  · exact absurd secondFinite (by simp [secondBottom])
  simp only [firstIs, secondIs, Int.toNat_natCast] at same
  have ranksSame := congrArg (ownerOf ranks interleave) same
  rw [ownerOf_globalOf someRun firstRanked, ownerOf_globalOf someRun secondRanked] at ranksSame
  have localSame := congrArg (localOf ranks interleave) same
  rw [localOf_globalOf someRun firstRanked, localOf_globalOf someRun secondRanked] at localSame
  rw [← ranksSame, ← localSame] at secondHeld
  have cols := (holds _ firstRanked).distinct own (first % k) (second % k) (Nat.mod_lt _ someK)
    (Nat.mod_lt _ someK) (by omega) (by rw [firstHeld, secondHeld])
  rw [← Nat.div_add_mod first k, ← Nat.div_add_mod second k, ranksSame, cols]

/-- The positions of the selected candidates with finite scores. -/
def selectedIds (packed : Nat → Nat × Nat → WithBot Score × Int) (k row : Nat) (selected : List Nat) : Finset Nat :=
  (selected.toFinset.filter fun place => ⊥ < (candidate packed k row place).1).image fun place =>
    (candidate packed k row place).2.toNat

/-- The candidates of all ranks are those of each. -/
theorem candidates_eq_biUnion (packed : Nat → Nat × Nat → WithBot Score × Int) (ranks k row : Nat) :
    ((Finset.range (ranks * k)).filter fun place => ⊥ < (candidate packed k row place).1).image
        (fun place => (candidate packed k row place).2.toNat) =
      (Finset.range ranks).biUnion fun rank => finiteIds (packed rank) k row := by
  ext position
  simp only [Finset.mem_image, Finset.mem_filter, Finset.mem_range, Finset.mem_biUnion, finiteIds]
  constructor
  · rintro ⟨place, ⟨inside, finite⟩, rfl⟩
    have someK : 0 < k := by
      apply Nat.pos_of_ne_zero
      intro zero
      rw [zero, Nat.mul_zero] at inside
      omega
    exact ⟨place / k, by rwa [Nat.div_lt_iff_lt_mul someK], place % k, ⟨Nat.mod_lt _ someK, finite⟩, rfl⟩
  · rintro ⟨rank, ranked, col, ⟨inside, finite⟩, rfl⟩
    have someK : 0 < k := by omega
    have here : candidate packed k row (k * rank + col) = packed rank (row, col) := by
      rw [candidate, Nat.mul_add_div someK, Nat.div_eq_of_lt inside, Nat.add_zero, Nat.mul_add_mod,
        Nat.mod_eq_of_lt inside]
    have below : k * rank + col < ranks * k := by
      have := Nat.mul_le_mul_left k (show rank + 1 ≤ ranks from ranked)
      rw [Nat.mul_succ, Nat.mul_comm k ranks] at this
      omega
    refine ⟨k * rank + col, ⟨below, ?_⟩, ?_⟩
    · rw [here]
      exact finite
    · rw [here]

/-- The selected candidates are a top-k of the finite positions of the whole row. -/
theorem selectedIds_top (valid : IsTopk topk) (someRank : 0 < ranks) (someRun : 0 < interleave) (placed : row < rows)
    (small : bound ≤ 2 ^ 24)
    (holds : ∀ rank, rank < ranks → (inputs rank).Holds ranks interleave rank k row bound score)
    (launched : ∀ rank, rank < ranks → Launched (packGrid rows k)
      (packDcpTopkCandidatesKernel rank ranks interleave rows k (inputs rank)) (memory rank) (packed rank)) :
    IsTop score k (finitePositions score bound)
      (selectedIds packed k row (topk ((gatheredRow ranks packed k row).map Prod.fst) k)) := by
  have finite := (@selected_top Score _ ranks k row topk packed valid someRank).filter
    (fun place => ⊥ < (candidate packed k row place).1) fun low high below above => lt_of_lt_of_le above below
  have named : IsTop score k _ _ := finite.image (candidate_injective someRun placed small holds launched) (by
    intro place member
    obtain ⟨inside, above⟩ := Finset.mem_filter.mp member
    obtain bottom | ⟨local_, -, -, -, lane⟩ :=
      candidate_cases someRun placed small holds launched (Finset.mem_range.mp inside)
    · exact absurd above (by simp [bottom])
    · rw [lane]
      rfl)
  rw [candidates_eq_biUnion] at named
  have whole : (Finset.range ranks).biUnion
      (fun rank => (share ranks interleave rank bound).filter fun position => ⊥ < score position) =
        finitePositions score bound := by
    ext position
    simp only [Finset.mem_biUnion, Finset.mem_range, Finset.mem_filter, share, finitePositions]
    constructor
    · rintro ⟨rank, -, ⟨below, -⟩, above⟩
      exact ⟨below, above⟩
    · rintro ⟨below, above⟩
      exact ⟨_, ownerOf_lt interleave someRank position, ⟨below, rfl⟩, above⟩
  rw [← whole]
  apply IsTop.exchange ?_ named
  intro rank member
  have ranked := Finset.mem_range.mp member
  exact finiteIds_top someRun ranked placed small (holds rank ranked) (launched rank ranked)

/-- The merged row holds the largest finite scores of the whole row. -/
theorem mergedRow_merged (valid : IsTopk topk) (someRank : 0 < ranks) (someRun : 0 < interleave) (placed : row < rows)
    (small : bound ≤ 2 ^ 24)
    (holds : ∀ rank, rank < ranks → (inputs rank).Holds ranks interleave rank k row bound score)
    (launched : ∀ rank, rank < ranks → Launched (packGrid rows k)
      (packDcpTopkCandidatesKernel rank ranks interleave rows k (inputs rank)) (memory rank) (packed rank)) :
    MergedRow k (finitePositions score bound) score (mergedRow topk k (gatheredRow ranks packed k row)) := by
  have top := selectedIds_top valid someRank someRun placed small holds launched
  have injective := candidate_injective someRun placed small holds launched
  have scores : (gatheredRow ranks packed k row).map Prod.fst =
      (List.range (ranks * k)).map fun place => (candidate packed k row place).1 := by
    rw [gatheredRow_eq, List.map_map]
    rfl
  have wide : k ≤ ranks * k := Nat.le_mul_of_pos_left k someRank
  obtain ⟨length, distinct, inside, -⟩ := valid ((gatheredRow ranks packed k row).map Prod.fst) k
    (by rw [scores]; simpa using wide)
  simp only [scores, List.length_map, List.length_range] at inside
  simp only [selectedIds, scores] at top
  simp only [scores] at length distinct
  generalize chosen : topk ((List.range (ranks * k)).map fun place => (candidate packed k row place).1) k = sel
    at length distinct inside top
  have rowEq : mergedRow topk k (gatheredRow ranks packed k row) =
      sel.map fun place => if ⊥ < (candidate packed k row place).1 then (candidate packed k row place).2 else -1 := by
    rw [mergedRow, scores, chosen, gatheredRow_eq]
    apply List.map_congr_left
    intro place member
    rw [List.getD_eq_getElem?_getD, List.getElem?_map, List.getElem?_range (inside place member)]
    rfl
  have finiteId : ∀ place ∈ sel, ⊥ < (candidate packed k row place).1 →
      0 ≤ (candidate packed k row place).2 := by
    intro place member above
    obtain bottom | ⟨local_, -, -, -, lane⟩ :=
      candidate_cases someRun placed small holds launched (inside place member)
    · exact absurd above (by simp [bottom])
    · rw [lane]
      exact Int.natCast_nonneg _
  have kept : (mergedRow topk k (gatheredRow ranks packed k row)).filter (0 ≤ ·) =
      (sel.filter fun place => ⊥ < (candidate packed k row place).1).map fun place =>
        (candidate packed k row place).2 := by
    have decided : ∀ place ∈ sel, ((fun id => decide (0 ≤ id)) ∘ fun place =>
        if ⊥ < (candidate packed k row place).1 then (candidate packed k row place).2 else (-1 : Int)) place =
          decide (⊥ < (candidate packed k row place).1) := by
      intro place member
      by_cases above : ⊥ < (candidate packed k row place).1
      · simp [above, finiteId place member above]
      · simp [above]
    rw [rowEq, List.filter_map, List.filter_congr decided]
    apply List.map_congr_left
    intro place member
    simp only [List.mem_filter, decide_eq_true_eq] at member
    rw [if_pos member.2]
  have apart : ((sel.filter fun place => ⊥ < (candidate packed k row place).1).map fun place =>
      (candidate packed k row place).2.toNat).Nodup := by
    apply List.Nodup.map_on ?_ (distinct.filter _)
    intro first firstIn second secondIn same
    simp only [List.mem_filter, decide_eq_true_eq] at firstIn secondIn
    apply injective ?_ ?_ same
    · exact Finset.mem_filter.mpr ⟨Finset.mem_range.mpr (inside first firstIn.1), firstIn.2⟩
    · exact Finset.mem_filter.mpr ⟨Finset.mem_range.mpr (inside second secondIn.1), secondIn.2⟩
  have listed : selectedIds packed k row sel = ((sel.filter fun place =>
      ⊥ < (candidate packed k row place).1).map fun place => (candidate packed k row place).2.toNat).toFinset := by
    ext position
    simp [selectedIds]
  apply MergedRow.of_top ?_ ?_ (show IsTop score k (finitePositions score bound) (selectedIds packed k row sel) from top)
  · rw [listed, ← List.toFinset_eq apart, kept, List.map_map]
    rfl
  · rw [rowEq, List.length_map, length]
  · intro id member
    rw [rowEq, List.mem_map] at member
    obtain ⟨place, placeIn, rfl⟩ := member
    by_cases above : ⊥ < (candidate packed k row place).1
    · rw [if_pos above]
      exact Or.inl (finiteId place placeIn above)
    · rw [if_neg above]
      exact Or.inr rfl

end Merged

/-- The row of a rank that is alone holds the largest scores as it is, those at minus infinity among them. -/
theorem aloneRow_merged {interleave k row bound : Nat} {input : RankCandidates Score} {score : Nat → WithBot Score}
    (someRun : 0 < interleave) (own : input.logits ≠ none) (holds : input.Holds 1 interleave 0 k row bound score) :
    MergedRow k (Finset.range bound) score ((List.range k).map (input.topkIndices row)) := by
  have whole : ∀ place, globalOf 1 interleave 0 place = place := by
    intro place
    have split := Nat.div_add_mod' place interleave
    simpa [globalOf] using split
  have counted : localCount 1 interleave 0 bound = bound := by
    rw [localCount_eq_share someRun Nat.one_pos, share]
    have all : (Finset.range bound).filter (fun position => ownerOf 1 interleave position = 0) = Finset.range bound := by
      apply Finset.filter_true_of_mem
      intro position _
      exact Nat.lt_one_iff.mp (ownerOf_lt interleave Nat.one_pos position)
    rw [all, Finset.card_range]
  have top := holds.top own
  simp only [whole, counted] at top
  apply MergedRow.of_top ?_ ?_ top
  · have apart : (((List.range k).filter fun col => 0 ≤ input.topkIndices row col).map fun col =>
        (input.topkIndices row col).toNat).Nodup := by
      apply List.Nodup.map_on ?_ (List.nodup_range.filter _)
      intro first firstIn second secondIn same
      simp only [List.mem_filter, List.mem_range, decide_eq_true_eq] at firstIn secondIn
      exact holds.distinct own first second firstIn.1 secondIn.1 firstIn.2 (by omega)
    have listed : input.picked k row = (((List.range k).filter fun col => 0 ≤ input.topkIndices row col).map fun col =>
        (input.topkIndices row col).toNat).toFinset := by
      ext place
      simp [RankCandidates.picked]
    rw [listed, ← List.toFinset_eq apart, List.filter_map, List.map_map]
    rfl
  · rw [List.length_map, List.length_range]
  · intro id member
    obtain ⟨col, inside, rfl⟩ := List.mem_map.mp member
    exact holds.padded own col (List.mem_range.mp inside)

/-- After the merge all ranks hold the same rows, each with the largest finite scores of the whole context. A
rank that is alone keeps its rows as they are, with the largest scores whether finite or not. -/
theorem merge_global {ranks interleave k rows : Nat} {inputs : Nat → RankCandidates Score} {bounds : Nat → Nat}
    {scores : Nat → Nat → WithBot Score} {topk : List (WithBot Score) → Nat → List Nat}
    {memory packed : Nat → Nat × Nat → WithBot Score × Int} (valid : IsTopk topk) (someRank : 0 < ranks)
    (someRun : 0 < interleave) (small : ∀ row, row < rows → bounds row ≤ 2 ^ 24)
    (holds : ∀ rank row, rank < ranks → row < rows →
      (inputs rank).Holds ranks interleave rank k row (bounds row) (scores row))
    (launched : ∀ rank, rank < ranks → Launched (packGrid rows k)
      (packDcpTopkCandidatesKernel rank ranks interleave rows k (inputs rank)) (memory rank) (packed rank)) :
    (1 < ranks → ∃ merged : Nat → List Int,
      (∀ rank row, rank < ranks → row < rows → mergeDcpTopkRow ranks topk k (inputs rank) packed row = merged row) ∧
        ∀ row, row < rows → MergedRow k (finitePositions (scores row) (bounds row)) (scores row) (merged row)) ∧
      (ranks = 1 → ∀ row, row < rows →
        mergeDcpTopkRow ranks topk k (inputs 0) packed row = (List.range k).map ((inputs 0).topkIndices row) ∧
          ((inputs 0).logits ≠ none → MergedRow k (Finset.range (bounds row)) (scores row)
            (mergeDcpTopkRow ranks topk k (inputs 0) packed row))) := by
  constructor
  · intro shared
    refine ⟨fun row => mergedRow topk k (gatheredRow ranks packed k row), ?_, ?_⟩
    · intro rank row _ _
      exact if_neg (by omega)
    · intro row placed
      exact mergedRow_merged valid someRank someRun placed (small row placed)
        (fun rank ranked => holds rank row ranked placed) launched
  · rintro rfl row placed
    have kept : mergeDcpTopkRow 1 topk k (inputs 0) packed row = (List.range k).map ((inputs 0).topkIndices row) :=
      if_pos (Nat.le_refl 1)
    refine ⟨kept, ?_⟩
    intro own
    rw [kept]
    exact aloneRow_merged someRun own (holds 0 row Nat.one_pos placed)

variable (Score) in
/-- A top-k by sorting the places. -/
def sortTopk (scores : List (WithBot Score)) (k : Nat) : List Nat :=
  ((List.range scores.length).mergeSort fun left right =>
    decide (scores.getD right ⊥ ≤ scores.getD left ⊥)).take k

theorem sortTopk_valid : IsTopk (sortTopk Score) := by
  intro scores k room
  have order := List.mergeSort_perm (List.range scores.length) fun left right =>
    decide (scores.getD right ⊥ ≤ scores.getD left ⊥)
  have sorted := @List.pairwise_mergeSort _ (fun left right => decide (scores.getD right ⊥ ≤ scores.getD left ⊥))
    (by intro a b c; simpa using fun ab bc => le_trans bc ab) (by intro a b; simpa using le_total _ _)
    (List.range scores.length)
  unfold sortTopk
  generalize (List.range scores.length).mergeSort
    (fun left right => decide (scores.getD right ⊥ ≤ scores.getD left ⊥)) = places at order sorted
  have distinct : places.Nodup := order.nodup_iff.mpr List.nodup_range
  have inside : ∀ place ∈ places, place < scores.length := by
    intro place member
    exact List.mem_range.mp (order.mem_iff.mp member)
  refine ⟨?_, distinct.sublist (List.take_sublist _ _), ?_, ?_⟩
  · rw [List.length_take, order.length_eq, List.length_range, Nat.min_eq_left room]
  · intro place member
    exact inside place (List.mem_of_mem_take member)
  · intro high highIn low lowOut highScore highHere lowScore lowHere
    have lowInside : low ∈ places := by
      apply order.mem_iff.mpr
      rw [List.mem_range]
      exact (List.getElem?_eq_some_iff.mp lowHere).1
    rw [← List.take_append_drop k places] at sorted lowInside
    have lowLater : low ∈ places.drop k := (List.mem_append.mp lowInside).resolve_left lowOut
    have less := (List.pairwise_append.mp sorted).2.2 high highIn low lowLater
    rw [Option.mem_def] at highHere lowHere
    simpa [List.getD_eq_getElem?_getD, highHere, lowHere] using less

end Rows

/-- Two ranks, each with one position and a row of two places. -/
def twoRanks (rank : Nat) : RankCandidates Int where
  logits := some ⟨1, fun _ _ => ((rank : Int) : WithBot Int)⟩
  topkIndices := fun _ col => if col = 0 then 0 else -1
  rowStarts := none

def twoPacked (rank : Nat) : Nat × Nat → WithBot Int × Int :=
  storeAll (fun _ => (⊥, 0)) ((packGrid 1 2).flatMap (packDcpTopkCandidatesKernel rank 2 1 1 2 (twoRanks rank)))

theorem merge_global_twoRanks : ∃ merged : Nat → List Int,
    (∀ rank row, rank < 2 → row < 1 →
      mergeDcpTopkRow 2 (sortTopk Int) 2 (twoRanks rank) twoPacked row = merged row) ∧
      ∀ row, row < 1 → MergedRow 2 (finitePositions (fun position => ((position : Int) : WithBot Int)) 2)
        (fun position => ((position : Int) : WithBot Int)) (merged row) := by
  apply (merge_global (sortTopk_valid) (by decide) Nat.one_pos (fun _ _ => by decide) ?_
    (fun rank _ => Launched.serial (packGrid 1 2) _ fun _ => (⊥, 0))).1 (by decide)
  intro rank row ranked placed
  have counted : localCount 2 1 rank 2 = 1 := by
    rcases (show rank = 0 ∨ rank = 1 by omega) with rfl | rfl <;> decide
  constructor
  · intro absent
    simp [twoRanks] at absent
  · intro logits present place inside
    rw [counted, Nat.lt_one_iff] at inside
    obtain rfl : _ = logits := Option.some.inj present
    simp [inside, twoRanks, globalOf]
  · intro _ first second firstIn secondIn
    simp only [twoRanks]
    split <;> split <;> omega
  · intro _ col _
    simp only [twoRanks]
    split <;> simp
  · intro _
    have picked : (twoRanks rank).picked 2 row = {0} := by
      ext place
      simp only [mem_picked, twoRanks, Finset.mem_singleton]
      constructor
      · rintro ⟨col, -, held⟩
        split at held <;> omega
      · rintro rfl
        exact ⟨0, by decide, rfl⟩
    rw [counted, picked]
    constructor
    · decide
    · decide
    · simp

/-- A rank that is alone, with a position at minus infinity in its row. -/
noncomputable def aloneRank : RankCandidates ℝ where
  logits := some ⟨2, fun _ col => if col = 0 then ((0 : ℝ) : WithBot ℝ) else ⊥⟩
  topkIndices := fun _ col => col
  rowStarts := none

/-- A rank that is alone keeps the position at minus infinity where the merge has padding. -/
theorem merge_alone_infinite : ¬∀ (ranks interleave k rows : Nat) (inputs : Nat → RankCandidates ℝ)
    (bounds : Nat → Nat) (scores : Nat → Nat → WithBot ℝ) (topk : List (WithBot ℝ) → Nat → List Nat)
    (memory packed : Nat → Nat × Nat → WithBot ℝ × Int), IsTopk topk → 0 < ranks → 0 < interleave → 0 < k →
    (∀ row, row < rows → bounds row ≤ 2 ^ 24) →
    (∀ rank row, rank < ranks → row < rows →
      (inputs rank).Holds ranks interleave rank k row (bounds row) (scores row)) →
    (∀ rank, rank < ranks → Launched (packGrid rows k)
      (packDcpTopkCandidatesKernel rank ranks interleave rows k (inputs rank)) (memory rank) (packed rank)) →
    ∃ merged : Nat → List Int,
      (∀ rank row, rank < ranks → row < rows → mergeDcpTopkRow ranks topk k (inputs rank) packed row = merged row) ∧
        ∀ row, row < rows → MergedRow k (finitePositions (scores row) (bounds row)) (scores row) (merged row) := by
  intro always
  let score : Nat → WithBot ℝ := fun position => if position = 0 then ((0 : ℝ) : WithBot ℝ) else ⊥
  have counted : localCount 1 1 0 2 = 2 := by decide
  have whole : ∀ place, globalOf 1 1 0 place = place := fun place => by simp [globalOf, Nat.mod_one]
  have picked : aloneRank.picked 2 0 = Finset.range 2 := by
    ext place
    simp [mem_picked, aloneRank]
  have entered : aloneRank.Holds 1 1 0 2 0 2 score := by
    constructor
    · intro absent
      simp [aloneRank] at absent
    · intro logits present place inside
      rw [counted] at inside
      obtain rfl : _ = logits := Option.some.inj present
      simp [whole, aloneRank, score, inside]
    · intro _ first second _ _ _ held
      exact Int.natCast_inj.mp held
    · intro _ col _
      exact Or.inl (Int.natCast_nonneg col)
    · intro _
      rw [counted, picked]
      constructor
      · exact Finset.Subset.refl _
      · simp
      · intro _ _ outside member left
        exact absurd member left
  obtain ⟨merged, same, holds⟩ := always 1 1 2 1 (fun _ => aloneRank) (fun _ => 2) (fun _ => score) (sortTopk ℝ)
    (fun _ _ => (⊥, 0)) _ sortTopk_valid Nat.one_pos Nat.one_pos (by decide) (fun _ _ => by decide)
    (fun rank row ranked placed => by
      rw [Nat.lt_one_iff] at ranked placed
      rw [ranked, placed]
      exact entered)
    (fun rank _ => Launched.serial (packGrid 1 2) _ fun _ => (⊥, 0))
  have padding := (holds 0 Nat.one_pos).padding
  rw [← same 0 0 Nat.one_pos Nat.one_pos, mergeDcpTopkRow, if_pos (Nat.le_refl 1)] at padding
  have finite : finitePositions score 2 = {0} := by
    ext position
    simp only [finitePositions, Finset.mem_filter, Finset.mem_range, Finset.mem_singleton, score]
    split <;> simp_all
  rw [finite] at padding
  simp [aloneRank, List.range_succ] at padding

end DgxSpark.Dcp
