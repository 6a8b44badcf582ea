import DgxSpark.Library.ExactFloat
import Mathlib.Algebra.BigOperators.Field
import Mathlib.Algebra.BigOperators.Group.Finset.Basic
import Mathlib.Data.List.GetD

/-
This file embeds the two merges of the attention outputs of the ranks: the head-major kernel and the fold of
`mla_attention.py`, after the neutralisation of empty rows in `flashmla_sparse.py`. Numbers are exact reals
with the special values; the casts between widths do not change them.
-/

namespace DgxSpark.Dcp
open DgxSpark.Library ExactFloat

/-- A rank's attention output by token, head and lane, and its log-sum-exp by token and head. -/
structure AttentionOutput where
  out : Nat → Nat → Nat → ExactFloat
  lse : Nat → Nat → ExactFloat

/-- `compact_dcp_candidates` counts the valid candidates of a token; without it the row is scanned. -/
def emptyRow (DCP_COMPACT : Bool) (topkIndices : List Int) : Bool :=
  if DCP_COMPACT then (topkIndices.map fun index => if 0 ≤ index then 1 else 0).sum = 0
  else topkIndices.all fun index => index == -1

/-- The end of `_forward_fp8_kv_mixed_batch`: the rows in which the rank owns no candidate are neutralised. -/
def neutralised (DCP_RS_HEADMAJOR DCP_COMPACT : Bool) (topkIndices : Nat → List Int) (kernel : AttentionOutput) :
    AttentionOutput where
  out := fun token head lane =>
    if !DCP_RS_HEADMAJOR && emptyRow DCP_COMPACT (topkIndices token) then .real 0 else kernel.out token head lane
  lse := fun token head => if emptyRow DCP_COMPACT (topkIndices token) then .negInf else kernel.lse token head

/-- NaN and infinity count as no mass. -/
noncomputable def cleaned (lse : ExactFloat) : ExactFloat := if lse = .nan ∨ lse = .posInf then .negInf else lse

/-- The log-sum-exp over the ranks in `_glm_correct_attn_cp_out_hm_kernel`. -/
noncomputable def mergedLse (N_ROUNDED : Nat) (lses : Nat → ExactFloat) : ExactFloat :=
  let lse := (List.range N_ROUNDED).map fun rank => cleaned (lses rank)
  let lseMax := maxOf lse
  let lseMax := if lseMax = .negInf then .real 0 else lseMax
  let lseExp := lse.map fun lane => (lane.sub lseMax).exp
  (sum lseExp).log.add lseMax

/-- `_glm_correct_attn_cp_out_hm_kernel` at a lane: the rank's output with its weight among all ranks. -/
noncomputable def glmCorrectAttnCpOutHmKernel (N_ROUNDED lseIdx : Nat) (lses : Nat → ExactFloat) (output : ExactFloat) :
    ExactFloat :=
  let factor := (cleaned ((lses lseIdx).sub (mergedLse N_ROUNDED lses))).exp
  let output := output.mul factor
  if factor = .real 0 then .real 0 else output

/-- `reduce_scatter`: the sum over the ranks, of which each rank gets its slice. -/
noncomputable def reduceScatter (world width rank : Nat) (partials : Nat → Nat → ExactFloat) (place : Nat) : ExactFloat :=
  sum ((List.range world).map fun other => partials other (rank * width + place))

/-- `dcp_lse_ag_out_rs_headmajor`: the merged output of a rank by head, token and lane. -/
noncomputable def dcpLseAgOutRsHeadmajor (world heads : Nat) (inputs : Nat → AttentionOutput) (rank : Nat) :
    Option (Nat → Nat → Nat → ExactFloat) :=
  if 1 < world ∧ world &&& (world - 1) = 0 ∧ heads % world = 0 then
    some fun head token lane =>
      reduceScatter world (heads / world) rank (fun other head =>
        glmCorrectAttnCpOutHmKernel world other (fun lseRank => (inputs lseRank).lse token head)
          ((inputs other).out token head lane)) head
  else none

def DCP_LSE_FOLD_MAX : ℝ := 80

/-- `dcp_fold_pack`: the weighted output, its weight and padding. -/
noncomputable def dcpFoldPack (headDim : Nat) (input : AttentionOutput) (token head lane : Nat) : ExactFloat :=
  let lse32 := input.lse token head
  let lse32 := if lse32 = .nan then .negInf else lse32
  let w := (lse32.clampMax (.real DCP_LSE_FOLD_MAX)).exp
  if lane < headDim then (input.out token head lane).mul w else if lane = headDim then w else .real 0

/-- `dcp_fold_unpack`. -/
noncomputable def dcpFoldUnpack (headDim : Nat) (reduced : Nat → ExactFloat) (lane : Nat) : ExactFloat :=
  let total := reduced headDim
  (reduced lane).div (if Greater total (.real 0) then total else .real 1)

/-- `dcp_fold_lse_rs`: the merged output of a rank by token, head and lane. -/
noncomputable def dcpFoldLseRs (world heads headDim : Nat) (inputs : Nat → AttentionOutput) (rank token head : Nat) :
    Nat → ExactFloat :=
  dcpFoldUnpack headDim fun lane =>
    reduceScatter world (heads / world) rank (fun other head => dcpFoldPack headDim (inputs other) token head lane) head

section Shards

/-- The candidates of a token that a rank owns, by their columns. -/
def shardOf (topkIndices : List Int) : Finset Nat :=
  (Finset.range topkIndices.length).filter fun column => 0 ≤ topkIndices.getD column (-1)

/-- The attention over some candidates: the sum of the values by softmax weight, and zero where there is none. -/
noncomputable def softmaxValue (candidates : Finset Nat) (score value : Nat → ℝ) : ℝ :=
  if candidates = ∅ then 0
  else (∑ candidate ∈ candidates, Real.exp (score candidate) * value candidate) /
    ∑ candidate ∈ candidates, Real.exp (score candidate)

noncomputable def logSumExp (candidates : Finset Nat) (score : Nat → ℝ) : ℝ :=
  Real.log (∑ candidate ∈ candidates, Real.exp (score candidate))

/-- The kernel computes the attention over its shard; on an empty shard it leaves anything. -/
structure AttentionOutput.Computes (kernel : AttentionOutput) (headDim : Nat) (shard : Finset Nat) (token head : Nat)
    (score : Nat → ℝ) (value : Nat → Nat → ℝ) : Prop where
  lse : shard.Nonempty → kernel.lse token head = .real (logSumExp shard score)
  out : shard.Nonempty → ∀ lane, lane < headDim →
    kernel.out token head lane = .real (softmaxValue shard score fun candidate => value candidate lane)

end Shards

section Rows

variable {topkIndices : List Int}

/-- Both ways to find the empty rows find the empty shards. -/
theorem emptyRow_iff (DCP_COMPACT : Bool) (slots : ∀ index ∈ topkIndices, index = -1 ∨ 0 ≤ index) :
    emptyRow DCP_COMPACT topkIndices = true ↔ shardOf topkIndices = ∅ := by
  have shard : shardOf topkIndices = ∅ ↔ ∀ index ∈ topkIndices, index < 0 := by
    rw [shardOf, Finset.filter_eq_empty_iff]
    constructor
    · intro none index member
      obtain ⟨column, inside, rfl⟩ := List.mem_iff_getElem.mp member
      have negative := none (Finset.mem_range.mpr inside)
      rw [List.getD_eq_getElem _ _ inside] at negative
      exact not_le.mp negative
    · intro negative column member
      have inside := Finset.mem_range.mp member
      rw [List.getD_eq_getElem _ _ inside]
      exact not_le.mpr (negative _ (List.getElem_mem inside))
  rw [shard, emptyRow]
  cases DCP_COMPACT with
  | true =>
      simp only [if_true, decide_eq_true_eq, List.sum_eq_zero_iff, List.mem_map, forall_exists_index, and_imp,
        forall_apply_eq_imp_iff₂]
      apply forall₂_congr
      intro index _
      split <;> simp_all
  | false =>
      simp only [Bool.false_eq_true, if_false, List.all_eq_true, beq_iff_eq]
      apply forall₂_congr
      intro index member
      have := slots index member
      omega

end Rows

section Softmax

variable {candidates : Finset Nat} {score value : Nat → ℝ}

/-- The mass of some candidates. -/
noncomputable def mass (candidates : Finset Nat) (score : Nat → ℝ) : ℝ :=
  ∑ candidate ∈ candidates, Real.exp (score candidate)

noncomputable def weighted (candidates : Finset Nat) (score value : Nat → ℝ) : ℝ :=
  ∑ candidate ∈ candidates, Real.exp (score candidate) * value candidate

theorem mass_nonneg (candidates : Finset Nat) (score : Nat → ℝ) : 0 ≤ mass candidates score :=
  Finset.sum_nonneg fun _ _ => (Real.exp_pos _).le

theorem mass_pos (some : candidates.Nonempty) : 0 < mass candidates score :=
  Finset.sum_pos (fun _ _ => Real.exp_pos _) some

@[simp] theorem mass_empty : mass ∅ score = 0 := Finset.sum_empty

@[simp] theorem weighted_empty : weighted ∅ score value = 0 := Finset.sum_empty

theorem softmaxValue_eq : softmaxValue candidates score value = weighted candidates score value / mass candidates score := by
  unfold softmaxValue
  split
  · rename_i nothing
    rw [nothing, weighted_empty, zero_div]
  · rfl

end Softmax

section Kernel

variable {world : Nat} {weights : Nat → ℝ} {lses : Nat → ExactFloat}

theorem cleaned_log {weight : ℝ} (nonneg : 0 ≤ weight) : cleaned (ExactFloat.real weight).log = (ExactFloat.real weight).log := by
  rcases log_cases nonneg with ⟨rfl, zero⟩ | ⟨positive, log⟩
  · simp [cleaned, zero]
  · simp [cleaned, log]

/-- The merged log-sum-exp is the logarithm of the total weight. -/
theorem mergedLse_eq (some : 0 < world) (nonneg : ∀ rank, 0 ≤ weights rank)
    (logs : ∀ rank, rank < world → lses rank = (ExactFloat.real (weights rank)).log) :
    mergedLse world lses = (ExactFloat.real (∑ rank ∈ Finset.range world, weights rank)).log := by
  have lanes : ((List.range world).map fun rank => cleaned (lses rank)) =
      (List.range world).map fun rank => (ExactFloat.real (weights rank)).log := by
    apply List.map_congr_left
    intro rank member
    rw [logs rank (List.mem_range.mp member), cleaned_log (nonneg rank)]
  -- The largest lane is a number, or minus infinity, which is replaced by zero.
  obtain ⟨shift, shifted⟩ : ∃ shift : ℝ, (if maxOf ((List.range world).map fun rank =>
      (ExactFloat.real (weights rank)).log) = .negInf then ExactFloat.real 0 else maxOf ((List.range world).map fun rank =>
        (ExactFloat.real (weights rank)).log)) = .real shift := by
    split
    · exact ⟨0, rfl⟩
    · rename_i finite
      have nonempty : ((List.range world).map fun rank => (ExactFloat.real (weights rank)).log) ≠ [] := by
        simpa using some.ne'
      obtain ⟨rank, -, here⟩ := List.mem_map.mp (maxOf_mem nonempty)
      rcases log_cases (nonneg rank) with ⟨-, zero⟩ | ⟨-, log⟩
      · rw [← here, zero] at finite
        exact absurd rfl finite
      · exact ⟨_, here.symm.trans log⟩
  have total : 0 ≤ ∑ rank ∈ Finset.range world, weights rank := Finset.sum_nonneg fun rank _ => nonneg rank
  simp only [mergedLse, lanes, shifted, List.map_map]
  have exps : ((List.range world).map ((fun lane => (lane.sub (.real shift)).exp) ∘ fun rank =>
      (ExactFloat.real (weights rank)).log)) =
        (List.range world).map fun rank => ExactFloat.real (weights rank * Real.exp (-shift)) := by
    apply List.map_congr_left
    intro rank _
    exact exp_log_sub (nonneg rank) shift
  rw [exps, sum_real, ← List.sum_toFinset, List.toFinset_range, ← Finset.sum_mul, log_mul_exp_add total]
  exact List.nodup_range

/-- The kernel scales an output by its part of the total weight; without weight the output is dropped. -/
theorem glmCorrectAttnCpOutHmKernel_eq (nonneg : ∀ rank, 0 ≤ weights rank)
    (logs : ∀ rank, rank < world → lses rank = (ExactFloat.real (weights rank)).log) {rank : Nat} (ranked : rank < world)
    {output : ExactFloat} {value : ℝ} (computed : 0 < weights rank → output = .real value) :
    glmCorrectAttnCpOutHmKernel world rank lses output =
      .real (value * (weights rank / ∑ other ∈ Finset.range world, weights other)) := by
  rw [glmCorrectAttnCpOutHmKernel, mergedLse_eq (Nat.zero_lt_of_lt ranked) nonneg logs, logs rank ranked]
  have total : 0 ≤ ∑ other ∈ Finset.range world, weights other := Finset.sum_nonneg fun other _ => nonneg other
  rcases log_cases (nonneg rank) with ⟨none, zero⟩ | ⟨positive, log⟩
  · have factor : (cleaned (ExactFloat.negInf.sub
        (ExactFloat.real (∑ other ∈ Finset.range world, weights other)).log)).exp = .real 0 := by
      rcases log_cases total with ⟨-, totalZero⟩ | ⟨-, totalLog⟩
      · rw [totalZero]
        simp [ExactFloat.sub, ExactFloat.neg, ExactFloat.add, cleaned]
      · rw [totalLog]
        simp [cleaned]
    simp only [zero, factor, if_true]
    rw [none, zero_div, mul_zero]
  · have some : 0 < ∑ other ∈ Finset.range world, weights other :=
      positive.trans_le (Finset.single_le_sum (fun other _ => nonneg other) (Finset.mem_range.mpr ranked))
    have part : 0 < weights rank / ∑ other ∈ Finset.range world, weights other := div_pos positive some
    have factor : (cleaned ((ExactFloat.real (Real.log (weights rank))).sub
        (ExactFloat.real (∑ other ∈ Finset.range world, weights other)).log)).exp =
          .real (weights rank / ∑ other ∈ Finset.range world, weights other) := by
      rw [log_real some, real_sub_real, ← Real.log_div positive.ne' some.ne']
      simp [cleaned, Real.exp_log part]
    rw [log, factor, computed positive, real_mul_real, if_neg]
    intro same
    exact part.ne' (ExactFloat.real.inj same)

/-- A fold carries the weighted output and its weight. -/
theorem dcpFoldPack_eq {headDim token head : Nat} {input : AttentionOutput} {weight : ℝ} {value : Nat → ℝ}
    (nonneg : 0 ≤ weight) (log : input.lse token head = (ExactFloat.real weight).log)
    (bounded : 0 < weight → Real.log weight ≤ DCP_LSE_FOLD_MAX)
    (out : ∀ lane, lane < headDim → input.out token head lane = .real (value lane)) :
    (∀ lane, lane < headDim → dcpFoldPack headDim input token head lane = .real (value lane * weight)) ∧
      dcpFoldPack headDim input token head headDim = .real weight := by
  have clamped : (ExactFloat.real weight).log.clampMax (.real DCP_LSE_FOLD_MAX) = (ExactFloat.real weight).log := by
    rcases log_cases nonneg with ⟨rfl, zero⟩ | ⟨positive, log⟩
    · rw [zero, clampMax, if_neg (by simp), min_eq_left (negInf_le_real _)]
    · rw [log, clampMax, if_neg (by simp), min_eq_left (real_le_real.mpr (bounded positive))]
  have number : (ExactFloat.real weight).log ≠ .nan := by
    rcases log_cases nonneg with ⟨-, zero⟩ | ⟨-, log⟩
    · simp [zero]
    · simp [log]
  constructor
  · intro lane inside
    simp only [dcpFoldPack, log, if_neg number, clamped, exp_log nonneg, if_pos inside, out lane inside, real_mul_real]
  · simp only [dcpFoldPack, log, if_neg number, clamped, exp_log nonneg, lt_irrefl, if_false, if_true]

theorem dcpFoldUnpack_eq {headDim lane : Nat} {reduced : Nat → ExactFloat} {total value : ℝ} (nonneg : 0 ≤ total)
    (weight : reduced headDim = .real total) (payload : reduced lane = .real value) (none : total = 0 → value = 0) :
    dcpFoldUnpack headDim reduced lane = .real (value / total) := by
  simp only [dcpFoldUnpack, weight, payload, greater_real]
  rcases nonneg.eq_or_lt with rfl | positive
  · simp [none rfl, ExactFloat.div]
  · rw [if_pos positive, ExactFloat.div, if_neg positive.ne']

end Kernel

section Merge

variable {world heads headDim : Nat} {topkIndices : Nat → Nat → List Int} {kernel : Nat → AttentionOutput}
  {score : Nat → Nat → Nat → ℝ} {value : Nat → Nat → Nat → Nat → ℝ}

/-- The candidates of a token over all ranks. -/
def candidatesOf (world : Nat) (topkIndices : Nat → Nat → List Int) (token : Nat) : Finset Nat :=
  (Finset.range world).biUnion fun rank => shardOf (topkIndices rank token)

/-- Each candidate of a token is owned by one rank; the others hold -1 in its column. -/
structure Sharded (world : Nat) (topkIndices : Nat → Nat → List Int) : Prop where
  slots : ∀ rank token, ∀ index ∈ topkIndices rank token, index = -1 ∨ 0 ≤ index
  apart : ∀ token first second, first < world → second < world → first ≠ second →
    Disjoint (shardOf (topkIndices first token)) (shardOf (topkIndices second token))

/-- A sum over all candidates is the sum over the shards. -/
theorem Sharded.sum (sharded : Sharded world topkIndices) (token : Nat) (term : Nat → ℝ) :
    ∑ candidate ∈ candidatesOf world topkIndices token, term candidate =
      ∑ rank ∈ Finset.range world, ∑ candidate ∈ shardOf (topkIndices rank token), term candidate := by
  apply Finset.sum_biUnion
  intro first firstIn second secondIn different
  exact sharded.apart token first second (Finset.mem_range.mp firstIn) (Finset.mem_range.mp secondIn) different

/-- After the neutralisation the log-sum-exp of a shard is the logarithm of its mass. -/
theorem neutralised_lse (sharded : Sharded world topkIndices) (DCP_RS_HEADMAJOR DCP_COMPACT : Bool)
    {rank token head : Nat} (computes : (kernel rank).Computes headDim (shardOf (topkIndices rank token)) token head
      (score token head) (value token head)) :
    (neutralised DCP_RS_HEADMAJOR DCP_COMPACT (topkIndices rank) (kernel rank)).lse token head =
      (ExactFloat.real (mass (shardOf (topkIndices rank token)) (score token head))).log := by
  have empty := emptyRow_iff DCP_COMPACT (sharded.slots rank token)
  by_cases nothing : shardOf (topkIndices rank token) = ∅
  · simp only [neutralised, if_pos (empty.mpr nothing), nothing, mass_empty, log_zero]
  · have some := Finset.nonempty_iff_ne_empty.mpr nothing
    simp only [neutralised, if_neg fun found => nothing (empty.mp found)]
    rw [computes.lse some, log_real (mass_pos some)]
    rfl

theorem neutralised_out (sharded : Sharded world topkIndices) (DCP_RS_HEADMAJOR DCP_COMPACT : Bool)
    {rank token head lane : Nat} (computes : (kernel rank).Computes headDim (shardOf (topkIndices rank token)) token head
      (score token head) (value token head)) (inside : lane < headDim)
    (kept : DCP_RS_HEADMAJOR = false ∨ (shardOf (topkIndices rank token)).Nonempty) :
    (neutralised DCP_RS_HEADMAJOR DCP_COMPACT (topkIndices rank) (kernel rank)).out token head lane =
      .real (softmaxValue (shardOf (topkIndices rank token)) (score token head) fun candidate =>
        value token head candidate lane) := by
  have empty := emptyRow_iff DCP_COMPACT (sharded.slots rank token)
  by_cases nothing : shardOf (topkIndices rank token) = ∅
  · obtain rfl : DCP_RS_HEADMAJOR = false := by
      rcases kept with off | some
      · exact off
      · exact absurd nothing some.ne_empty
    simp [neutralised, empty.mpr nothing, nothing, softmaxValue]
  · have occupied : emptyRow DCP_COMPACT (topkIndices rank token) = false := by
      rw [← Bool.not_eq_true]
      exact fun found => nothing (empty.mp found)
    simp only [neutralised, occupied, Bool.and_false, Bool.false_eq_true, if_false]
    exact computes.out (Finset.nonempty_iff_ne_empty.mpr nothing) lane inside

/-- The parts of the ranks add up to the attention over all candidates. -/
theorem softmaxValue_parts (sharded : Sharded world topkIndices) (token : Nat) (score value : Nat → ℝ) :
    (∑ rank ∈ Finset.range world, weighted (shardOf (topkIndices rank token)) score value) /
        (∑ rank ∈ Finset.range world, mass (shardOf (topkIndices rank token)) score) =
      softmaxValue (candidatesOf world topkIndices token) score value := by
  rw [softmaxValue_eq, weighted, mass, sharded.sum, sharded.sum]
  rfl

theorem softmaxValue_mul_mass (candidates : Finset Nat) (score value : Nat → ℝ) :
    softmaxValue candidates score value * mass candidates score = weighted candidates score value := by
  rcases candidates.eq_empty_or_nonempty with rfl | some
  · simp
  · rw [softmaxValue_eq, div_mul_cancel₀ _ (mass_pos some).ne']

/-- Over the ranks a sum of numbers is a number. -/
theorem reduceScatter_real {width rank place : Nat} {partials : Nat → Nat → ExactFloat} {term : Nat → ℝ}
    (parts : ∀ other, other < world → partials other (rank * width + place) = .real (term other)) :
    reduceScatter world width rank partials place = .real (∑ other ∈ Finset.range world, term other) := by
  have lanes : ((List.range world).map fun other => partials other (rank * width + place)) =
      (List.range world).map fun other => ExactFloat.real (term other) := by
    apply List.map_congr_left
    intro other member
    exact parts other (List.mem_range.mp member)
  rw [reduceScatter, lanes, sum_real, ← List.sum_toFinset, List.toFinset_range]
  exact List.nodup_range

/-- The head-major merge computes the attention over all candidates of a token. -/
theorem headmajor_lane (sharded : Sharded world topkIndices) (DCP_COMPACT : Bool) {rank width head token lane : Nat}
    (computes : ∀ other, other < world → (kernel other).Computes headDim (shardOf (topkIndices other token)) token
      (rank * width + head) (score token (rank * width + head)) (value token (rank * width + head)))
    (inside : lane < headDim) :
    reduceScatter world width rank (fun other head => glmCorrectAttnCpOutHmKernel world other
      (fun lseRank => (neutralised true DCP_COMPACT (topkIndices lseRank) (kernel lseRank)).lse token head)
      ((neutralised true DCP_COMPACT (topkIndices other) (kernel other)).out token head lane)) head =
        .real (softmaxValue (candidatesOf world topkIndices token) (score token (rank * width + head)) fun candidate =>
          value token (rank * width + head) candidate lane) := by
  let weights := fun other => mass (shardOf (topkIndices other token)) (score token (rank * width + head))
  rw [← softmaxValue_parts sharded, Finset.sum_div]
  apply reduceScatter_real
  intro other ranked
  have scaled := @glmCorrectAttnCpOutHmKernel_eq world weights _ (fun _ => mass_nonneg _ _)
    (fun lseRank lseRanked => neutralised_lse sharded true DCP_COMPACT (computes lseRank lseRanked)) other ranked _ _
    (fun positive => by
      apply neutralised_out sharded true DCP_COMPACT (computes other ranked) inside
      refine Or.inr ?_
      rw [Finset.nonempty_iff_ne_empty]
      intro nothing
      simp [weights, nothing] at positive)
  rw [scaled, ← mul_div_assoc, softmaxValue_mul_mass]

/-- The fold computes the attention over all candidates of a token. -/
theorem fold_lane (sharded : Sharded world topkIndices) (DCP_COMPACT : Bool) {rank head token lane : Nat}
    (computes : ∀ other, other < world → (kernel other).Computes headDim (shardOf (topkIndices other token)) token
      (rank * (heads / world) + head) (score token (rank * (heads / world) + head))
      (value token (rank * (heads / world) + head)))
    (bounded : ∀ other, other < world → (shardOf (topkIndices other token)).Nonempty →
      logSumExp (shardOf (topkIndices other token)) (score token (rank * (heads / world) + head)) ≤ DCP_LSE_FOLD_MAX)
    (inside : lane < headDim) :
    dcpFoldLseRs world heads headDim (fun other => neutralised false DCP_COMPACT (topkIndices other) (kernel other)) rank
      token head lane = .real (softmaxValue (candidatesOf world topkIndices token)
        (score token (rank * (heads / world) + head)) fun candidate =>
          value token (rank * (heads / world) + head) candidate lane) := by
  have packed := fun other ranked => dcpFoldPack_eq (mass_nonneg _ _)
    (neutralised_lse sharded false DCP_COMPACT (computes other ranked))
    (fun positive => bounded other ranked (by
      rw [Finset.nonempty_iff_ne_empty]
      intro nothing
      simp [nothing] at positive))
    (fun lane within => neutralised_out sharded false DCP_COMPACT (computes other ranked) within (Or.inl rfl))
  rw [← softmaxValue_parts sharded, dcpFoldLseRs]
  apply dcpFoldUnpack_eq (Finset.sum_nonneg fun _ _ => mass_nonneg _ _)
  · apply reduceScatter_real
    intro other ranked
    exact (packed other ranked).2
  · apply reduceScatter_real
    intro other ranked
    rw [(packed other ranked).1 lane inside, softmaxValue_mul_mass]
  · intro zero
    apply Finset.sum_eq_zero
    intro other member
    have none := (Finset.sum_eq_zero_iff_of_nonneg fun _ _ => mass_nonneg _ _).mp zero other member
    rw [← softmaxValue_mul_mass, none, mul_zero]

/-- Both merges give each rank, for its heads, the attention over the union of all shards; they differ in the
layout only. -/
theorem merges_softmax {tokens : Nat} (shared : 2 ≤ world) (divided : heads % world = 0)
    (sharded : Sharded world topkIndices)
    (computes : ∀ rank token head, rank < world → token < tokens → head < heads → (kernel rank).Computes headDim
      (shardOf (topkIndices rank token)) token head (score token head) (value token head))
    (bounded : ∀ rank token head, rank < world → token < tokens → head < heads →
      (shardOf (topkIndices rank token)).Nonempty →
        logSumExp (shardOf (topkIndices rank token)) (score token head) ≤ DCP_LSE_FOLD_MAX)
    (DCP_COMPACT : Bool) {rank : Nat} (ranked : rank < world) :
    ((∃ exponent, world = 2 ^ exponent) → ∃ merged, dcpLseAgOutRsHeadmajor world heads (fun other =>
        neutralised true DCP_COMPACT (topkIndices other) (kernel other)) rank = some merged ∧
      ∀ head token lane, head < heads / world → token < tokens → lane < headDim → merged head token lane =
        .real (softmaxValue (candidatesOf world topkIndices token) (score token (rank * (heads / world) + head))
          fun candidate => value token (rank * (heads / world) + head) candidate lane)) ∧
      ∀ token head lane, token < tokens → head < heads / world → lane < headDim →
        dcpFoldLseRs world heads headDim (fun other =>
          neutralised false DCP_COMPACT (topkIndices other) (kernel other)) rank token head lane =
            .real (softmaxValue (candidatesOf world topkIndices token) (score token (rank * (heads / world) + head))
              fun candidate => value token (rank * (heads / world) + head) candidate lane) := by
  have own : ∀ head, head < heads / world → rank * (heads / world) + head < heads := by
    intro head inside
    have whole : world * (heads / world) = heads := Nat.mul_div_cancel' (Nat.dvd_of_mod_eq_zero divided)
    calc rank * (heads / world) + head < rank * (heads / world) + heads / world := Nat.add_lt_add_left inside _
      _ = (rank + 1) * (heads / world) := (Nat.succ_mul _ _).symm
      _ ≤ world * (heads / world) := Nat.mul_le_mul_right _ ranked
      _ = heads := whole
  constructor
  · rintro ⟨exponent, power⟩
    have single : world &&& (world - 1) = 0 := by
      rw [power, Nat.and_two_pow_sub_one_eq_mod, Nat.mod_self]
    refine ⟨_, if_pos ⟨shared, single, divided⟩, ?_⟩
    intro head token lane headInside tokenInside inside
    exact headmajor_lane sharded DCP_COMPACT
      (fun other otherRanked => computes other token _ otherRanked tokenInside (own head headInside)) inside
  · intro token head lane tokenInside headInside inside
    exact fold_lane sharded DCP_COMPACT
      (fun other otherRanked => computes other token _ otherRanked tokenInside (own head headInside))
      (fun other otherRanked => bounded other token _ otherRanked tokenInside (own head headInside)) inside

end Merge

section OneShard

/-- One candidate, on the first of two ranks. -/
def oneShard (rank _token : Nat) : List Int := if rank = 0 then [0] else [-1]

/-- The second rank leaves NaN in its empty rows. -/
noncomputable def oneShardKernel (rank : Nat) : AttentionOutput where
  out := fun _ _ _ => if rank = 0 then .real 1 else .nan
  lse := fun _ _ => if rank = 0 then .real 0 else .nan

theorem oneShard_sharded : Sharded 2 oneShard where
  slots := by
    intro rank token index member
    unfold oneShard at member
    split at member <;> simp_all
  apart := by
    intro token first second firstRanked secondRanked different
    rcases (show first = 0 ∧ second = 1 ∨ first = 1 ∧ second = 0 by omega) with ⟨rfl, rfl⟩ | ⟨rfl, rfl⟩ <;>
      simp only [oneShard] <;> decide

theorem oneShardKernel_computes (rank token head : Nat) :
    (oneShardKernel rank).Computes 1 (shardOf (oneShard rank token)) token head (fun _ => 0) fun _ _ => 1 := by
  by_cases first : rank = 0
  · have shard : shardOf (oneShard rank token) = {0} := by
      simp only [oneShard, first, if_true]
      decide
    rw [shard]
    constructor <;> intro _ <;> simp [oneShardKernel, first, logSumExp, softmaxValue]
  · have shard : shardOf (oneShard rank token) = ∅ := by
      simp only [oneShard, first, if_false]
      decide
    rw [shard]
    constructor <;> intro some <;> exact absurd rfl some.ne_empty

theorem merges_softmax_oneShard : (∃ merged, dcpLseAgOutRsHeadmajor 2 2 (fun other =>
      neutralised true true (oneShard other) (oneShardKernel other)) 0 = some merged ∧
    merged 0 0 0 = .real (softmaxValue (candidatesOf 2 oneShard 0) (fun _ => 0) fun _ => 1)) ∧
      dcpFoldLseRs 2 2 1 (fun other => neutralised false true (oneShard other) (oneShardKernel other)) 0 0 0 0 =
        .real (softmaxValue (candidatesOf 2 oneShard 0) (fun _ => 0) fun _ => 1) := by
  have merges := @merges_softmax 2 2 1 oneShard oneShardKernel (fun _ _ _ => 0) (fun _ _ _ _ => 1) 1 (Nat.le_refl 2) (by decide) oneShard_sharded
    (fun rank token head _ _ _ => oneShardKernel_computes rank token head)
    (fun rank token head _ _ _ some => by
      by_cases first : rank = 0
      · have shard : shardOf (oneShard rank token) = {0} := by
          simp only [oneShard, first, if_true]
          decide
        simp [shard, logSumExp, DCP_LSE_FOLD_MAX]
      · have shard : shardOf (oneShard rank token) = ∅ := by
          simp only [oneShard, first, if_false]
          decide
        exact absurd shard some.ne_empty)
    true 0 (by decide)
  obtain ⟨merged, built, lanes⟩ := merges.1 ⟨1, rfl⟩
  exact ⟨⟨merged, built, lanes 0 0 0 (by decide) Nat.one_pos Nat.one_pos⟩,
    merges.2 0 0 0 Nat.one_pos (by decide) Nat.one_pos⟩

end OneShard

end DgxSpark.Dcp
