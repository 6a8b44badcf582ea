import DgxSpark.Spec.Resample

/-
This file shows what the last kernels of `rejection_sample` make of a request: the token that follows the
accepted drafts, and the think state of the request's slot.
-/

namespace DgxSpark.Spec
open DgxSpark.Library ExactFloat

variable {batch : VerificationBatch} {draws : Draws} {settings : LossySettings} {fresh : Fresh} {reqIdx : Nat}

section Statistics

/-- The kernel reduces the rows of the drafts. -/
theorem blockStats_greedy (inside : reqIdx < batch.numReqs) {i : Nat} (drafted : i < batch.numDrafts reqIdx)
    (greedy : batch.temperature (batch.idxMapping reqIdx) = 0) :
    GreedyBlocks batch (batch.cuNumLogits reqIdx + i)
      fun block => (blockStats batch settings fresh (batch.cuNumLogits reqIdx + i) block).toBlockStats := by
  obtain ⟨row, slot, place⟩ := batch.draft_row inside drafted
  have cells : ∀ block, block < batch.vocabNumBlocks →
      (blockStats batch settings fresh (batch.cuNumLogits reqIdx + i) block).targetLocalArgmax =
        (block * VOCAB_BLOCK_SIZE +
          argmaxOf (batch.targetBlock (batch.cuNumLogits reqIdx + i) VOCAB_BLOCK_SIZE block) : Int) ∧
      (blockStats batch settings fresh (batch.cuNumLogits reqIdx + i) block).targetLocalMax =
        maxOf (batch.targetBlock (batch.cuNumLogits reqIdx + i) VOCAB_BLOCK_SIZE block) := by
    intro block blockInside
    rw [blockStats, if_pos ⟨row, blockInside⟩, computeBlockStatsKernel, if_neg (not_le.mpr place), slot, if_pos greedy]
    split <;> simp only [greedyBlockStats_argmax, greedyBlockStats_max, and_self]
  constructor
  · intro block blockInside
    push_cast
    exact (cells block blockInside).1
  · intro block blockInside
    exact (cells block blockInside).2

/-- A row of a request that has opted in has its runner-up and its summed exponentials too. -/
theorem blockStats_lossy (inside : reqIdx < batch.numReqs) {i : Nat} (drafted : i < batch.numDrafts reqIdx)
    (greedy : batch.temperature (batch.idxMapping reqIdx) = 0) (opted : 0 ≤ settings.margin (batch.idxMapping reqIdx))
    {block : Nat} (blockInside : block < batch.vocabNumBlocks) :
    (blockStats batch settings fresh (batch.cuNumLogits reqIdx + i) block).targetLocalSecond =
        blockSecond batch (batch.cuNumLogits reqIdx + i) block ∧
      (blockStats batch settings fresh (batch.cuNumLogits reqIdx + i) block).targetLocalSumexp =
        (computeBlockMaxAndSumexp (batch.targetBlock (batch.cuNumLogits reqIdx + i) VOCAB_BLOCK_SIZE block)).2 := by
  obtain ⟨row, slot, place⟩ := batch.draft_row inside drafted
  rw [blockStats, if_pos ⟨row, blockInside⟩, computeBlockStatsKernel, if_neg (not_le.mpr place), slot, if_pos greedy,
    if_pos opted, blockSecond]
  simp only [and_self]

/-- A draft is the first maximum of its row. -/
def DraftExact (batch : VerificationBatch) (reqIdx i : Nat) : Prop :=
  ∃ place : Nat, batch.draftSampled (batch.cuNumLogits reqIdx + i + 1) = place ∧
    IsFirstMax (fun column : Nat => batch.targetLogit (batch.cuNumLogits reqIdx + i) column) batch.vocabSize place

theorem GreedyBlocks.exact_iff {stats : Nat → BlockStats} {i : Nat}
    (reduced : GreedyBlocks batch (batch.cuNumLogits reqIdx + i) stats) :
    targetArgmax batch stats = batch.draftSampled (batch.cuNumLogits reqIdx + i + 1) ↔ DraftExact batch reqIdx i := by
  obtain ⟨place, argmax, first⟩ := reduced.argmax_first
  constructor
  · intro same
    exact ⟨place, by rw [← same, argmax], first⟩
  · intro held
    obtain ⟨other, drafted, there⟩ := held
    rw [argmax, drafted, first.unique there]

end Statistics

/-- The loop of the overlay before a turn. -/
noncomputable def lossyBefore (batch : VerificationBatch) (draws : Draws) (settings : LossySettings) (fresh : Fresh)
    (reqIdx turn : Nat) : LossyVerification :=
  (List.range turn).foldl (rejectionStep batch draws settings (blockStats batch settings fresh) reqIdx)
    { rejectedStep := 0, targetLse := .real 0, draftLse := .real 0, accepted := true, sampled := fresh.sampled reqIdx,
      relaxedStep := 0, inThink := settings.initialThink (batch.idxMapping reqIdx) }

theorem lossyBefore_succ (turn : Nat) :
    lossyBefore batch draws settings fresh reqIdx (turn + 1) =
      rejectionStep batch draws settings (blockStats batch settings fresh) reqIdx
        (lossyBefore batch draws settings fresh reqIdx turn) turn := by
  rw [lossyBefore, List.range_succ, List.foldl_concat, lossyBefore]

/-- The verification of a request by the overlay. -/
noncomputable def verifiedOf (batch : VerificationBatch) (draws : Draws) (settings : LossySettings) (fresh : Fresh)
    (reqIdx : Nat) : LossyVerification :=
  lossyBefore batch draws settings fresh reqIdx (batch.numDrafts reqIdx)

/-- A turn accepts at most its draft. -/
theorem rejectionStep_le (stats : Nat → Nat → LossyBlockStats) (state : LossyVerification) (turn : Nat) :
    (rejectionStep batch draws settings stats reqIdx state turn).rejectedStep ≤ state.rejectedStep + 1 := by
  have counted : ∀ accepted : Bool, (if accepted then state.rejectedStep + 1 else state.rejectedStep) ≤
      state.rejectedStep + 1 := by
    intro accepted
    cases accepted <;> simp
  rw [rejectionStep]
  split
  · split
    · rw [greedyStep]
      cases batch.syntheticConditionalRates with
      | some rates => exact counted _
      | none => exact counted _
    · exact counted _
  · exact Nat.le_succ _

theorem rejectedStep_le (turn : Nat) : (lossyBefore batch draws settings fresh reqIdx turn).rejectedStep ≤ turn := by
  induction turn with
  | zero => exact le_refl _
  | succ turn ih =>
      rw [lossyBefore_succ]
      exact (rejectionStep_le _ _ turn).trans (Nat.succ_le_succ ih)

theorem verified_le : (verifiedOf batch draws settings fresh reqIdx).rejectedStep ≤ batch.numDrafts reqIdx :=
  rejectedStep_le _

section Bonus

variable {verified : Verification} {old : Nat → ResampledBlock}

/-- The bonus token of a greedy request is the first maximum of the bonus row. -/
theorem insertedToken_bonus (inside : reqIdx < batch.numReqs)
    (greedy : batch.temperature (batch.idxMapping reqIdx) = 0)
    (all : verified.rejectedStep = batch.numDrafts reqIdx) :
    ∃ place : Nat, insertedToken batch
        (drawnBlocks batch draws verified.rejectedStep verified.targetLse verified.draftLse reqIdx old) = place ∧
      IsFirstMax (fun column : Nat => batch.targetLogit (batch.cuNumLogits reqIdx + batch.numDrafts reqIdx) column)
        batch.vocabSize place := by
  obtain ⟨slot, bonus⟩ := batch.resampled_row inside (le_refl (batch.numDrafts reqIdx))
  have bonus := bonus.mpr rfl
  have drawn : ∀ block, block < batch.resampleNumBlocks →
      drawnBlocks batch draws verified.rejectedStep verified.targetLse verified.draftLse reqIdx old block =
        { resampledLocalArgmax := block * RESAMPLE_BLOCK_SIZE + argmaxOf ((List.range RESAMPLE_BLOCK_SIZE).map
            (blockRow (batch.targetRow (batch.cuNumLogits reqIdx + batch.numDrafts reqIdx)) batch.vocabSize
              RESAMPLE_BLOCK_SIZE .negInf block))
          resampledLocalMax := maxOf ((List.range RESAMPLE_BLOCK_SIZE).map
            (blockRow (batch.targetRow (batch.cuNumLogits reqIdx + batch.numDrafts reqIdx)) batch.vocabSize
              RESAMPLE_BLOCK_SIZE .negInf block)) } := by
    intro block blockInside
    have lanes : (List.range RESAMPLE_BLOCK_SIZE).map (fun lane =>
          if batch.temperature (batch.idxMapping reqIdx) ≠ 0 then
            if block * RESAMPLE_BLOCK_SIZE + lane < batch.vocabSize then
              (residualLogit batch (batch.numDrafts reqIdx) verified.targetLse verified.draftLse reqIdx
                (block * RESAMPLE_BLOCK_SIZE + lane)).add (gumbelNoise batch draws
                  (draws.randint (batch.seed (batch.idxMapping reqIdx))
                    (batch.pos (batch.cuNumLogits reqIdx + batch.numDrafts reqIdx)))
                  ((block * RESAMPLE_BLOCK_SIZE + lane : Nat) : Int))
            else ExactFloat.negInf
          else residualLogit batch (batch.numDrafts reqIdx) verified.targetLse verified.draftLse reqIdx
            (block * RESAMPLE_BLOCK_SIZE + lane)) =
        (List.range RESAMPLE_BLOCK_SIZE).map
          (blockRow (batch.targetRow (batch.cuNumLogits reqIdx + batch.numDrafts reqIdx)) batch.vocabSize
            RESAMPLE_BLOCK_SIZE .negInf block) := by
      apply List.map_congr_left
      intro lane _
      rw [if_neg (not_not.mpr greedy), residualLogit, if_pos bonus]
      rfl
    rw [drawnBlocks, if_pos blockInside, all, resampleKernel_drawn (by simp [bonus]), gumbelBlockArgmax]
    simp only [slot]
    rw [lanes]
  have found := @argmaxOf_blocks _ _ _ (batch.targetRow (batch.cuNumLogits reqIdx + batch.numDrafts reqIdx)) _ _
    batch.resampleNumBlocks _ .negInf resampleBlock_pos (cdiv_pos batch.vocab_pos resampleBlock_pos) (le_nextPowerOf2 batch.resampleNumBlocks)
    (cdiv_covers resampleBlock_pos) (fun _ blockInside => cdiv_started resampleBlock_pos blockInside)
    (fun _ _ => negInf_lt_real _)
    (fun block => (drawnBlocks batch draws verified.rejectedStep verified.targetLse verified.draftLse reqIdx old
      block).resampledLocalMax)
    (by
      intro block blockInside
      rw [drawn block blockInside]) _ _ rfl rfl
  obtain ⟨blockInside, -, first, -⟩ := found
  refine ⟨_, ?_, isFirstMax_real.mp first⟩
  rw [insertedToken, loadBlocks, drawn _ blockInside]
  push_cast
  rfl

/-- A greedy request whose drafts were not all accepted keeps its row. -/
theorem insertedRow_rejected (inside : reqIdx < batch.numReqs)
    (greedy : batch.temperature (batch.idxMapping reqIdx) = 0)
    (some : verified.rejectedStep < batch.numDrafts reqIdx) :
    insertedRow batch draws verified reqIdx old = verified.sampled := by
  obtain ⟨slot, bonus⟩ := batch.resampled_row inside some.le
  have notBonus := mt bonus.mp some.ne
  rw [insertedRow, insertSampled, slot, if_pos ⟨greedy, decide_eq_false notBonus⟩]

/-- After all drafts the bonus token is inserted. -/
theorem insertedRow_bonus (inside : reqIdx < batch.numReqs) (all : verified.rejectedStep = batch.numDrafts reqIdx) :
    insertedRow batch draws verified reqIdx old =
      Function.update verified.sampled verified.rejectedStep (insertedToken batch
        (drawnBlocks batch draws verified.rejectedStep verified.targetLse verified.draftLse reqIdx old)) := by
  obtain ⟨-, bonus⟩ := batch.resampled_row inside all.le
  rw [insertedRow, insertSampled, if_neg]
  intro early
  exact of_decide_eq_false early.2 (bonus.mpr all)

end Bonus

section ThinkState

/-- The blocks drawn for a request. -/
noncomputable def drawnOf (batch : VerificationBatch) (draws : Draws) (settings : LossySettings) (fresh : Fresh)
    (reqIdx : Nat) : Nat → ResampledBlock :=
  drawnBlocks batch draws (verifiedOf batch draws settings fresh reqIdx).rejectedStep
    (verifiedOf batch draws settings fresh reqIdx).targetLse (verifiedOf batch draws settings fresh reqIdx).draftLse reqIdx
    (fresh.resampled reqIdx)

/-- The think state after `_rejection_kernel`. -/
noncomputable def verifiedThink (batch : VerificationBatch) (draws : Draws) (settings : LossySettings) (fresh : Fresh) :
    Nat → Int :=
  storeAll settings.initialThink ((List.range batch.numReqs).map fun reqIdx =>
    (batch.idxMapping reqIdx, (verifiedOf batch draws settings fresh reqIdx).inThink))

theorem rejectionSample_thinkState (batch : VerificationBatch) (draws : Draws) (settings : LossySettings) (fresh : Fresh) :
    (rejectionSample batch draws settings fresh).thinkState =
      storeAll (verifiedThink batch draws settings fresh) ((List.range batch.numReqs).flatMap fun reqIdx =>
        insertThink batch settings (drawnOf batch draws settings fresh reqIdx)
          (verifiedThink batch draws settings fresh) reqIdx (verifiedOf batch draws settings fresh reqIdx).rejectedStep) := rfl

theorem rejectionSample_sampled (batch : VerificationBatch) (draws : Draws) (settings : LossySettings) (fresh : Fresh)
    (reqIdx : Nat) :
    (rejectionSample batch draws settings fresh).sampled reqIdx =
      insertedRow batch draws (verifiedOf batch draws settings fresh reqIdx).toVerification reqIdx
        (fresh.resampled reqIdx) := rfl

theorem verifiedThink_slot (inside : reqIdx < batch.numReqs) :
    verifiedThink batch draws settings fresh (batch.idxMapping reqIdx) =
      (verifiedOf batch draws settings fresh reqIdx).inThink := by
  apply storeAll_written
  · exact ⟨_, List.mem_map_of_mem (List.mem_range.mpr inside), rfl⟩
  · intro store member same
    obtain ⟨other, ranged, rfl⟩ := List.mem_map.mp member
    rw [batch.slots other reqIdx (List.mem_range.mp ranged) inside same]

/-- The insertion marks the slot of a request whose drafts were all accepted. -/
theorem mem_insertThink (inside : reqIdx < batch.numReqs) {cells : Nat → ResampledBlock} {thinkState : Nat → Int}
    {store : Nat × Int} :
    store ∈ insertThink batch settings cells thinkState reqIdx (verifiedOf batch draws settings fresh reqIdx).rejectedStep ↔
      (verifiedOf batch draws settings fresh reqIdx).rejectedStep = batch.numDrafts reqIdx ∧
        store = (batch.idxMapping reqIdx,
          markThink settings.thinkIds (thinkState (batch.idxMapping reqIdx)) (insertedToken batch cells)) := by
  obtain ⟨slot, bonus⟩ := batch.resampled_row inside (@verified_le batch draws settings fresh reqIdx)
  rw [insertThink, mem_maskedStore, bonus, slot]

/-- The think state that a call leaves in the slot of a request. -/
theorem thinkState_slot (inside : reqIdx < batch.numReqs) :
    (rejectionSample batch draws settings fresh).thinkState (batch.idxMapping reqIdx) =
      if (verifiedOf batch draws settings fresh reqIdx).rejectedStep = batch.numDrafts reqIdx then
        markThink settings.thinkIds (verifiedOf batch draws settings fresh reqIdx).inThink
          (insertedToken batch (drawnOf batch draws settings fresh reqIdx))
      else (verifiedOf batch draws settings fresh reqIdx).inThink := by
  have own : ∀ store ∈ (List.range batch.numReqs).flatMap (fun reqIdx =>
      insertThink batch settings (drawnOf batch draws settings fresh reqIdx)
        (verifiedThink batch draws settings fresh) reqIdx (verifiedOf batch draws settings fresh reqIdx).rejectedStep),
      store.1 = batch.idxMapping reqIdx →
        (verifiedOf batch draws settings fresh reqIdx).rejectedStep = batch.numDrafts reqIdx ∧
          store.2 = markThink settings.thinkIds (verifiedOf batch draws settings fresh reqIdx).inThink
            (insertedToken batch (drawnOf batch draws settings fresh reqIdx)) := by
    intro store member same
    obtain ⟨other, ranged, stored⟩ := List.mem_flatMap.mp member
    have otherInside := List.mem_range.mp ranged
    obtain ⟨all, rfl⟩ := (mem_insertThink otherInside).mp stored
    have equal := batch.slots other reqIdx otherInside inside same
    subst equal
    rw [verifiedThink_slot inside]
    exact ⟨all, rfl⟩
  rw [rejectionSample_thinkState]
  split
  case isTrue all =>
      apply storeAll_written
      · refine ⟨_, List.mem_flatMap.mpr ⟨reqIdx, List.mem_range.mpr inside, (mem_insertThink inside).mpr ⟨all, rfl⟩⟩, rfl⟩
      · intro store member same
        exact (own store member same).2
  case isFalse some =>
      rw [storeAll_other fun store member same => some (own store member same).1, verifiedThink_slot inside]

/-- A slot of no request keeps its think state. -/
theorem thinkState_other {slot : Nat} (other : ∀ reqIdx, reqIdx < batch.numReqs → batch.idxMapping reqIdx ≠ slot) :
    (rejectionSample batch draws settings fresh).thinkState slot = settings.initialThink slot := by
  rw [rejectionSample_thinkState, storeAll_other, verifiedThink, storeAll_other]
  · intro store member
    obtain ⟨reqIdx, ranged, rfl⟩ := List.mem_map.mp member
    exact other reqIdx (List.mem_range.mp ranged)
  · intro store member
    obtain ⟨reqIdx, ranged, stored⟩ := List.mem_flatMap.mp member
    have inside := List.mem_range.mp ranged
    rw [((mem_insertThink inside).mp stored).2]
    exact other reqIdx inside

end ThinkState

end DgxSpark.Spec
