import DgxSpark.Spec.Committed
import DgxSpark.Spec.Stock

/-
This file compares the overlay with the stock sampler on requests that have not opted in: the two loops stay
together until the overlay meets a negative draft of a greedy row, which it takes for relaxed.
-/

namespace DgxSpark.Spec
open DgxSpark.Library ExactFloat

variable {batch : VerificationBatch} {draws : Draws} {settings : LossySettings} {fresh stockFresh : Fresh} {reqIdx : Nat}

section Statistics

/-- The stock kernel reduces the rows of the drafts. -/
theorem stockStats_greedy (fresh : Nat → Nat → BlockStats) (inside : reqIdx < batch.numReqs) {i : Nat}
    (drafted : i < batch.numDrafts reqIdx) (greedy : batch.temperature (batch.idxMapping reqIdx) = 0) :
    GreedyBlocks batch (batch.cuNumLogits reqIdx + i) (Stock.blockStats batch fresh (batch.cuNumLogits reqIdx + i)) := by
  obtain ⟨row, slot, place⟩ := batch.draft_row inside drafted
  constructor
  · intro block blockInside
    rw [Stock.blockStats, if_pos ⟨row, blockInside⟩, Stock.computeBlockStatsKernel, if_neg (not_le.mpr place), slot,
      if_pos greedy, greedyBlockStats_argmax]
    push_cast
    rfl
  · intro block blockInside
    rw [Stock.blockStats, if_pos ⟨row, blockInside⟩, Stock.computeBlockStatsKernel, if_neg (not_le.mpr place), slot,
      if_pos greedy, greedyBlockStats_max]

theorem computeGlobalLse_congr {blocks : Nat} (padded : Nat) {firstMax secondMax firstSum secondSum : Nat → ExactFloat}
    (max : ∀ block, block < blocks → firstMax block = secondMax block)
    (sumexp : ∀ block, block < blocks → firstSum block = secondSum block) :
    computeGlobalLse firstMax firstSum blocks padded = computeGlobalLse secondMax secondSum blocks padded := by
  rw [computeGlobalLse, computeGlobalLse, loadBlocks_congr max, loadBlocks_congr sumexp]

/-- The statistics of a row that is not greedy are those of the stock kernel. -/
theorem blockStats_sampled (inside : reqIdx < batch.numReqs) {i : Nat} (drafted : i < batch.numDrafts reqIdx)
    (sampled : batch.temperature (batch.idxMapping reqIdx) ≠ 0) {block : Nat} (blockInside : block < batch.vocabNumBlocks) :
    (blockStats batch settings fresh (batch.cuNumLogits reqIdx + i) block).toBlockStats =
        sampledBlockStats batch (batch.cuNumLogits reqIdx + i) block
          (fresh.stats (batch.cuNumLogits reqIdx + i) block) ∧
      Stock.blockStats batch stockFresh.stats (batch.cuNumLogits reqIdx + i) block =
        sampledBlockStats batch (batch.cuNumLogits reqIdx + i) block
          (stockFresh.stats (batch.cuNumLogits reqIdx + i) block) := by
  obtain ⟨row, slot, place⟩ := batch.draft_row inside drafted
  constructor
  · rw [blockStats, if_pos ⟨row, blockInside⟩, computeBlockStatsKernel, if_neg (not_le.mpr place), slot, if_neg sampled]
  · rw [Stock.blockStats, if_pos ⟨row, blockInside⟩, Stock.computeBlockStatsKernel, if_neg (not_le.mpr place), slot,
      if_neg sampled]

/-- A step of a row that is not greedy reads only what the kernel has stored. -/
theorem sampledStep_congr {first second : Nat → Nat → BlockStats} (state : Verification) {i : Nat}
    (stored : ∀ block, block < batch.vocabNumBlocks → ∃ old new,
      first (batch.cuNumLogits reqIdx + i) block = sampledBlockStats batch (batch.cuNumLogits reqIdx + i) block old ∧
      second (batch.cuNumLogits reqIdx + i) block = sampledBlockStats batch (batch.cuNumLogits reqIdx + i) block new) :
    sampledStep batch draws first reqIdx state i = sampledStep batch draws second reqIdx state i := by
  have targets : ∀ block, block < batch.vocabNumBlocks →
      (first (batch.cuNumLogits reqIdx + i) block).targetLocalMax =
          (second (batch.cuNumLogits reqIdx + i) block).targetLocalMax ∧
        (first (batch.cuNumLogits reqIdx + i) block).targetLocalSumexp =
          (second (batch.cuNumLogits reqIdx + i) block).targetLocalSumexp := by
    intro block inside
    obtain ⟨old, new, there, here⟩ := stored block inside
    rw [there, here]
    exact sampledBlockStats_target batch _ block old new
  have targetLse := computeGlobalLse_congr (nextPowerOf2 batch.vocabNumBlocks) (fun block inside => (targets block inside).1)
    fun block inside => (targets block inside).2
  cases drafted : batch.draftLogits with
  | none => simp only [sampledStep, targetLse, drafted]
  | some draftLogits =>
      have drafts : ∀ block, block < batch.vocabNumBlocks →
          (first (batch.cuNumLogits reqIdx + i) block).draftLocalMax =
              (second (batch.cuNumLogits reqIdx + i) block).draftLocalMax ∧
            (first (batch.cuNumLogits reqIdx + i) block).draftLocalSumexp =
              (second (batch.cuNumLogits reqIdx + i) block).draftLocalSumexp := by
        intro block inside
        obtain ⟨old, new, there, here⟩ := stored block inside
        rw [there, here]
        apply sampledBlockStats_draft
        rw [drafted]
        exact Option.some_ne_none draftLogits
      have draftLse := computeGlobalLse_congr (nextPowerOf2 batch.vocabNumBlocks)
        (fun block inside => (drafts block inside).1) fun block inside => (drafts block inside).2
      simp only [sampledStep, targetLse, drafted, draftLse]

end Statistics

section Loops

/-- The loops have taken the same decisions, and nothing was relaxed. -/
structure Together (turn : Nat) (lossy : LossyVerification) (stock : Verification) : Prop where
  rejectedStep : lossy.rejectedStep = stock.rejectedStep
  targetLse : lossy.targetLse = stock.targetLse
  draftLse : lossy.draftLse = stock.draftLse
  accepted : lossy.accepted = stock.accepted
  sampled : ∀ place, place < stock.rejectedStep + (if stock.accepted then 0 else 1) →
    lossy.sampled place = stock.sampled place
  turned : stock.accepted = true → stock.rejectedStep = turn
  relaxed : lossy.relaxedStep = 0

/-- Both loops store a token and decide alike. -/
theorem Together.stored {turn : Nat} {lossy : LossyVerification} {stock : Verification}
    (together : Together turn lossy stock) (going : stock.accepted = true) (accepted : Bool) (token : Int)
    (targetLse draftLse : ExactFloat) (inThink : Int) :
    Together (turn + 1)
      { rejectedStep := if accepted then lossy.rejectedStep + 1 else lossy.rejectedStep, targetLse := targetLse,
        draftLse := draftLse, accepted := accepted, sampled := Function.update lossy.sampled turn token,
        relaxedStep := lossy.relaxedStep, inThink := inThink }
      { rejectedStep := if accepted then stock.rejectedStep + 1 else stock.rejectedStep, targetLse := targetLse,
        draftLse := draftLse, accepted := accepted, sampled := Function.update stock.sampled turn token } := by
  have turned := together.turned going
  have before : ∀ place, place < turn → lossy.sampled place = stock.sampled place := by
    intro place earlier
    apply together.sampled
    omega
  constructor
  case rejectedStep => simp only [together.rejectedStep]
  case targetLse => rfl
  case draftLse => rfl
  case accepted => rfl
  case sampled =>
      intro place stored
      have within : place < turn + 1 := by
        cases accepted <;> simp only [if_true, if_false, Bool.false_eq_true, turned] at stored <;> omega
      by_cases last : place = turn
      · subst last
        simp only [Function.update_self]
      · simp only [Function.update_of_ne last]
        exact before place (by omega)
  case turned =>
      intro again
      have again : accepted = true := again
      simp only [again, if_true, turned]
  case relaxed => exact together.relaxed

variable {lossy : LossyVerification} {stock : Verification} {turn : Nat}

/-- A turn of a row that is not greedy. -/
theorem Together.sampledTurn {first second : Nat → Nat → BlockStats} (together : Together turn lossy stock)
    (going : stock.accepted = true)
    (stored : ∀ block, block < batch.vocabNumBlocks → ∃ old new,
      first (batch.cuNumLogits reqIdx + turn) block = sampledBlockStats batch (batch.cuNumLogits reqIdx + turn) block old ∧
      second (batch.cuNumLogits reqIdx + turn) block =
        sampledBlockStats batch (batch.cuNumLogits reqIdx + turn) block new) :
    Together (turn + 1)
      { lossy with toVerification := sampledStep batch draws first reqIdx lossy.toVerification turn }
      (sampledStep batch draws second reqIdx stock turn) := by
  rw [sampledStep_congr lossy.toVerification stored, sampledStep, sampledStep, together.draftLse]
  exact together.stored going _ _ _ _ _

/-- A turn of a greedy row with synthetic rates. -/
theorem Together.syntheticTurn {stats : Nat → Nat → LossyBlockStats} {stockStats : Nat → Nat → BlockStats}
    {rates : Nat → ℝ} (together : Together turn lossy stock) (going : stock.accepted = true)
    (synthetic : batch.syntheticConditionalRates = some rates)
    (same : targetArgmax batch (fun block => (stats (batch.cuNumLogits reqIdx + turn) block).toBlockStats) =
      targetArgmax batch (stockStats (batch.cuNumLogits reqIdx + turn))) :
    Together (turn + 1) (greedyStep batch draws settings stats reqIdx lossy turn)
      (Stock.greedyStep batch draws stockStats reqIdx stock turn) := by
  simp only [greedyStep, Stock.greedyStep, synthetic, same, together.targetLse, together.draftLse]
  exact together.stored going _ _ _ _ _

/-- A turn of a greedy row whose draft is no padding. -/
theorem Together.greedyTurn {stats : Nat → Nat → LossyBlockStats} {stockStats : Nat → Nat → BlockStats}
    (together : Together turn lossy stock) (going : stock.accepted = true)
    (plain : batch.syntheticConditionalRates = none) (off : settings.margin (batch.idxMapping reqIdx) < 0)
    (valid : 0 ≤ batch.draftSampled (batch.cuNumLogits reqIdx + turn + 1))
    (same : targetArgmax batch (fun block => (stats (batch.cuNumLogits reqIdx + turn) block).toBlockStats) =
      targetArgmax batch (stockStats (batch.cuNumLogits reqIdx + turn))) :
    Together (turn + 1) (greedyStep batch draws settings stats reqIdx lossy turn)
      (Stock.greedyStep batch draws stockStats reqIdx stock turn) := by
  simp only [greedyStep, Stock.greedyStep, plain, same, together.targetLse, together.draftLse, if_neg (not_le.mpr off),
    not_lt.mpr valid, decide_false, Bool.or_false, Bool.false_eq_true, if_false]
  exact together.stored going _ _ _ _ _

end Loops

section Runs

variable {thinkState : Nat → Int}

/-- The loop of the stock kernel before a turn. -/
noncomputable def stockBefore (batch : VerificationBatch) (draws : Draws) (fresh : Fresh) (reqIdx turn : Nat) : Verification :=
  (List.range turn).foldl (Stock.rejectionStep batch draws (Stock.blockStats batch fresh.stats) reqIdx)
    { rejectedStep := 0, targetLse := .real 0, draftLse := .real 0, accepted := true, sampled := fresh.sampled reqIdx }

theorem stockBefore_succ (turn : Nat) :
    stockBefore batch draws fresh reqIdx (turn + 1) =
      Stock.rejectionStep batch draws (Stock.blockStats batch fresh.stats) reqIdx
        (stockBefore batch draws fresh reqIdx turn) turn := by
  rw [stockBefore, List.range_succ, List.foldl_concat, stockBefore]

/-- A request's greedy row meets a negative draft right after drafts that are the first maxima of their rows. -/
def PaddingReached (batch : VerificationBatch) (reqIdx : Nat) : Prop :=
  batch.temperature (batch.idxMapping reqIdx) = 0 ∧ batch.syntheticConditionalRates = none ∧
    ∃ i, i < batch.numDrafts reqIdx ∧ (∀ earlier, earlier < i → DraftExact batch reqIdx earlier) ∧
      batch.draftSampled (batch.cuNumLogits reqIdx + i + 1) < 0

/-- The stock loop goes on past first maxima only. -/
theorem stockBefore_accepted (inside : reqIdx < batch.numReqs) (greedy : batch.temperature (batch.idxMapping reqIdx) = 0)
    (plain : batch.syntheticConditionalRates = none) {turn : Nat} (drafted : turn ≤ batch.numDrafts reqIdx)
    (going : (stockBefore batch draws fresh reqIdx turn).accepted = true) :
    ∀ earlier, earlier < turn → DraftExact batch reqIdx earlier := by
  induction turn with
  | zero => exact fun earlier impossible => absurd impossible (Nat.not_lt_zero earlier)
  | succ turn ih =>
      rw [stockBefore_succ, Stock.rejectionStep] at going
      by_cases before : (stockBefore batch draws fresh reqIdx turn).accepted = true
      · rw [if_pos before, if_pos greedy] at going
        simp only [Stock.greedyStep, plain, decide_eq_true_eq] at going
        have here := (stockStats_greedy fresh.stats inside drafted greedy).exact_iff.mp going
        intro earlier within
        rcases Nat.lt_succ_iff_lt_or_eq.mp within with sooner | rfl
        · exact ih (by omega) before earlier sooner
        · exact here
      · rw [if_neg before] at going
        exact absurd going before

/-- Without padding the loops stay together. -/
theorem together_run (inside : reqIdx < batch.numReqs) (off : settings.margin (batch.idxMapping reqIdx) < 0)
    (unpadded : ¬PaddingReached batch reqIdx) {turn : Nat} (drafted : turn ≤ batch.numDrafts reqIdx) :
    Together turn (lossyBefore batch draws settings fresh reqIdx turn) (stockBefore batch draws stockFresh reqIdx turn) := by
  induction turn with
  | zero =>
      constructor <;> first | rfl | simp [stockBefore]
  | succ turn ih =>
      have together := ih (by omega)
      rw [lossyBefore_succ, stockBefore_succ, rejectionStep, Stock.rejectionStep, together.accepted]
      by_cases going : (stockBefore batch draws stockFresh reqIdx turn).accepted = true
      · rw [if_pos going, if_pos going]
        by_cases greedy : batch.temperature (batch.idxMapping reqIdx) = 0
        · rw [if_pos greedy, if_pos greedy]
          obtain ⟨place, argmax, first⟩ := (@blockStats_greedy batch settings fresh reqIdx inside turn drafted greedy).argmax_first
          obtain ⟨other, stockArgmax, there⟩ := (stockStats_greedy stockFresh.stats inside drafted greedy).argmax_first
          have same := argmax.trans ((congrArg Nat.cast (first.unique there)).trans stockArgmax.symm)
          cases synthetic : batch.syntheticConditionalRates with
          | some rates => exact together.syntheticTurn going synthetic same
          | none =>
              apply together.greedyTurn going synthetic off _ same
              by_contra negative
              apply unpadded
              refine ⟨greedy, synthetic, turn, drafted, ?_, not_le.mp negative⟩
              exact stockBefore_accepted inside greedy synthetic (by omega) going
        · rw [if_neg greedy, if_neg greedy]
          apply together.sampledTurn going
          intro block blockInside
          obtain ⟨lossyCell, stockCell⟩ :=
            @blockStats_sampled batch settings fresh stockFresh reqIdx inside turn drafted greedy block blockInside
          exact ⟨_, _, lossyCell, stockCell⟩
      · rw [if_neg going, if_neg going]
        constructor
        case turned => exact fun again => absurd again going
        all_goals first | exact together.rejectedStep | exact together.targetLse | exact together.draftLse |
          exact together.accepted | exact together.sampled | exact together.relaxed

/-- The verdicts on a request that has not opted in are those of the stock sampler. -/
def AsStock (batch : VerificationBatch) (draws : Draws) (settings : LossySettings) (fresh stockFresh : Fresh)
    (reqIdx : Nat) : Prop :=
  (rejectionSample batch draws settings fresh).numSampled reqIdx =
      (Stock.rejectionSample batch draws stockFresh reqIdx).numSampled ∧
    (∀ place, place < (Stock.rejectionSample batch draws stockFresh reqIdx).numSampled →
      (rejectionSample batch draws settings fresh).sampled reqIdx place =
        (Stock.rejectionSample batch draws stockFresh reqIdx).sampled place) ∧
    (rejectionSample batch draws settings fresh).numRelaxed reqIdx = 0

theorem asStock_of_together (inside : reqIdx < batch.numReqs)
    (together : Together (batch.numDrafts reqIdx)
      (lossyBefore batch draws settings fresh reqIdx (batch.numDrafts reqIdx))
      (stockBefore batch draws stockFresh reqIdx (batch.numDrafts reqIdx))) :
    AsStock batch draws settings fresh stockFresh reqIdx := by
  refine ⟨congrArg (· + 1) together.rejectedStep, ?_, together.relaxed⟩
  intro place stored
  show insertedRow batch draws (lossyBefore batch draws settings fresh reqIdx (batch.numDrafts reqIdx)).toVerification
      reqIdx (fresh.resampled reqIdx) place =
    insertedRow batch draws (stockBefore batch draws stockFresh reqIdx (batch.numDrafts reqIdx)) reqIdx
      (stockFresh.resampled reqIdx) place
  apply insertedRow_congr together.rejectedStep together.targetLse together.draftLse _ _ stored
  · intro earlier before
    apply together.sampled
    omega
  · intro _ notBonus
    apply together.sampled
    cases accepted : (stockBefore batch draws stockFresh reqIdx (batch.numDrafts reqIdx)).accepted with
    | true =>
        rw [together.turned accepted] at notBonus
        exact absurd ((batch.resampled_row inside (le_refl _)).2.mpr rfl) notBonus
    | false => simp

/-- Nothing takes a relaxed draft back. -/
theorem relaxedStep_mono {turn last : Nat} (order : turn ≤ last) :
    (lossyBefore batch draws settings fresh reqIdx turn).relaxedStep ≤
      (lossyBefore batch draws settings fresh reqIdx last).relaxedStep := by
  induction last, order using Nat.le_induction with
  | base => exact le_refl _
  | succ last _ ih =>
      have step : ∀ relaxed : Bool, (lossyBefore batch draws settings fresh reqIdx last).relaxedStep ≤
          if relaxed then (lossyBefore batch draws settings fresh reqIdx last).relaxedStep + 1
          else (lossyBefore batch draws settings fresh reqIdx last).relaxedStep := by
        intro relaxed
        cases relaxed <;> simp
      apply ih.trans
      rw [lossyBefore_succ, rejectionStep]
      split
      · split
        · rw [greedyStep]
          cases batch.syntheticConditionalRates with
          | some rates => exact le_refl _
          | none => exact step _
        · exact le_refl _
      · exact le_refl _

/-- A greedy row of a request that has not opted in relaxes a negative draft. -/
theorem relaxed_of_padding (inside : reqIdx < batch.numReqs) (off : settings.margin (batch.idxMapping reqIdx) < 0)
    (padded : PaddingReached batch reqIdx) : 0 < (rejectionSample batch draws settings fresh).numRelaxed reqIdx := by
  obtain ⟨greedy, plain, i, drafted, before, negative⟩ := padded
  have going : ∀ turn, turn ≤ i → (lossyBefore batch draws settings fresh reqIdx turn).accepted = true := by
    intro turn within
    induction turn with
    | zero => rfl
    | succ turn ih =>
        have held := (@blockStats_greedy batch settings fresh reqIdx inside turn (by omega) greedy).exact_iff.mpr
          (before turn within)
        rw [lossyBefore_succ, rejectionStep, if_pos (ih (by omega)), if_pos greedy]
        simp only [greedyStep, plain, held, decide_true, Bool.true_or]
  have relaxed : 0 < (lossyBefore batch draws settings fresh reqIdx (i + 1)).relaxedStep := by
    rw [lossyBefore_succ, rejectionStep, if_pos (going i (le_refl i)), if_pos greedy]
    simp only [greedyStep, plain, if_neg (not_le.mpr off), negative, decide_true, if_true, Nat.succ_pos]
  exact relaxed.trans_le (relaxedStep_mono drafted)

/-- A request that has not opted in is verified as by the stock kernels just when its greedy row meets no padding. -/
theorem opt_out_as_stock (batch : VerificationBatch) (draws : Draws) (settings : LossySettings)
    (fresh stockFresh : Fresh) {reqIdx : Nat} (inside : reqIdx < batch.numReqs)
    (off : settings.margin (batch.idxMapping reqIdx) < 0) :
    AsStock batch draws settings fresh stockFresh reqIdx ↔ ¬PaddingReached batch reqIdx := by
  constructor
  · intro asStock padded
    have relaxed := @relaxed_of_padding batch draws settings fresh reqIdx inside off padded
    rw [asStock.2.2] at relaxed
    exact absurd relaxed (Nat.lt_irrefl 0)
  · intro unpadded
    exact asStock_of_together inside (together_run inside off unpadded (le_refl _))

/-- No request has opted in. -/
def allOff : LossySettings where
  lossyMargin := none
  lossyMinLogp := none
  stopIds := none
  lossyScope := none
  thinkState := none
  thinkIds := (-1, -1)

theorem allOff_margin : allOff.margin 0 < 0 := by norm_num [LossySettings.margin, allOff, LOSSY_OFF]

theorem opt_out_as_stock_validDraft : AsStock (singleDraft 0) zeroDraws allOff zeroFresh zeroFresh 0 := by
  apply (opt_out_as_stock (singleDraft 0) zeroDraws allOff zeroFresh zeroFresh Nat.zero_lt_one allOff_margin).mpr
  intro padded
  obtain ⟨-, -, i, -, -, negative⟩ := padded
  exact absurd negative (lt_irrefl (0 : Int))

/-- The overlay accepts the padding that the stock kernel rejects, and counts it as relaxed. -/
theorem opt_out_padding_accepted :
    (rejectionSample (singleDraft (-1)) zeroDraws allOff zeroFresh).numRelaxed 0 = 1 ∧
      (rejectionSample (singleDraft (-1)) zeroDraws allOff zeroFresh).numSampled 0 = 2 ∧
      (Stock.rejectionSample (singleDraft (-1)) zeroDraws zeroFresh 0).numSampled = 1 := by
  have greedy : (singleDraft (-1)).temperature ((singleDraft (-1)).idxMapping 0) = 0 := rfl
  have lossyGoing : (lossyBefore (singleDraft (-1)) zeroDraws allOff zeroFresh 0 0).accepted = true := rfl
  have stockGoing : (stockBefore (singleDraft (-1)) zeroDraws zeroFresh 0 0).accepted = true := rfl
  have lossy : lossyBefore (singleDraft (-1)) zeroDraws allOff zeroFresh 0 1 =
      greedyStep (singleDraft (-1)) zeroDraws allOff (blockStats (singleDraft (-1)) allOff zeroFresh) 0
        (lossyBefore (singleDraft (-1)) zeroDraws allOff zeroFresh 0 0) 0 := by
    rw [lossyBefore_succ, rejectionStep, if_pos lossyGoing, if_pos greedy]
  have stock : stockBefore (singleDraft (-1)) zeroDraws zeroFresh 0 1 =
      Stock.greedyStep (singleDraft (-1)) zeroDraws (Stock.blockStats (singleDraft (-1)) zeroFresh.stats) 0
        (stockBefore (singleDraft (-1)) zeroDraws zeroFresh 0 0) 0 := by
    rw [stockBefore_succ, Stock.rejectionStep, if_pos stockGoing, if_pos greedy]
  have plain : (singleDraft (-1)).syntheticConditionalRates = none := rfl
  have padding : (singleDraft (-1)).draftSampled ((singleDraft (-1)).cuNumLogits 0 + 0 + 1) = -1 := rfl
  have off : ¬0 ≤ allOff.margin ((singleDraft (-1)).idxMapping 0) := not_le.mpr allOff_margin
  have negative : (-1 : Int) < 0 := by decide
  refine ⟨?_, ?_, ?_⟩
  · show (lossyBefore (singleDraft (-1)) zeroDraws allOff zeroFresh 0 1).relaxedStep = 1
    rw [lossy]
    simp only [greedyStep, plain, padding, off, negative, decide_true, if_true, if_false]
    rfl
  · show (lossyBefore (singleDraft (-1)) zeroDraws allOff zeroFresh 0 1).rejectedStep + 1 = 2
    rw [lossy]
    simp only [greedyStep, plain, padding, off, negative, decide_true, Bool.or_true, if_true, if_false]
    rfl
  · have reduced := stockStats_greedy zeroFresh.stats (show 0 < (singleDraft (-1)).numReqs from Nat.zero_lt_one)
      (show 0 < (singleDraft (-1)).numDrafts 0 from Nat.zero_lt_one) rfl
    obtain ⟨place, argmax, -⟩ := reduced.argmax_first
    have different : ¬(place : Int) = -1 := by omega
    show (stockBefore (singleDraft (-1)) zeroDraws zeroFresh 0 1).rejectedStep + 1 = 1
    rw [stock]
    simp only [Stock.greedyStep, plain, padding, argmax, different, decide_false, Bool.false_eq_true, if_false]
    rfl

end Runs

end DgxSpark.Spec
