import DgxSpark.Spec.Committed

/-
This file shows what `rejection_sample` returns for a greedy request that has opted in: the longest run of
drafts that are the first maximum of their row or may be relaxed to, and the first maximum of the next row.
-/

namespace DgxSpark.Spec
open DgxSpark.Library ExactFloat

variable {batch : VerificationBatch} {draws : Draws} {settings : LossySettings} {fresh : Fresh} {reqIdx : Nat}

section Law

variable (batch settings reqIdx)

/-- The logits of a row of a request. -/
def requestLogit (i token : Nat) : ℝ := batch.targetLogit (batch.cuNumLogits reqIdx + i) token

/-- A token may stand for the first maximum of a row. -/
structure Relaxable (i : Nat) (inThink : Int) (argmax token : Nat) : Prop where
  runnerUp : ∀ other, other < batch.vocabSize → other ≠ argmax → requestLogit batch reqIdx i other ≤ requestLogit batch reqIdx i token
  margin : requestLogit batch reqIdx i argmax - requestLogit batch reqIdx i token ≤ settings.margin (batch.idxMapping reqIdx)
  floor : settings.minLogp (batch.idxMapping reqIdx) ≤ ((requestLogit batch reqIdx i token -
    Real.log (∑ other ∈ Finset.range batch.vocabSize, Real.exp (requestLogit batch reqIdx i other)) : ℝ) : WithBot ℝ)
  token_stop : (token : Int) ∉ settings.stopIds.getD []
  argmax_stop : (argmax : Int) ∉ settings.stopIds.getD []
  scope : settings.scope (batch.idxMapping reqIdx) = 0 ∨ inThink = 1

/-- The think state after some drafts. -/
def thinkAfter (draft : Nat → Nat) (count : Nat) : Int :=
  ((List.range count).map fun i => (draft i : Int)).foldl (markThink settings.thinkIds)
    (settings.initialThink (batch.idxMapping reqIdx))

/-- A draft is accepted after the drafts before it. -/
def Accepted (draft argmax : Nat → Nat) (i : Nat) : Prop :=
  draft i = argmax i ∨
    Relaxable batch settings reqIdx i (thinkAfter batch settings reqIdx draft i) (argmax i) (draft i)

/-- The verdict on a greedy request: a longest run of accepted drafts, and the first maximum that follows it. -/
structure GreedyVerdict (verdicts : Verdicts) (draft argmax : Nat → Nat) (length : Nat) : Prop where
  length_le : length ≤ batch.numDrafts reqIdx
  accepted : ∀ i, i < length → Accepted batch settings reqIdx draft argmax i
  stopped : length < batch.numDrafts reqIdx → ¬Accepted batch settings reqIdx draft argmax length
  numSampled : verdicts.numSampled reqIdx = length + 1
  drafts : ∀ i, i < length → verdicts.sampled reqIdx i = draft i
  last : verdicts.sampled reqIdx length = argmax length
  numRelaxed : verdicts.numRelaxed reqIdx = ((List.range length).filter fun i => draft i ≠ argmax i).length
  thinkState : verdicts.thinkState (batch.idxMapping reqIdx) =
    markThink settings.thinkIds (thinkAfter batch settings reqIdx draft length) (argmax length)

end Law

section Rule

theorem padStopIds_mem (stopIds : Option (List Int)) (token : Nat) :
    (token : Int) ∈ padStopIds stopIds ↔ (token : Int) ∈ stopIds.getD [] := by
  have padding : (token : Int) ≠ -1 := by omega
  match stopIds with
  | none => simp [padStopIds, padding]
  | some [] => simp [padStopIds, padding]
  | some (stop :: stops) => simp [padStopIds, padding]

/-- A count of zero says that no stop id is the token. -/
theorem stops_eq_zero (stopIds : Option (List Int)) (token : Nat) :
    ((padStopIds stopIds).map fun stop => if stop = (token : Int) then 1 else 0).sum = 0 ↔
      (token : Int) ∉ stopIds.getD [] := by
  rw [← padStopIds_mem, List.sum_eq_zero_iff, List.forall_mem_map]
  constructor
  · intro none member
    exact absurd (none _ member) (by simp)
  · intro missing stop member
    rw [if_neg]
    rintro rfl
    exact missing member

variable {i block lane : Nat}

/-- The kernel's rule for a draft is the law. -/
theorem relaxedRule_iff (inside : reqIdx < batch.numReqs) (drafted : i < batch.numDrafts reqIdx)
    (greedy : batch.temperature (batch.idxMapping reqIdx) = 0) (opted : 0 ≤ settings.margin (batch.idxMapping reqIdx))
    (found : FoundMax batch (batch.cuNumLogits reqIdx + i)
      (fun block => (blockStats batch settings fresh (batch.cuNumLogits reqIdx + i) block).toBlockStats) block lane)
    (inThink : Int) (token : Nat) :
    relaxedRule batch settings (blockStats batch settings fresh (batch.cuNumLogits reqIdx + i)) (batch.idxMapping reqIdx)
        (batch.cuNumLogits reqIdx + i) inThink token = true ↔
      token ≠ block * VOCAB_BLOCK_SIZE + lane ∧
        Relaxable batch settings reqIdx i inThink (block * VOCAB_BLOCK_SIZE + lane) token := by
  have reduced := @blockStats_greedy batch settings fresh reqIdx inside i drafted greedy
  have second := fun block blockInside =>
    (@blockStats_lossy batch settings fresh reqIdx inside i drafted greedy opted block blockInside).1
  have sumexp := fun block blockInside =>
    (@blockStats_lossy batch settings fresh reqIdx inside i drafted greedy opted block blockInside).2
  have runner : AtLeast (.real (batch.targetLogit (batch.cuNumLogits reqIdx + i) token))
      (runnerUp batch (blockStats batch settings fresh (batch.cuNumLogits reqIdx + i))) ↔
      ∀ other, other < batch.vocabSize → other ≠ block * VOCAB_BLOCK_SIZE + lane →
        requestLogit batch reqIdx i other ≤ requestLogit batch reqIdx i token := by
    rw [AtLeast, runnerUp_le_iff reduced second found]
    constructor
    · intro reached
      exact reached.2.2
    · intro largest
      exact ⟨runnerUp_not_nan second found, by simp, largest⟩
  have lse := @computeGlobalLse_eq (fun column => requestLogit batch reqIdx i column) batch.vocabSize VOCAB_BLOCK_SIZE
    batch.vocabNumBlocks (nextPowerOf2 batch.vocabNumBlocks) vocabBlock_pos (cdiv_pos batch.vocab_pos vocabBlock_pos)
    (le_nextPowerOf2 _) (cdiv_covers vocabBlock_pos) (fun _ blockInside => cdiv_started vocabBlock_pos blockInside)
    _ _ reduced.max sumexp
  have different : ((token : Int) ≠ ((block * VOCAB_BLOCK_SIZE + lane : Nat) : Int)) ↔
      token ≠ block * VOCAB_BLOCK_SIZE + lane := by
    rw [ne_eq, Nat.cast_inj]
  have noFloor : ¬Greater .negInf .negInf := by simp [Greater]
  cases floored : settings.minLogp (batch.idxMapping reqIdx) with
  | bot =>
      simp only [relaxedRule, floored, floorOf, noFloor, if_false, found.argmax, found.max, real_sub_real, atLeast_real,
        runner, different, stops_eq_zero, Bool.and_eq_true, Bool.or_eq_true, decide_eq_true_eq, beq_iff_eq]
      constructor
      · intro held
        obtain ⟨⟨⟨⟨⟨other, largest⟩, margin⟩, token_stop⟩, argmax_stop⟩, scope⟩ := held
        refine ⟨other, largest, margin, ?_, token_stop, argmax_stop, scope⟩
        rw [floored]
        exact bot_le
      · intro held
        obtain ⟨other, rule⟩ := held
        exact ⟨⟨⟨⟨⟨other, rule.runnerUp⟩, rule.margin⟩, rule.token_stop⟩, rule.argmax_stop⟩, rule.scope⟩
  | coe floor =>
      simp only [relaxedRule, floored, floorOf, greater_negInf, if_true, found.argmax, found.max, lse, real_sub_real,
        atLeast_real, runner, different, stops_eq_zero, Bool.and_eq_true, Bool.or_eq_true, decide_eq_true_eq, beq_iff_eq]
      constructor
      · intro held
        obtain ⟨⟨⟨⟨⟨⟨other, largest⟩, margin⟩, token_stop⟩, argmax_stop⟩, scope⟩, reached⟩ := held
        refine ⟨other, largest, margin, ?_, token_stop, argmax_stop, scope⟩
        rw [floored]
        exact WithBot.coe_le_coe.mpr reached
      · intro held
        obtain ⟨other, rule⟩ := held
        have reached := rule.floor
        rw [floored] at reached
        exact ⟨⟨⟨⟨⟨⟨other, rule.runnerUp⟩, rule.margin⟩, rule.token_stop⟩, rule.argmax_stop⟩, rule.scope⟩,
          WithBot.coe_le_coe.mp reached⟩

end Rule

section Run

variable {draft argmax : Nat → Nat} {turn length : Nat} {state : LossyVerification}

theorem thinkAfter_succ (count : Nat) :
    thinkAfter batch settings reqIdx draft (count + 1) =
      markThink settings.thinkIds (thinkAfter batch settings reqIdx draft count) (draft count) := by
  rw [thinkAfter, List.range_succ, List.map_append, List.foldl_append]
  rfl

variable (batch settings reqIdx)

/-- The loop has followed the law so far. -/
structure Lawful (draft argmax : Nat → Nat) (turn : Nat) (state : LossyVerification) (length : Nat) : Prop where
  length_le : length ≤ turn
  accepted : ∀ i, i < length → Accepted batch settings reqIdx draft argmax i
  rejectedStep : state.rejectedStep = length
  drafts : ∀ i, i < length → state.sampled i = draft i
  relaxed : state.relaxedStep = ((List.range length).filter fun i => draft i ≠ argmax i).length
  going : state.accepted = true → length = turn ∧ state.inThink = thinkAfter batch settings reqIdx draft turn
  stopped : state.accepted = false → length < turn ∧ ¬Accepted batch settings reqIdx draft argmax length ∧
    state.sampled length = argmax length ∧
      state.inThink = markThink settings.thinkIds (thinkAfter batch settings reqIdx draft length) (argmax length)

variable {batch settings reqIdx}

/-- A turn of the loop decides by the law. -/
theorem greedyStep_accepts (inside : reqIdx < batch.numReqs) (drafted : turn < batch.numDrafts reqIdx)
    (greedy : batch.temperature (batch.idxMapping reqIdx) = 0) (plain : batch.syntheticConditionalRates = none)
    (opted : 0 ≤ settings.margin (batch.idxMapping reqIdx))
    (drawn : batch.draftSampled (batch.cuNumLogits reqIdx + turn + 1) = draft turn)
    (first : IsFirstMax (requestLogit batch reqIdx turn) batch.vocabSize (argmax turn))
    (inThink : state.inThink = thinkAfter batch settings reqIdx draft turn)
    (held : Accepted batch settings reqIdx draft argmax turn) :
    greedyStep batch draws settings (blockStats batch settings fresh) reqIdx state turn =
      { state with
        rejectedStep := state.rejectedStep + 1, accepted := true, sampled := Function.update state.sampled turn (draft turn),
        relaxedStep := if draft turn = argmax turn then state.relaxedStep else state.relaxedStep + 1,
        inThink := thinkAfter batch settings reqIdx draft (turn + 1) } := by
  obtain ⟨block, lane, found⟩ := (@blockStats_greedy batch settings fresh reqIdx inside turn drafted greedy).found
  have place := found.first.unique first
  have rule := relaxedRule_iff inside drafted greedy opted found (thinkAfter batch settings reqIdx draft turn) (draft turn)
  have argmaxIs := found.argmax
  rw [place] at rule argmaxIs
  by_cases same : draft turn = argmax turn
  · have strict : relaxedRule batch settings (blockStats batch settings fresh (batch.cuNumLogits reqIdx + turn))
        (batch.idxMapping reqIdx) (batch.cuNumLogits reqIdx + turn) (thinkAfter batch settings reqIdx draft turn)
        (draft turn) = false := by
      rw [Bool.eq_false_iff, ne_eq, rule]
      exact fun relaxed => relaxed.1 same
    have exactly : (argmax turn : Int) = draft turn := congrArg Nat.cast same.symm
    simp only [greedyStep, plain, if_pos opted, drawn, argmaxIs, exactly, inThink, strict, if_pos same, decide_true,
      Bool.true_or, if_true, Bool.false_eq_true, if_false, thinkAfter_succ]
  · have relaxed : relaxedRule batch settings (blockStats batch settings fresh (batch.cuNumLogits reqIdx + turn))
        (batch.idxMapping reqIdx) (batch.cuNumLogits reqIdx + turn) (thinkAfter batch settings reqIdx draft turn)
        (draft turn) = true := by
      rw [rule]
      exact ⟨same, held.resolve_left same⟩
    simp only [greedyStep, plain, if_pos opted, drawn, inThink, relaxed, Bool.or_true, if_true, if_neg same,
      thinkAfter_succ]

theorem greedyStep_rejects (inside : reqIdx < batch.numReqs) (drafted : turn < batch.numDrafts reqIdx)
    (greedy : batch.temperature (batch.idxMapping reqIdx) = 0) (plain : batch.syntheticConditionalRates = none)
    (opted : 0 ≤ settings.margin (batch.idxMapping reqIdx))
    (drawn : batch.draftSampled (batch.cuNumLogits reqIdx + turn + 1) = draft turn)
    (first : IsFirstMax (requestLogit batch reqIdx turn) batch.vocabSize (argmax turn))
    (inThink : state.inThink = thinkAfter batch settings reqIdx draft turn)
    (refused : ¬Accepted batch settings reqIdx draft argmax turn) :
    greedyStep batch draws settings (blockStats batch settings fresh) reqIdx state turn =
      { state with
        accepted := false, sampled := Function.update state.sampled turn (argmax turn),
        inThink := markThink settings.thinkIds (thinkAfter batch settings reqIdx draft turn) (argmax turn) } := by
  obtain ⟨block, lane, found⟩ := (@blockStats_greedy batch settings fresh reqIdx inside turn drafted greedy).found
  have place := found.first.unique first
  have rule := relaxedRule_iff inside drafted greedy opted found (thinkAfter batch settings reqIdx draft turn) (draft turn)
  have argmaxIs := found.argmax
  rw [place] at rule argmaxIs
  have different : ¬(argmax turn : Int) = draft turn := by
    rw [Nat.cast_inj]
    exact fun same => refused (Or.inl same.symm)
  have strict : relaxedRule batch settings (blockStats batch settings fresh (batch.cuNumLogits reqIdx + turn))
      (batch.idxMapping reqIdx) (batch.cuNumLogits reqIdx + turn) (thinkAfter batch settings reqIdx draft turn)
      (draft turn) = false := by
    rw [Bool.eq_false_iff, ne_eq, rule]
    exact fun relaxed => refused (Or.inr relaxed.2)
  simp only [greedyStep, plain, if_pos opted, drawn, argmaxIs, inThink, strict, different, decide_false, Bool.or_false,
    Bool.false_eq_true, if_false]

theorem Lawful.turned (lawful : Lawful batch settings reqIdx draft argmax turn state length)
    (inside : reqIdx < batch.numReqs) (drafted : turn < batch.numDrafts reqIdx)
    (greedy : batch.temperature (batch.idxMapping reqIdx) = 0) (plain : batch.syntheticConditionalRates = none)
    (opted : 0 ≤ settings.margin (batch.idxMapping reqIdx))
    (drawn : batch.draftSampled (batch.cuNumLogits reqIdx + turn + 1) = draft turn)
    (first : IsFirstMax (requestLogit batch reqIdx turn) batch.vocabSize (argmax turn)) :
    ∃ longer, Lawful batch settings reqIdx draft argmax (turn + 1)
      (rejectionStep batch draws settings (blockStats batch settings fresh) reqIdx state turn) longer := by
  rw [rejectionStep]
  cases going : state.accepted with
  | false =>
      refine ⟨length, ?_⟩
      rw [if_neg Bool.false_ne_true]
      obtain ⟨shorter, refused, token, think⟩ := lawful.stopped going
      exact ⟨lawful.length_le.trans (Nat.le_succ turn), lawful.accepted, lawful.rejectedStep, lawful.drafts, lawful.relaxed,
        fun again => absurd again (by rw [going]; exact Bool.false_ne_true),
        fun _ => ⟨shorter.trans (Nat.lt_succ_self turn), refused, token, think⟩⟩
  | true =>
      obtain ⟨rfl, inThink⟩ := lawful.going going
      rw [if_pos rfl, if_pos greedy]
      have before : ∀ i, i < length → ∀ token : Int, Function.update state.sampled length token i = draft i := by
        intro i earlier token
        rw [Function.update_of_ne earlier.ne]
        exact lawful.drafts i earlier
      by_cases held : Accepted batch settings reqIdx draft argmax length
      · refine ⟨length + 1, ?_⟩
        rw [greedyStep_accepts inside drafted greedy plain opted drawn first inThink held]
        constructor
        case length_le => exact le_refl _
        case accepted =>
            intro i earlier
            rcases Nat.lt_succ_iff_lt_or_eq.mp earlier with sooner | rfl
            · exact lawful.accepted i sooner
            · exact held
        case rejectedStep => exact congrArg (· + 1) lawful.rejectedStep
        case drafts =>
            intro i earlier
            rcases Nat.lt_succ_iff_lt_or_eq.mp earlier with sooner | rfl
            · exact before i sooner _
            · exact Function.update_self ..
        case relaxed =>
            show (if draft length = argmax length then state.relaxedStep else state.relaxedStep + 1) = _
            rw [List.range_succ, List.filter_append, List.length_append, ← lawful.relaxed]
            by_cases same : draft length = argmax length
            · simp [same]
            · simp [same]
        case going => exact fun _ => ⟨rfl, rfl⟩
        case stopped => exact fun impossible => absurd impossible (by simp)
      · refine ⟨length, ?_⟩
        rw [greedyStep_rejects inside drafted greedy plain opted drawn first inThink held]
        constructor
        case length_le => exact Nat.le_succ _
        case accepted => exact lawful.accepted
        case rejectedStep => exact lawful.rejectedStep
        case drafts => exact fun i earlier => before i earlier _
        case relaxed => exact lawful.relaxed
        case going => exact fun impossible => absurd impossible (by simp)
        case stopped => exact fun _ => ⟨Nat.lt_succ_self _, held, Function.update_self .., rfl⟩

/-- The loop follows the law. -/
theorem lawful_run (inside : reqIdx < batch.numReqs) (greedy : batch.temperature (batch.idxMapping reqIdx) = 0)
    (plain : batch.syntheticConditionalRates = none) (opted : 0 ≤ settings.margin (batch.idxMapping reqIdx))
    (drawn : ∀ i, i < batch.numDrafts reqIdx → batch.draftSampled (batch.cuNumLogits reqIdx + i + 1) = draft i)
    (first : ∀ i, i < batch.numDrafts reqIdx → IsFirstMax (requestLogit batch reqIdx i) batch.vocabSize (argmax i))
    (drafted : turn ≤ batch.numDrafts reqIdx) :
    ∃ length, Lawful batch settings reqIdx draft argmax turn (lossyBefore batch draws settings fresh reqIdx turn) length := by
  induction turn with
  | zero =>
      refine ⟨0, ?_⟩
      constructor
      case going => exact fun _ => ⟨rfl, rfl⟩
      case stopped => exact fun impossible => absurd impossible (by simp [lossyBefore])
      case accepted => exact fun i impossible => absurd impossible (Nat.not_lt_zero i)
      case drafts => exact fun i impossible => absurd impossible (Nat.not_lt_zero i)
      all_goals rfl
  | succ turn ih =>
      obtain ⟨length, lawful⟩ := ih (by omega)
      rw [lossyBefore_succ]
      exact lawful.turned inside drafted greedy plain opted (drawn turn drafted) (first turn drafted)

end Run

theorem exists_firstMax (row : Nat → ℝ) {size : Nat} (positive : 0 < size) : ∃ place, IsFirstMax row size place :=
  ⟨_, isFirstMax_real.mp (argmaxOf_isFirstMax (fun column => ExactFloat.real (row column)) positive).1⟩

/-- A greedy request that has opted in gets the longest run of accepted drafts and the first maximum after it. -/
theorem greedy_law (batch : VerificationBatch) (draws : Draws) (settings : LossySettings) (fresh : Fresh) {reqIdx : Nat}
    (inside : reqIdx < batch.numReqs) (greedy : batch.temperature (batch.idxMapping reqIdx) = 0)
    (plain : batch.syntheticConditionalRates = none) (opted : 0 ≤ settings.margin (batch.idxMapping reqIdx))
    {draft : Nat → Nat} (drafts : ∀ i, i < batch.numDrafts reqIdx →
      batch.draftSampled (batch.cuNumLogits reqIdx + i + 1) = draft i ∧ draft i < batch.vocabSize) :
    ∃ argmax : Nat → Nat,
      (∀ i, i ≤ batch.numDrafts reqIdx → IsFirstMax (requestLogit batch reqIdx i) batch.vocabSize (argmax i)) ∧
      ∃ length, GreedyVerdict batch settings reqIdx (rejectionSample batch draws settings fresh) draft argmax length := by
  choose argmax first using fun i => exists_firstMax (requestLogit batch reqIdx i) batch.vocab_pos
  obtain ⟨length, lawful⟩ := @lawful_run batch draws settings fresh reqIdx draft argmax (batch.numDrafts reqIdx) inside
    greedy plain opted (fun i drafted => (drafts i drafted).1) (fun i _ => first i) (le_refl _)
  have lawful : Lawful batch settings reqIdx draft argmax (batch.numDrafts reqIdx)
      (verifiedOf batch draws settings fresh reqIdx) length := lawful
  have step := lawful.rejectedStep
  have think := @thinkState_slot batch draws settings fresh reqIdx inside
  refine ⟨argmax, fun i _ => first i, length, ?_⟩
  cases going : (verifiedOf batch draws settings fresh reqIdx).accepted with
  | true =>
      obtain ⟨all, inThink⟩ := lawful.going going
      rw [all] at step
      obtain ⟨place, token, bonus⟩ := @insertedToken_bonus batch draws reqIdx
        (verifiedOf batch draws settings fresh reqIdx).toVerification (fresh.resampled reqIdx) inside greedy step
      have token : insertedToken batch (drawnOf batch draws settings fresh reqIdx) = argmax length := by
        rw [drawnOf, token, all, bonus.unique (first _)]
      have row := @insertedRow_bonus batch draws reqIdx (verifiedOf batch draws settings fresh reqIdx).toVerification
        (fresh.resampled reqIdx) inside step
      rw [if_pos step, inThink, token] at think
      constructor
      case length_le => exact lawful.length_le
      case accepted => exact lawful.accepted
      case stopped => exact fun shorter => absurd all shorter.ne
      case numSampled => exact congrArg (· + 1) lawful.rejectedStep
      case drafts =>
          intro i earlier
          rw [rejectionSample_sampled, row, lawful.rejectedStep, Function.update_of_ne earlier.ne]
          exact lawful.drafts i earlier
      case last =>
          rw [drawnOf, lawful.rejectedStep] at token
          rw [rejectionSample_sampled, row, lawful.rejectedStep, Function.update_self, token]
      case numRelaxed => exact lawful.relaxed
      case thinkState =>
          rw [← all] at think
          exact think
  | false =>
      obtain ⟨shorter, refused, token, inThink⟩ := lawful.stopped going
      rw [step, if_neg shorter.ne, inThink] at think
      have row := @insertedRow_rejected batch draws reqIdx (verifiedOf batch draws settings fresh reqIdx).toVerification
        (fresh.resampled reqIdx) inside greedy (by rw [step]; exact shorter)
      constructor
      case length_le => exact lawful.length_le
      case accepted => exact lawful.accepted
      case stopped => exact fun _ => refused
      case numSampled => exact congrArg (· + 1) step
      case drafts =>
          rw [rejectionSample_sampled, row]
          exact lawful.drafts
      case last => rw [rejectionSample_sampled, row, token]
      case numRelaxed => exact lawful.relaxed
      case thinkState => exact think

/-- Every request opts in with a margin of zero. -/
noncomputable def zeroMargin : LossySettings where
  lossyMargin := some fun _ => 0
  lossyMinLogp := none
  stopIds := none
  lossyScope := none
  thinkState := none
  thinkIds := (0, 1)

theorem singleDraft_drafts (i : Nat) (_ : i < (singleDraft 1).numDrafts 0) :
    (singleDraft 1).draftSampled ((singleDraft 1).cuNumLogits 0 + i + 1) = ((1 : Nat) : Int) ∧
      1 < (singleDraft 1).vocabSize := ⟨rfl, Nat.one_lt_two⟩

theorem greedy_law_singleDraft : ∃ argmax : Nat → Nat,
    (∀ i, i ≤ (singleDraft 1).numDrafts 0 →
      IsFirstMax (requestLogit (singleDraft 1) 0 i) (singleDraft 1).vocabSize (argmax i)) ∧
    ∃ length, GreedyVerdict (singleDraft 1) zeroMargin 0 (rejectionSample (singleDraft 1) zeroDraws zeroMargin zeroFresh)
      (fun _ => 1) argmax length :=
  greedy_law (singleDraft 1) zeroDraws zeroMargin zeroFresh Nat.zero_lt_one rfl rfl (le_refl _) singleDraft_drafts

end DgxSpark.Spec
