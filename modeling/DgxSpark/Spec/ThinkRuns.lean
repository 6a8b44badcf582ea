import DgxSpark.Spec.ThinkState

/-
This file says when the think state of the device follows the committed tokens over a whole run of the worker.
-/

namespace DgxSpark.Spec
open DgxSpark.Library ExactFloat

section Marks

variable {thinkIds : Int × Int}

theorem markThink_eq (state tok : Int) : markThink thinkIds state tok = (markOf thinkIds tok).getD state := by
  rw [markThink, markOf]
  split
  case isTrue => rfl
  case isFalse => split <;> rfl

theorem lastMark_concat (before : List Int) (tok : Int) :
    lastMark thinkIds (before ++ [tok]) = (markOf thinkIds tok).or (lastMark thinkIds before) := by
  rw [lastMark, List.reverse_append, List.reverse_singleton, List.singleton_append, List.findSome?_cons]
  cases markOf thinkIds tok with
  | some mark => rfl
  | none => rfl

/-- Folding the markers over some tokens leaves what their last marker says. -/
theorem foldl_markThink (start : Int) (tokens : List Int) :
    tokens.foldl (markThink thinkIds) start = (lastMark thinkIds tokens).getD start := by
  induction tokens using List.reverseRecOn with
  | nil => rfl
  | append_singleton before tok ih =>
      rw [List.foldl_append, List.foldl_cons, List.foldl_nil, ih, markThink_eq, lastMark_concat]
      cases markOf thinkIds tok with
      | some mark => rfl
      | none => rfl

end Marks

section Relaxed

variable {batch : VerificationBatch} {draws : Draws} {settings : LossySettings} {fresh : Fresh} {reqIdx i : Nat}

/-- The loop counts the draft of a turn as relaxed. -/
def RelaxedAt (batch : VerificationBatch) (draws : Draws) (settings : LossySettings) (fresh : Fresh) (reqIdx i : Nat) :
    Prop :=
  (lossyBefore batch draws settings fresh reqIdx (i + 1)).relaxedStep ≠
    (lossyBefore batch draws settings fresh reqIdx i).relaxedStep

/-- The rule relaxes only where the scope allows. -/
theorem relaxedRule_scope {stats : Nat → LossyBlockStats} {reqStateIdx logitIdx : Nat} {inThink draftSampled : Int}
    (relaxed : relaxedRule batch settings stats reqStateIdx logitIdx inThink draftSampled = true) :
    settings.scope reqStateIdx = 0 ∨ inThink = 1 := by
  unfold relaxedRule at relaxed
  dsimp only at relaxed
  split at relaxed
  case isTrue =>
    have rule := (Bool.and_eq_true_iff.mp relaxed).1
    simpa using (Bool.and_eq_true_iff.mp rule).2
  case isFalse => simpa using (Bool.and_eq_true_iff.mp relaxed).2

/-- A turn stores to its own place of the row alone. -/
theorem rejectionStep_sampled (stats : Nat → Nat → LossyBlockStats) (state : LossyVerification) {turn place : Nat}
    (other : place ≠ turn) :
    (rejectionStep batch draws settings stats reqIdx state turn).sampled place = state.sampled place := by
  rw [rejectionStep]
  split
  · split
    · rw [greedyStep]
      cases batch.syntheticConditionalRates with
      | some rates => exact Function.update_of_ne other _ _
      | none => exact Function.update_of_ne other _ _
    · exact Function.update_of_ne other _ _
  · rfl

/-- The tokens of the turns so far stay in the row. -/
theorem lossyBefore_sampled {turn last place : Nat} (order : turn ≤ last) (early : place < turn) :
    (lossyBefore batch draws settings fresh reqIdx last).sampled place =
      (lossyBefore batch draws settings fresh reqIdx turn).sampled place := by
  induction last, order using Nat.le_induction with
  | base => rfl
  | succ last order ih => rw [lossyBefore_succ, rejectionStep_sampled _ _ (by omega), ih]

/-- While drafts are accepted, the loop keeps the think state of the tokens it has stored. -/
theorem lossyBefore_think (greedy : batch.temperature (batch.idxMapping reqIdx) = 0)
    (plain : batch.syntheticConditionalRates = none) {turn : Nat}
    (going : (lossyBefore batch draws settings fresh reqIdx turn).accepted = true) :
    (lossyBefore batch draws settings fresh reqIdx turn).rejectedStep = turn ∧
      (lossyBefore batch draws settings fresh reqIdx turn).inThink =
        ((List.range turn).map (lossyBefore batch draws settings fresh reqIdx turn).sampled).foldl
          (markThink settings.thinkIds) (settings.initialThink (batch.idxMapping reqIdx)) := by
  induction turn with
  | zero => exact ⟨rfl, rfl⟩
  | succ turn ih =>
      rw [lossyBefore_succ] at going ⊢
      generalize lossyBefore batch draws settings fresh reqIdx turn = state at ih going ⊢
      cases before : state.accepted with
      | false => simp [rejectionStep, before] at going
      | true =>
          obtain ⟨step, think⟩ := ih before
          rw [rejectionStep, if_pos before, if_pos greedy, greedyStep, plain] at going ⊢
          dsimp only at going ⊢
          rw [going]
          refine ⟨by rw [if_pos rfl, step], ?_⟩
          rw [List.range_succ, List.map_append, List.foldl_append, think]
          have kept : ∀ token : Int, (List.range turn).map (Function.update state.sampled turn token) =
              (List.range turn).map state.sampled := by
            intro token
            apply List.map_congr_left
            intro place early
            exact Function.update_of_ne (Nat.ne_of_lt (List.mem_range.mp early)) _ _
          rw [kept]
          simp

/-- Nothing takes an accepted draft back. -/
theorem rejectedStep_mono {turn last : Nat} (order : turn ≤ last) :
    (lossyBefore batch draws settings fresh reqIdx turn).rejectedStep ≤
      (lossyBefore batch draws settings fresh reqIdx last).rejectedStep := by
  induction last, order using Nat.le_induction with
  | base => exact le_refl _
  | succ last _ ih =>
      have step : ∀ accepted : Bool, (lossyBefore batch draws settings fresh reqIdx last).rejectedStep ≤
          if accepted then (lossyBefore batch draws settings fresh reqIdx last).rejectedStep + 1
          else (lossyBefore batch draws settings fresh reqIdx last).rejectedStep := by
        intro accepted
        cases accepted <;> simp
      apply ih.trans
      rw [lossyBefore_succ, rejectionStep]
      split
      · split
        · rw [greedyStep]
          cases batch.syntheticConditionalRates with
          | some rates => exact step _
          | none => exact step _
        · exact step _
      · exact le_refl _

/-- Only the rule relaxes a draft of a request that has opted in, and what it relaxes is accepted. -/
theorem RelaxedAt.rule (greedy : batch.temperature (batch.idxMapping reqIdx) = 0)
    (opted : 0 ≤ settings.margin (batch.idxMapping reqIdx))
    (relaxed : RelaxedAt batch draws settings fresh reqIdx i) :
    batch.syntheticConditionalRates = none ∧ (lossyBefore batch draws settings fresh reqIdx i).accepted = true ∧
      (lossyBefore batch draws settings fresh reqIdx (i + 1)).accepted = true ∧
      relaxedRule batch settings (blockStats batch settings fresh (batch.cuNumLogits reqIdx + i)) (batch.idxMapping reqIdx)
        (batch.cuNumLogits reqIdx + i) (lossyBefore batch draws settings fresh reqIdx i).inThink
        (batch.draftSampled (batch.cuNumLogits reqIdx + i + 1)) = true := by
  rw [RelaxedAt, lossyBefore_succ] at relaxed
  rw [lossyBefore_succ]
  generalize lossyBefore batch draws settings fresh reqIdx i = state at relaxed ⊢
  cases going : state.accepted with
  | false => simp [rejectionStep, going] at relaxed
  | true =>
      rw [rejectionStep, if_pos going, if_pos greedy, greedyStep] at relaxed ⊢
      cases rates : batch.syntheticConditionalRates with
      | some given => simp [rates] at relaxed
      | none =>
          rw [rates] at relaxed
          simp only [if_pos opted] at relaxed ⊢
          cases rule : relaxedRule batch settings (blockStats batch settings fresh (batch.cuNumLogits reqIdx + i))
              (batch.idxMapping reqIdx) (batch.cuNumLogits reqIdx + i) state.inThink
              (batch.draftSampled (batch.cuNumLogits reqIdx + i + 1)) with
          | false => simp [rule] at relaxed
          | true => simp

/-- A draft of a request with a scope is relaxed only inside a span of the tokens before it. -/
theorem relaxedAt_inside (greedy : batch.temperature (batch.idxMapping reqIdx) = 0)
    (opted : 0 ≤ settings.margin (batch.idxMapping reqIdx)) (inScope : settings.scope (batch.idxMapping reqIdx) ≠ 0)
    (drafted : i < batch.numDrafts reqIdx) (relaxed : RelaxedAt batch draws settings fresh reqIdx i) :
    ((List.range i).map ((rejectionSample batch draws settings fresh).sampled reqIdx)).foldl (markThink settings.thinkIds)
      (settings.initialThink (batch.idxMapping reqIdx)) = 1 := by
  obtain ⟨plain, going, kept, rule⟩ := relaxed.rule greedy opted
  have inside := (relaxedRule_scope rule).resolve_left inScope
  have think := (lossyBefore_think greedy plain going).2
  have count := (lossyBefore_think greedy plain kept).1
  have row : (List.range i).map ((rejectionSample batch draws settings fresh).sampled reqIdx) =
      (List.range i).map (lossyBefore batch draws settings fresh reqIdx i).sampled := by
    apply List.map_congr_left
    intro place early
    have before := List.mem_range.mp early
    have later : i + 1 ≤ (verifiedOf batch draws settings fresh reqIdx).rejectedStep := by
      rw [← count]
      exact rejectedStep_mono drafted
    have stays := @lossyBefore_sampled batch draws settings fresh reqIdx i (batch.numDrafts reqIdx) place drafted.le before
    rw [rejectionSample_sampled, insertedRow, insertSampled]
    split
    · exact stays
    · rw [Function.update_of_ne (by omega)]
      exact stays
  rw [row, ← think, inside]

end Relaxed

/-- The think state of the committed tokens: that of the prefill and the markers since the admission. -/
def LiveRequest.think (boot : LossyBoot) (request : LiveRequest) : Int :=
  request.committed.foldl (markThink boot.thinkIds) (initialThinkState boot.thinkIds request.prefillTokenIds)

namespace Worker

variable {boot : LossyBoot} {worker next : Worker}

/-- The device has the think state of every greedy request. -/
def Follows (boot : LossyBoot) (worker : Worker) : Prop :=
  ∀ rid request, worker.requests.get? rid = some request → request.samplingParams.temperature = 0 →
    worker.states.thinkState.gpu request.slot = request.think boot

/-- A verification relaxes the drafts of a greedy request under scope `think` only inside a span of its tokens. -/
def RelaxesInside (boot : LossyBoot) (worker : Worker) (batch : VerificationBatch) (draws : Draws) (fresh : Fresh) : Prop :=
  ∀ rid request, worker.requests.get? rid = some request → request.samplingParams.temperature = 0 →
    worker.states.lossyScope.gpu request.slot = 1 →
    ∀ reqIdx, reqIdx < batch.numReqs → batch.idxMapping reqIdx = request.slot → ∀ i, i < batch.numDrafts reqIdx →
      RelaxedAt (worker.states.batchOf batch) draws (worker.states.settings boot) fresh reqIdx i →
      (request.committed ++ (List.range i).map ((worker.verdicts boot batch draws fresh).sampled reqIdx)).foldl
        (markThink boot.thinkIds) (initialThinkState boot.thinkIds request.prefillTokenIds) = 1

/-- Before its verification a turn has the think states of the committed tokens, and relaxes only inside spans. -/
def TracksThink (boot : LossyBoot) (worker : Worker) (turn : Turn) : Prop :=
  ∀ prepared, worker.addRequests boot turn = some prepared →
    ∀ batch draws fresh, turn.sampling = some (.verified batch draws fresh) →
      prepared.Follows boot ∧ prepared.RelaxesInside boot batch draws fresh

/-- At a verification the last marker committed for a greedy request, if there is one, says what its prefill said. -/
def Settled (boot : LossyBoot) (worker : Worker) (turn : Turn) : Prop :=
  ∀ prepared, worker.addRequests boot turn = some prepared →
    ∀ batch draws fresh, turn.sampling = some (.verified batch draws fresh) →
      ∀ rid request, prepared.requests.get? rid = some request → request.samplingParams.temperature = 0 →
        ∀ mark, lastMark boot.thinkIds request.committed = some mark →
          mark = initialThinkState boot.thinkIds request.prefillTokenIds

/-- The host arrays hold what the admissions of the live requests staged. -/
structure Staged (boot : LossyBoot) (worker : Worker) : Prop where
  apart : ∀ rid other request second, worker.requests.get? rid = some request →
    worker.requests.get? other = some second → request.slot = second.slot → rid = other
  temperature : ∀ rid request, worker.requests.get? rid = some request →
    worker.states.temperature.np request.slot = request.samplingParams.temperature
  scope : ∀ rid request, worker.requests.get? rid = some request →
    worker.states.lossyScope.np request.slot ≠ 0 → 0 ≤ worker.states.lossyMargin.np request.slot
  think : ∀ rid request, worker.requests.get? rid = some request →
    worker.states.thinkState.np request.slot = initialThinkState boot.thinkIds request.prefillTokenIds

/-- Fewer requests, or requests with more committed tokens, are staged by the same host arrays. -/
theorem Staged.of_requests (staged : worker.Staged boot)
    (temperature : next.states.temperature.np = worker.states.temperature.np)
    (scope : next.states.lossyScope.np = worker.states.lossyScope.np)
    (margin : next.states.lossyMargin.np = worker.states.lossyMargin.np)
    (think : next.states.thinkState.np = worker.states.thinkState.np)
    (requests : ∀ rid request, next.requests.get? rid = some request → ∃ older, worker.requests.get? rid = some older ∧
      request.slot = older.slot ∧ request.samplingParams = older.samplingParams ∧
        request.prefillTokenIds = older.prefillTokenIds) : next.Staged boot := by
  constructor
  case apart =>
    intro rid other request second first there same
    obtain ⟨older, was, slot, -⟩ := requests rid request first
    obtain ⟨elder, also, place, -⟩ := requests other second there
    exact staged.apart rid other older elder was also (slot.symm.trans (same.trans place))
  case temperature =>
    intro rid request live
    obtain ⟨older, was, slot, params, -⟩ := requests rid request live
    rw [temperature, slot, params]
    exact staged.temperature rid older was
  case scope =>
    intro rid request live
    obtain ⟨older, was, slot, -⟩ := requests rid request live
    rw [scope, margin, slot]
    exact staged.scope rid older was
  case think =>
    intro rid request live
    obtain ⟨older, was, slot, -, prefill⟩ := requests rid request live
    rw [think, slot, prefill]
    exact staged.think rid older was

theorem Staged.erase (staged : worker.Staged boot) (rid : String) :
    ({ worker with requests := worker.requests.erase rid } : Worker).Staged boot := by
  refine staged.of_requests rfl rfl rfl rfl ?_
  intro other request live
  rw [OrderedDict.get?_erase] at live
  split at live
  case isTrue => cases live
  case isFalse => exact ⟨request, live, rfl, rfl, rfl⟩

theorem Staged.finish (staged : worker.Staged boot) (finished : List String) :
    ({ worker with requests := finished.foldl OrderedDict.erase worker.requests } : Worker).Staged boot := by
  induction finished generalizing worker with
  | nil => exact staged
  | cons rid rest ih => exact ih (staged.erase rid)

theorem Staged.commit (staged : worker.Staged boot) (tokens : Nat → List Int) : (worker.commit tokens).Staged boot := by
  refine staged.of_requests rfl rfl rfl rfl ?_
  intro rid request live
  obtain ⟨older, was, rfl⟩ := Option.map_eq_some_iff.mp ((OrderedDict.get?_mapValues _ _ _).symm.trans live)
  exact ⟨older, was, rfl, rfl, rfl⟩

/-- An admission stages its request in a slot that no other request has. -/
theorem Staged.admitRequest {new : NewRequest} (staged : worker.Staged boot)
    (admitted : worker.admitRequest boot new = some next) : next.Staged boot := by
  unfold Worker.admitRequest at admitted
  dsimp only at admitted
  split at admitted
  case isFalse => cases admitted
  case isTrue free =>
    cases admitted
    have cases : ∀ rid request, ((worker.requests.erase new.reqId).set new.reqId
        ⟨new.slot, new.samplingParams, new.prefillTokenIds, []⟩).get? rid = some request →
        rid = new.reqId ∧ request = ⟨new.slot, new.samplingParams, new.prefillTokenIds, []⟩ ∨
          worker.requests.get? rid = some request ∧ request.slot ≠ new.slot := by
      intro rid request live
      rcases OrderedDict.get?_set_cases live with here | ⟨different, older⟩
      · exact .inl here
      · refine .inr ⟨(OrderedDict.get?_erase_of_ne _ different).symm.trans older, ?_⟩
        exact free.2 request (OrderedDict.mem_values_iff.mpr ⟨rid, older⟩)
    constructor
    case apart =>
      intro rid other request second first there same
      rcases cases rid request first with ⟨rfl, rfl⟩ | ⟨was, elsewhere⟩
      · rcases cases other second there with ⟨rfl, rfl⟩ | ⟨-, elsewhere⟩
        · rfl
        · exact absurd same.symm elsewhere
      · rcases cases other second there with ⟨rfl, rfl⟩ | ⟨also, -⟩
        · exact absurd same elsewhere
        · exact staged.apart rid other request second was also same
    case temperature =>
      intro rid request live
      show Function.update worker.states.temperature.np new.slot new.samplingParams.temperature request.slot = _
      rcases cases rid request live with ⟨-, rfl⟩ | ⟨was, elsewhere⟩
      · exact Function.update_self ..
      · rw [Function.update_of_ne elsewhere]
        exact staged.temperature rid request was
    case scope =>
      intro rid request live
      show Function.update worker.states.lossyScope.np new.slot _ request.slot ≠ 0 →
        0 ≤ Function.update worker.states.lossyMargin.np new.slot _ request.slot
      rcases cases rid request live with ⟨-, rfl⟩ | ⟨was, elsewhere⟩
      · rw [Function.update_self, Function.update_self]
        intro inScope
        by_contra off
        exact inScope (if_neg off)
      · rw [Function.update_of_ne elsewhere, Function.update_of_ne elsewhere]
        exact staged.scope rid request was
    case think =>
      intro rid request live
      show Function.update (Function.update worker.states.thinkState.np new.slot 0) new.slot
        (initialThinkState boot.thinkIds new.prefillTokenIds) request.slot = _
      rcases cases rid request live with ⟨-, rfl⟩ | ⟨was, elsewhere⟩
      · exact Function.update_self ..
      · rw [Function.update_of_ne elsewhere, Function.update_of_ne elsewhere]
        exact staged.think rid request was

/-- After `add_requests` the device tensors are the host arrays. -/
structure Copied (worker : Worker) : Prop where
  temperature : worker.states.temperature.gpu = worker.states.temperature.np
  scope : worker.states.lossyScope.gpu = worker.states.lossyScope.np
  margin : worker.states.lossyMargin.gpu = worker.states.lossyMargin.np
  think : worker.states.thinkState.gpu = worker.states.thinkState.np

theorem Staged.addRequests {turn : Turn} {prepared : Worker} (staged : worker.Staged boot)
    (added : worker.addRequests boot turn = some prepared) : prepared.Staged boot ∧ prepared.Copied := by
  obtain ⟨last, admitted, rfl⟩ := Option.map_eq_some_iff.mp added
  have kept : last.Staged boot := by
    have finished := staged.finish turn.finished
    revert admitted finished
    generalize ({ worker with requests := turn.finished.foldl OrderedDict.erase worker.requests } : Worker) = start
    intro admitted finished
    generalize turn.newRequests = news at admitted
    induction news generalizing start with
    | nil =>
        cases admitted
        exact finished
    | cons new rest ih =>
        rw [List.foldlM_cons, Option.bind_eq_bind, Option.bind_eq_some_iff] at admitted
        obtain ⟨middle, first, later⟩ := admitted
        exact ih middle (finished.admitRequest first) later
  exact ⟨⟨kept.apart, kept.temperature, kept.scope, kept.think⟩, ⟨rfl, rfl, rfl, rfl⟩⟩

theorem Staged.step {turn : Turn} (staged : worker.Staged boot) (taken : worker.step boot turn = some next) :
    next.Staged boot := by
  obtain ⟨prepared, added, rfl⟩ := Option.map_eq_some_iff.mp taken
  have ready := (staged.addRequests added).1
  cases turn.sampling with
  | none => exact ready
  | some sampling =>
      cases sampling with
      | plain rows =>
          have advanced : ({ prepared with states := prepared.states.updateThinkStateFromSampled boot rows } :
              Worker).Staged boot :=
            ⟨ready.apart, ready.temperature, ready.scope, ready.think⟩
          exact advanced.commit _
      | verified batch draws fresh =>
          have verified : ({ prepared with states := { prepared.states with
              thinkState := { prepared.states.thinkState with
                gpu := (prepared.verdicts boot batch draws fresh).thinkState } } } : Worker).Staged boot :=
            ⟨ready.apart, ready.temperature, ready.scope, ready.think⟩
          exact verified.commit _

theorem staged_init : init.Staged boot :=
  ⟨fun _ _ _ _ => nofun, fun _ _ => nofun, fun _ _ => nofun, fun _ _ => nofun⟩

/-- After `add_requests` the device follows the committed tokens just when no later marker contradicts the prefill. -/
theorem follows_iff (staged : worker.Staged boot) (copied : worker.Copied) :
    worker.Follows boot ↔ ∀ rid request, worker.requests.get? rid = some request →
      request.samplingParams.temperature = 0 → ∀ mark, lastMark boot.thinkIds request.committed = some mark →
        mark = initialThinkState boot.thinkIds request.prefillTokenIds := by
  refine forall_congr' fun rid => forall_congr' fun request => imp_congr_right fun live => imp_congr_right fun _ => ?_
  rw [copied.think, staged.think rid request live, LiveRequest.think, foldl_markThink]
  cases lastMark boot.thinkIds request.committed with
  | none => simp
  | some mark => simp [eq_comm]

/-- A verification that starts from the think states of the committed tokens relaxes only inside spans. -/
theorem Follows.relaxesInside (follows : worker.Follows boot) (staged : worker.Staged boot) (copied : worker.Copied)
    (batch : VerificationBatch) (draws : Draws) (fresh : Fresh) : worker.RelaxesInside boot batch draws fresh := by
  intro rid request live greedy inScope reqIdx inside slot i drafted relaxed
  have temperature : (worker.states.batchOf batch).temperature ((worker.states.batchOf batch).idxMapping reqIdx) = 0 := by
    show worker.states.temperature.gpu (batch.idxMapping reqIdx) = 0
    rw [copied.temperature, slot, staged.temperature rid request live, greedy]
  have scope : (worker.states.settings boot).scope ((worker.states.batchOf batch).idxMapping reqIdx) ≠ 0 := by
    show worker.states.lossyScope.gpu (batch.idxMapping reqIdx) ≠ 0
    rw [slot, inScope]
    decide
  have opted : 0 ≤ (worker.states.settings boot).margin ((worker.states.batchOf batch).idxMapping reqIdx) := by
    show 0 ≤ worker.states.lossyMargin.gpu (batch.idxMapping reqIdx)
    rw [copied.margin, slot]
    apply staged.scope rid request live
    rw [← copied.scope, inScope]
    decide
  have think : (worker.states.settings boot).initialThink ((worker.states.batchOf batch).idxMapping reqIdx) =
      request.think boot := by
    show worker.states.thinkState.gpu (batch.idxMapping reqIdx) = _
    rw [slot, follows rid request live greedy]
  rw [List.foldl_append]
  have span := relaxedAt_inside temperature opted scope drafted relaxed
  rw [think] at span
  exact span

/-- Over every run, the verifications start from the think states of the committed tokens and relax only inside
spans just when no marker that was committed last contradicts the prefill. -/
theorem think_state_tracked_iff (boot : LossyBoot) (turns : List Turn) :
    Run.Meets (step boot) (TracksThink boot) init turns ↔ Run.Meets (step boot) (Settled boot) init turns := by
  have keeps : ∀ worker turn next, Staged boot worker → step boot worker turn = some next → Staged boot next :=
    fun worker turn next staged taken => staged.step taken
  refine Run.meets_congr keeps ?_ staged_init
  intro worker turn staged
  constructor
  · intro tracked prepared added batch draws fresh verifies
    obtain ⟨ready, copied⟩ := staged.addRequests added
    exact (follows_iff ready copied).mp (tracked prepared added batch draws fresh verifies).1
  · intro settled prepared added batch draws fresh verifies
    obtain ⟨ready, copied⟩ := staged.addRequests added
    have follows := (follows_iff ready copied).mpr (settled prepared added batch draws fresh verifies)
    exact ⟨follows, follows.relaxesInside ready copied batch draws fresh⟩

/-- Two tokens, both of them markers. -/
def markerBoot : LossyBoot := ⟨(0, 1), [], 1⟩

/-- A greedy request whose drafts may be relaxed inside spans. -/
noncomputable def scopedParams : SamplingParams where
  temperature := 0
  seed := 0
  structuredOutputs := false
  logitBias := false
  allowedTokenIds := false
  badWords := false
  presencePenalty := 0
  frequencyPenalty := 0
  repetitionPenalty := 1
  specLossyMargin := some (.number 1)
  specLossyRank := none
  specLossyMinP := none
  specLossyScope := some "think"

/-- The prefill opens a span and the plain sampler closes it. -/
noncomputable def closingTurn : Turn := ⟨[], [⟨"r", 0, scopedParams, [0]⟩], some (.plain [(0, 1)])⟩

noncomputable def verifyingTurn : Turn := ⟨[], [], some (.verified (singleDraft 1) zeroDraws zeroFresh)⟩

theorem closingTurn_step : ∃ worker, init.step markerBoot closingTurn = some worker ∧
    worker.requests.get? "r" = some ⟨0, scopedParams, [0], [1]⟩ := ⟨_, rfl, rfl⟩

/-- A span that the plain sampler closed is open again at the next verification. -/
theorem closed_span_reopened :
    ¬∀ turns, Run.Meets (step markerBoot) (TracksThink markerBoot) init turns := by
  intro tracked
  obtain ⟨worker, taken, live⟩ := closingTurn_step
  have staged := staged_init.step taken
  obtain ⟨prepared, added, same⟩ : ∃ prepared, worker.addRequests markerBoot verifyingTurn = some prepared ∧
      prepared.requests = worker.requests := ⟨_, rfl, rfl⟩
  have after := ((tracked [closingTurn, verifyingTurn]).2 worker taken).1 prepared added _ _ _ rfl
  obtain ⟨ready, copied⟩ := staged.addRequests added
  have settled := (follows_iff ready copied).mp after.1 "r" _ (same ▸ live) rfl 0 rfl
  exact absurd settled (by decide)

end Worker

end DgxSpark.Spec
