import DgxSpark.Library.Fallible
import DgxSpark.Spec.Adaptive
import Mathlib.Data.Option.Basic

/-
This file shows what completing an output does: which rows teach, that no call of `observe` is refused, and what
the calls leave in the statistics.
-/

namespace DgxSpark.Adaptive
open DgxSpark.Library

variable {F : Type} [PyFloat F]

namespace PrefixStats

/-- What `observe` reads and writes of the statistics. -/
def evidence (stats : PrefixStats F) : (Fin 7 → F) × (Fin 7 → F) × Nat :=
  (stats.successes, stats.trials, stats.observations)

/-- The statistics after some calls of `observe`. -/
def replay (stats : PrefixStats F) (calls : List Observed) : Except Raised (PrefixStats F) :=
  calls.foldlM (fun stats call => stats.observe call.k call.accepted) stats

theorem observe_ok (stats : PrefixStats F) {k accepted : Nat} (first : 1 ≤ k) (last : k ≤ 7) (within : accepted ≤ k) :
    ∃ next, stats.observe k accepted = .ok next ∧ next.cap = stats.cap ∧ next.prior = stats.prior := by
  have fits : ¬(¬(1 ≤ k ∧ k ≤ 7) ∨ ¬accepted ≤ k) := by omega
  rw [observe, if_neg fits]
  exact ⟨_, rfl, rfl, rfl⟩

theorem observe_evidence {stats other next : PrefixStats F} {k accepted : Nat}
    (same : stats.evidence = other.evidence) (taken : stats.observe k accepted = .ok next) :
    ∃ after, other.observe k accepted = .ok after ∧ next.evidence = after.evidence := by
  simp only [evidence, Prod.mk.injEq] at same
  unfold observe at taken ⊢
  split at taken
  case isTrue => cases taken
  case isFalse fits =>
    cases taken
    rw [if_neg fits]
    refine ⟨_, rfl, ?_⟩
    simp only [evidence, same.1, same.2.1, same.2.2]

@[simp] theorem replay_nil (stats : PrefixStats F) : stats.replay [] = .ok stats := rfl

@[simp] theorem replay_singleton (stats : PrefixStats F) (call : Observed) :
    stats.replay [call] = stats.observe call.k call.accepted := by
  rw [replay, List.foldlM_cons]
  exact bind_pure (stats.observe call.k call.accepted)

theorem replay_append {stats : PrefixStats F} {first second : List Observed} :
    stats.replay (first ++ second) = (stats.replay first).bind fun middle => middle.replay second := by
  rw [replay, List.foldlM_append]
  rfl

theorem replay_evidence {calls : List Observed} {stats other last : PrefixStats F}
    (same : stats.evidence = other.evidence) (replayed : stats.replay calls = .ok last) :
    ∃ after, other.replay calls = .ok after ∧ last.evidence = after.evidence := by
  induction calls generalizing stats other with
  | nil =>
      cases replayed
      exact ⟨other, rfl, same⟩
  | cons call rest ih =>
      rw [replay, List.foldlM_cons] at replayed
      obtain ⟨next, taken, later⟩ := bind_ok.mp replayed
      obtain ⟨after, also, equal⟩ := observe_evidence same taken
      obtain ⟨final, reached, agree⟩ := ih equal later
      refine ⟨final, ?_, agree⟩
      rw [replay, List.foldlM_cons, also]
      exact reached

end PrefixStats

/-- The runner returned these tokens for a request. -/
def ModelRunnerOutput.Returned (runnerOutput : ModelRunnerOutput) (rid : String) (tokens : List Int) : Prop :=
  ∃ i, runnerOutput.reqIdToIndex.get? rid = some i ∧ runnerOutput.sampledTokenIds[i]? = some tokens

namespace VerificationPolicy

variable {policy other next : VerificationPolicy F} {runnerOutput : ModelRunnerOutput}
  {requests : OrderedDict String Nat} {heap : Nat → Option (Request F)}

/-- Two policies have states for the same request objects. -/
def SameStates (policy other : VerificationPolicy F) : Prop :=
  ∀ ref, (policy.states ref).isSome = (other.states ref).isSome

omit [PyFloat F] in
theorem lesson_congr (same : SameStates policy other) (rid : String) (row : Feedback) :
    policy.lesson runnerOutput requests heap rid row = other.lesson runnerOutput requests heap rid row := by
  simp only [lesson, same row.request]

omit [PyFloat F] in
theorem lesson_eq_some_iff {rid : String} {row : Feedback} {k accepted : Nat} :
    policy.lesson runnerOutput requests heap rid row = some (k, accepted) ↔
      ∃ request tokens, heap row.request = some request ∧ requests.get? rid = some row.request ∧
        request.isFinished = false ∧ (policy.states row.request).isSome ∧ request.asyncTokensToDiscard = 0 ∧
        runnerOutput.Returned rid tokens ∧ tokens.length = accepted + 1 ∧ accepted ≤ k ∧ k = row.scheduledK ∧
        row.eligible = true ∧ request.terminal tokens = false ∧ k = row.cap := by
  constructor
  · intro found
    simp only [lesson, Option.bind_eq_bind, Option.bind_eq_some_iff, Option.guard_eq_some'] at found
    obtain ⟨request, alive, -, ⟨live, unfinished⟩, -, ⟨known, kept⟩, i, index, tokens, returned, -, size, -, fit,
      result⟩ := found
    cases result
    refine ⟨request, tokens, alive, live, unfinished, known, kept, ⟨i, index, returned⟩, ?_, ?_, rfl, fit⟩ <;> omega
  · rintro ⟨request, tokens, alive, live, unfinished, known, kept, ⟨i, index, returned⟩, size, within, same, fit⟩
    have range := row.cap.range
    have capped := fit.2.2
    subst same
    have length : 1 ≤ row.scheduledK ∧ row.scheduledK ≤ 7 ∧ 1 ≤ tokens.length ∧ tokens.length ≤ row.scheduledK + 1 := by
      omega
    have count : tokens.length - 1 = accepted := by omega
    simp only [lesson, Option.bind_eq_bind, Option.bind_eq_some_iff, Option.guard_eq_some']
    exact ⟨request, alive, (), ⟨live, unfinished⟩, (), ⟨known, kept⟩, i, index, tokens, returned, (), length, (), fit,
      by rw [count]; rfl⟩

/-- The call of `observe` that a row leads to. -/
def callOf (policy : VerificationPolicy F) (runnerOutput : ModelRunnerOutput) (requests : OrderedDict String Nat)
    (heap : Nat → Option (Request F)) (entry : String × Feedback) : Option Observed :=
  (policy.lesson runnerOutput requests heap entry.1 entry.2).map fun (k, accepted) => ⟨entry.2.request, k, accepted⟩

omit [PyFloat F] in
theorem callOf_eq_some_iff {entry : String × Feedback} {call : Observed} :
    policy.callOf runnerOutput requests heap entry = some call ↔
      entry.2.request = call.request ∧
        policy.lesson runnerOutput requests heap entry.1 entry.2 = some (call.k, call.accepted) := by
  rw [callOf, Option.map_eq_some_iff]
  constructor
  · rintro ⟨⟨k, accepted⟩, found, rfl⟩
    exact ⟨rfl, found⟩
  · rintro ⟨same, found⟩
    exact ⟨_, found, by rw [same]⟩

/-- The calls of `observe` that completing an output makes. -/
def callsOf (policy : VerificationPolicy F) (id : Nat) (runnerOutput : ModelRunnerOutput)
    (requests : OrderedDict String Nat) (heap : Nat → Option (Request F)) : List Observed :=
  if runnerOutput.invalidBlockIds ≠ [] then []
  else ((policy.pending.get? id).getD .empty).entries.filterMap (policy.callOf runnerOutput requests heap)

/-- Some calls of `observe` lead from one policy to another, and nothing else changes. -/
structure Advanced (policy next : VerificationPolicy F) (calls : List Observed) : Prop where
  mode : next.mode = policy.mode
  fixed : next.fixed = policy.fixed
  chosen : next.chosen = policy.chosen
  pending : next.pending = policy.pending
  same : SameStates policy next
  taught : ∀ ref state, policy.states ref = some state → ∃ after,
    next.states ref = some after ∧ after.scheduled = state.scheduled ∧
      state.stats.replay (calls.filter (·.request = ref)) = .ok after.stats

theorem Advanced.refl (policy : VerificationPolicy F) : Advanced policy policy [] := by
  constructor
  case taught =>
    intro ref state known
    exact ⟨state, known, rfl, rfl⟩
  case same => exact fun ref => rfl
  all_goals rfl

/-- A call within the range of `observe` goes through and changes the statistics of its request alone. -/
theorem Advanced.learn {calls : List Observed} {call : Observed} (advanced : Advanced policy other calls)
    (known : (policy.states call.request).isSome) (first : 1 ≤ call.k) (last : call.k ≤ 7)
    (within : call.accepted ≤ call.k) :
    ∃ next, other.learn calls call.request call.k call.accepted = .ok (next, calls ++ [call]) ∧
      Advanced policy next (calls ++ [call]) := by
  have present := advanced.same call.request
  rw [known] at present
  obtain ⟨held, there⟩ := Option.isSome_iff_exists.mp present.symm
  obtain ⟨stats, taken, -⟩ := held.stats.observe_ok first last within
  refine ⟨{ other with states := Function.update other.states call.request (some { held with stats := stats }) }, ?_, ?_⟩
  · rw [VerificationPolicy.learn, there]
    show (held.stats.observe call.k call.accepted >>= _) = _
    rw [taken]
    rfl
  · constructor
    case mode => exact advanced.mode
    case fixed => exact advanced.fixed
    case chosen => exact advanced.chosen
    case pending => exact advanced.pending
    case same =>
      intro ref
      rw [advanced.same ref]
      show _ = (Function.update other.states call.request _ ref).isSome
      by_cases here : ref = call.request
      · subst here
        rw [Function.update_self, there]
        rfl
      · rw [Function.update_of_ne here]
    case taught =>
      intro ref state begun
      obtain ⟨after, reached, kept, replayed⟩ := advanced.taught ref state begun
      by_cases here : ref = call.request
      · subst here
        cases there.symm.trans reached
        refine ⟨{ held with stats := stats }, Function.update_self .., kept, ?_⟩
        have own : [call].filter (·.request = call.request) = [call] := by simp
        rw [List.filter_append, PrefixStats.replay_append, replayed, own]
        show held.stats.replay [call] = _
        rw [PrefixStats.replay_singleton, taken]
      · have foreign : [call].filter (·.request = ref) = [] := by simp [Ne.symm here]
        refine ⟨after, (Function.update_of_ne here _ _).trans reached, kept, ?_⟩
        rw [List.filter_append, foreign, List.append_nil, replayed]

/-- The rows of a completed output one after another. -/
theorem teachRows_ok (policy : VerificationPolicy F) (rows : List (String × Feedback)) :
    ∃ next, rows.foldlM (teachRow runnerOutput requests heap) (policy, []) =
        .ok (next, rows.filterMap (policy.callOf runnerOutput requests heap)) ∧
      Advanced policy next (rows.filterMap (policy.callOf runnerOutput requests heap)) := by
  induction rows using List.reverseRecOn with
  | nil => exact ⟨policy, rfl, .refl policy⟩
  | append_singleton before entry ih =>
      obtain ⟨middle, reached, advanced⟩ := ih
      have agree := @lesson_congr F policy middle runnerOutput requests heap advanced.same entry.1 entry.2
      have whole : (before ++ [entry]).foldlM (teachRow runnerOutput requests heap) (policy, []) =
          teachRow runnerOutput requests heap
            (middle, before.filterMap (policy.callOf runnerOutput requests heap)) entry := by
        rw [List.foldlM_append, reached]
        exact bind_pure (teachRow runnerOutput requests heap (middle, _) entry)
      rw [whole, List.filterMap_append, teachRow, ← agree]
      cases taught : policy.lesson runnerOutput requests heap entry.1 entry.2 with
      | none =>
          have silent : [entry].filterMap (policy.callOf runnerOutput requests heap) = [] := by simp [callOf, taught]
          rw [silent, List.append_nil]
          exact ⟨middle, rfl, advanced⟩
      | some lesson =>
          obtain ⟨k, accepted⟩ := lesson
          have made : [entry].filterMap (policy.callOf runnerOutput requests heap) = [⟨entry.2.request, k, accepted⟩] := by
            simp [callOf, taught]
          obtain ⟨request, tokens, -, -, -, known, -, -, -, within, -, -, -, capped⟩ := lesson_eq_some_iff.mp taught
          have range := entry.2.cap.range
          have firstK : 1 ≤ (⟨entry.2.request, k, accepted⟩ : Observed).k := by
            show 1 ≤ k
            omega
          have lastK : (⟨entry.2.request, k, accepted⟩ : Observed).k ≤ 7 := by
            show k ≤ 7
            omega
          obtain ⟨next, learned, further⟩ := advanced.learn known firstK lastK within
          rw [made]
          exact ⟨next, learned, further⟩

/-- Completing an output makes the calls its rows lead to and raises nothing. -/
theorem complete_ok (policy : VerificationPolicy F) (id : Nat) (runnerOutput : ModelRunnerOutput)
    (requests : OrderedDict String Nat) (heap : Nat → Option (Request F)) :
    ∃ next, policy.complete id runnerOutput requests heap =
        .ok (next, policy.callsOf id runnerOutput requests heap) ∧
      Advanced { policy with pending := policy.pending.erase id } next
        (policy.callsOf id runnerOutput requests heap) := by
  rw [complete, callsOf]
  by_cases invalid : runnerOutput.invalidBlockIds ≠ []
  · rw [if_pos invalid, if_pos invalid]
    exact ⟨_, rfl, .refl _⟩
  · rw [if_neg invalid, if_neg invalid]
    exact teachRows_ok _ _

omit [PyFloat F] in
theorem callsOf_known {id : Nat} {call : Observed} (made : call ∈ policy.callsOf id runnerOutput requests heap) :
    (policy.states call.request).isSome := by
  rw [callsOf] at made
  split at made
  case isTrue => cases made
  case isFalse =>
    obtain ⟨entry, -, leads⟩ := List.mem_filterMap.mp made
    obtain ⟨same, found⟩ := callOf_eq_some_iff.mp leads
    obtain ⟨request, tokens, -, -, -, known, -⟩ := lesson_eq_some_iff.mp found
    exact same ▸ known

/-- The state of a request object, which `select` creates where it is missing. -/
def stateOf (policy : VerificationPolicy F) (ref : Nat) : RequestState F := (policy.states ref).getD ⟨.fresh, 0⟩

theorem adapt_evidence (stats : PrefixStats F) (rates : Cap → F) : (stats.adapt rates).evidence = stats.evidence := by
  unfold PrefixStats.adapt
  dsimp only
  split <;> rfl

theorem choose_evidence (stats : PrefixStats F) (costs : OrderedDict Nat F) (scheduledSteps : Nat) (coldStart : Bool) :
    (stats.choose costs scheduledSteps coldStart).1.evidence = stats.evidence := by
  unfold PrefixStats.choose
  dsimp only
  generalize (if coldStart = true ∧ stats.prior.isSome = true then 0 else 8) = minimum
  split
  case isTrue => rfl
  case isFalse =>
    split
    case isTrue => rfl
    case isFalse => exact adapt_evidence stats _

/-- Selecting records the choice under the request's id and observes nothing. -/
theorem select_effect (policy : VerificationPolicy F) (ref : Nat) (request : Request F) (c1 : Bool)
    (tariff : Tariff F) : ∃ state, state.stats.evidence = (policy.stateOf ref).stats.evidence ∧
      (policy.select ref request c1 tariff).1 = { policy with
        chosen := policy.chosen.set request.requestId
          ⟨ref, (policy.select ref request c1 tariff).2, eligible request c1⟩
        states := Function.update policy.states ref (some state) } := by
  unfold select
  dsimp only
  split
  case isTrue =>
    refine ⟨_, ?_, rfl⟩
    rfl
  case isFalse =>
    split
    case isTrue =>
      refine ⟨_, ?_, rfl⟩
      exact choose_evidence _ _ _ _
    case isFalse =>
      refine ⟨_, ?_, rfl⟩
      rfl

theorem get?_addRow {chosen : OrderedDict String Choice} {rows : OrderedDict String Feedback} {entry : String × List Int}
    {rid : String} {row : Feedback} (absent : rows.get? entry.1 = none) :
    (addRow chosen rows entry).get? rid = some row ↔ rows.get? rid = some row ∨
      rid = entry.1 ∧ chosen.get? rid = some row.toChoice ∧ entry.2.length = row.scheduledK := by
  rw [addRow]
  by_cases here : rid = entry.1
  · subst here
    cases known : chosen.get? entry.1 with
    | none => simp [absent]
    | some choice =>
        obtain ⟨rowChoice, scheduledK⟩ := row
        simp [absent]
  · cases known : chosen.get? entry.1 with
    | none => simp [here]
    | some choice => simp [OrderedDict.get?_set_of_ne _ _ here, here]

theorem get?_addRows {chosen : OrderedDict String Choice} {entries : List (String × List Int)}
    (nodup : (entries.map Prod.fst).Nodup) {rid : String} {row : Feedback} :
    (entries.foldl (addRow chosen) .empty).get? rid = some row ↔
      chosen.get? rid = some row.toChoice ∧ ∃ tokens, (rid, tokens) ∈ entries ∧ tokens.length = row.scheduledK := by
  induction entries using List.reverseRecOn generalizing rid row with
  | nil => simp
  | append_singleton before entry ih =>
      rw [List.map_append, List.nodup_append] at nodup
      have absent : (before.foldl (addRow chosen) .empty).get? entry.1 = none := by
        by_contra present
        obtain ⟨row, there⟩ := Option.ne_none_iff_exists'.mp present
        obtain ⟨-, tokens, inside, -⟩ := (ih nodup.1).mp there
        exact nodup.2.2 _ (List.mem_map_of_mem inside) entry.1 (by simp) rfl
      rw [List.foldl_append, List.foldl_cons, List.foldl_nil, get?_addRow absent, ih nodup.1]
      constructor
      · rintro (⟨known, tokens, inside, size⟩ | ⟨rfl, known, size⟩)
        · exact ⟨known, tokens, List.mem_append_left _ inside, size⟩
        · exact ⟨known, entry.2, by simp, size⟩
      · rintro ⟨known, tokens, inside, size⟩
        rcases List.mem_append.mp inside with earlier | last
        · exact .inl ⟨known, tokens, earlier, size⟩
        · cases List.mem_singleton.mp last
          exact .inr ⟨rfl, known, size⟩

/-- An output's rows are those of its scheduled requests that were chosen for. -/
theorem get?_rowsOf {chosen : OrderedDict String Choice} {drafts : OrderedDict String (List Int)} {rid : String}
    {row : Feedback} : (rowsOf chosen drafts).get? rid = some row ↔
      chosen.get? rid = some row.toChoice ∧ ∃ tokens, drafts.get? rid = some tokens ∧ tokens.length = row.scheduledK := by
  simp only [rowsOf, get?_addRows drafts.nodup, OrderedDict.get?_eq_some_iff]

omit [PyFloat F] in
theorem scheduled_ok {output : SchedulerOutput} (accepted : policy.scheduled output = .ok next) :
    ((rowsOf policy.chosen output.scheduledSpecDecodeTokens).entries = [] ∧ next = policy) ∨
      next = { policy with
        pending := policy.pending.set output.id (rowsOf policy.chosen output.scheduledSpecDecodeTokens) } := by
  unfold scheduled at accepted
  dsimp only at accepted
  split at accepted
  case isTrue none =>
    cases accepted
    exact .inl ⟨none, rfl⟩
  case isFalse =>
    split at accepted
    case isTrue => cases accepted
    case isFalse =>
      cases accepted
      exact .inr rfl

omit [PyFloat F] in
/-- A scheduled output at a new place gets its own rows and touches no others. -/
theorem scheduled_rows {output : SchedulerOutput} (accepted : policy.scheduled output = .ok next)
    (absent : policy.pending.get? output.id = none) :
    (next.pending.get? output.id).getD .empty = rowsOf policy.chosen output.scheduledSpecDecodeTokens ∧
      ∀ id, id ≠ output.id → next.pending.get? id = policy.pending.get? id := by
  rcases scheduled_ok accepted with ⟨none, rfl⟩ | rfl
  · refine ⟨?_, fun _ _ => rfl⟩
    generalize rowsOf next.chosen output.scheduledSpecDecodeTokens = rows at none ⊢
    obtain ⟨entries, nodup⟩ := rows
    cases none
    rw [absent]
    rfl
  · refine ⟨?_, fun id different => OrderedDict.get?_set_of_ne _ _ different⟩
    show ((policy.pending.set output.id _).get? output.id).getD .empty = _
    rw [OrderedDict.get?_set_self]
    rfl

omit [PyFloat F] in
/-- An output is refused only when 64 others wait for their completion. -/
theorem scheduled_error {output : SchedulerOutput} {raised : Raised} (refused : policy.scheduled output = .error raised) :
    64 ≤ policy.pending.entries.length ∧
      raised = .runtimeError "Adaptive verification feedback queue exceeded 64 steps" := by
  unfold scheduled at refused
  dsimp only at refused
  split at refused
  case isTrue => cases refused
  case isFalse =>
    split at refused
    case isTrue full =>
      cases refused
      exact ⟨full, rfl⟩
    case isFalse => cases refused

end VerificationPolicy

end DgxSpark.Adaptive
