import DgxSpark.Nvme.CoalescedTurns
import DgxSpark.Nvme.StreamTransitions

/-
This file shows that the outputs of `coalesced_weights` that anything still refers to stay within the owned budget.
-/

namespace DgxSpark.Nvme.Coalesced

open Library Streaming
open StreamWeights (aliveOf sum_aliveOf sum_aliveOf_le aliveOf_append aliveOf_concat aliveOf_aliveOf reserve_ok)

variable {DType : Type}

namespace Source

/-- The outputs that were allocated at each point of `produce`: one for each batch that it has reserved. -/
def Counted (most count : Nat) : SourcePoint → Prop
  | .created => count = 0
  | .checking index => count = index
  | .reserving index => count = index
  | .opening index => count = index + 1
  | .fencing index _ _ => count = index + 1
  | .reading _ index _ _ _ => count = index + 1
  | .yielding index _ => count = index + 1
  | .suspended index => count = index + 1
  | _ => count ≤ most

/-- The bytes of the outputs that something refers to. -/
def aliveBytes (state : Source) : Int := ((aliveOf state.expired state.allocated).map Prod.snd).sum

/-- The budget counts what it refers to, and that is all that lives. -/
structure Spent (call : CoalescedCall DType) (batches : List (Batch DType)) (state : Source) : Prop where
  sizes : ∀ entry ∈ state.allocated, 0 ≤ entry.2
  counted : Counted batches.length state.allocated.length state.point
  below : ∀ output ∈ state.expired, output < state.allocated.length
  once : state.expired.Nodup
  bound : state.aliveBytes ≤ state.budget.peak
  capped : state.budget.peak ≤ max call.ownedLimit 0
  limit : state.budget.limit = call.ownedLimit
  live : state.budget.live = (state.budget.refs.map Prod.snd).sum
  refs : aliveOf state.expired state.budget.refs = aliveOf state.expired state.allocated

variable {call : CoalescedCall DType} {disk : Disk} {batches : List (Batch DType)} {state next : Source}

theorem start_spent (slots : Fin 2 → Buffer UInt8) (outputs : Nat → Buffer UInt8) :
    (start call.ownedLimit slots outputs).Spent call batches where
  sizes := List.forall_mem_nil _
  counted := rfl
  below := List.forall_mem_nil _
  once := List.nodup_nil
  bound := le_refl _
  capped := le_max_right _ _
  limit := rfl
  live := rfl
  refs := rfl

/-- No more outputs were allocated than there are batches. -/
theorem Spent.length_le (spent : state.Spent call batches) (sound : state.Sound call disk batches) :
    state.allocated.length ≤ batches.length := by
  have counted := spent.counted
  have here := sound.point
  have within : ∀ (index : Nat) (batch : Batch DType), batches[index]? = some batch → index + 1 ≤ batches.length :=
    fun index batch found => (List.getElem?_eq_some_iff.mp found).1
  cases point : state.point with
  | created =>
      rw [point] at counted
      exact counted.trans_le (Nat.zero_le _)
  | checking index =>
      rw [point] at counted here
      exact counted.trans_le here.2.1
  | reserving index =>
      rw [point] at counted here
      exact counted.trans_le here.2.1.le
  | opening index =>
      rw [point] at counted here
      exact counted.trans_le here.2.1
  | fencing index position finalEvent =>
      rw [point] at counted here
      obtain ⟨batch, batching⟩ := here
      exact counted.trans_le (within index batch batching.found)
  | reading slot index position finalEvent readings =>
      rw [point] at counted here
      obtain ⟨batch, reader, batching, _⟩ := here
      exact counted.trans_le (within index batch batching.found)
  | yielding index finalEvent =>
      rw [point] at counted here
      obtain ⟨batch, batching⟩ := here
      exact counted.trans_le (within index batch batching.found)
  | suspended index =>
      rw [point] at counted here
      exact counted.trans_le here.2.1
  | closing ending =>
      rw [point] at counted
      exact counted
  | finished ending =>
      rw [point] at counted
      exact counted
  | ended ending =>
      rw [point] at counted
      exact counted

/-- `produce` goes on without a change of its outputs. -/
theorem Spent.moved (spent : state.Spent call batches) (allocated : next.allocated = state.allocated)
    (expired : next.expired = state.expired) (budget : next.budget = state.budget)
    (counted : Counted batches.length state.allocated.length next.point) : next.Spent call batches where
  sizes := allocated ▸ spent.sizes
  counted := by rwa [allocated]
  below := by
    rw [allocated, expired]
    exact spent.below
  once := expired ▸ spent.once
  bound := by
    rw [aliveBytes, allocated, expired, budget]
    exact spent.bound
  capped := budget ▸ spent.capped
  limit := budget ▸ spent.limit
  live := budget ▸ spent.live
  refs := by
    rw [allocated, expired, budget]
    exact spent.refs

/-- What the budget counts after a collection is what lives. -/
theorem Spent.collected (spent : state.Spent call batches) :
    (state.budget.collect state.expired).live = state.aliveBytes := by
  have refs := congrArg (fun entries => (List.map Prod.snd entries).sum) spent.refs
  show state.budget.live - _ = _
  rw [spent.live, ← sum_aliveOf]
  exact refs

/-- A reserved batch fits beside all that lives. -/
theorem Spent.reserved (spent : state.Spent call batches) {index : Nat} {batch : Batch DType}
    {budget : OwnedStorageBudget} (point : state.point = .reserving index) (positive : 0 ≤ batch.bytes)
    (reserved : state.budget.reserve state.expired batch.bytes = .ok budget) :
    ({ state with
      point := .opening index
      budget := budget.track index batch.bytes
      allocated := state.allocated ++ [(index, batch.bytes)] } : Source).Spent call batches := by
  obtain ⟨rfl, fits⟩ := reserve_ok reserved
  have counted := spent.counted
  rw [point] at counted
  have fresh : index ∉ state.expired := fun inside => Nat.lt_irrefl _ (counted ▸ spent.below _ inside)
  have one : aliveOf state.expired [(index, batch.bytes)] = [(index, batch.bytes)] := by simp [aliveOf, fresh]
  have alive : ((aliveOf state.expired (state.allocated ++ [(index, batch.bytes)])).map Prod.snd).sum =
      state.aliveBytes + batch.bytes := by
    rw [aliveOf_append, one, List.map_append, List.sum_append, List.map_singleton, List.sum_singleton]
    rfl
  rw [spent.collected] at fits
  constructor
  · intro entry inside
    rcases List.mem_append.mp inside with before | last
    · exact spent.sizes entry before
    · exact List.mem_singleton.mp last ▸ positive
  · show (state.allocated ++ [(index, batch.bytes)]).length = index + 1
    rw [List.length_append, List.length_singleton, counted]
  · intro output inside
    rw [List.length_append]
    exact Nat.lt_add_right _ (spent.below output inside)
  · exact spent.once
  · show ((aliveOf state.expired (state.allocated ++ [(index, batch.bytes)])).map Prod.snd).sum ≤
      max state.budget.peak ((state.budget.collect state.expired).live + batch.bytes)
    rw [alive, spent.collected]
    exact le_max_right _ _
  · show max state.budget.peak ((state.budget.collect state.expired).live + batch.bytes) ≤ _
    rw [spent.collected]
    exact max_le spent.capped (le_trans (fits.trans_eq spent.limit) (le_max_left _ _))
  · exact spent.limit
  · show (state.budget.collect state.expired).live + batch.bytes =
      ((aliveOf state.expired state.budget.refs ++ [(index, batch.bytes)]).map Prod.snd).sum
    rw [List.map_append, List.sum_append, List.map_singleton, List.sum_singleton, spent.collected, spent.refs]
    rfl
  · show aliveOf state.expired (aliveOf state.expired state.budget.refs ++ [(index, batch.bytes)]) = _
    rw [aliveOf_append, aliveOf_append, aliveOf_aliveOf, spent.refs]

theorem Spent.expires (spent : state.Spent call batches) {output : Nat} (below : output < state.allocated.length)
    (alive : output ∉ state.expired) :
    ({ state with expired := state.expired ++ [output] } : Source).Spent call batches where
  sizes := spent.sizes
  counted := spent.counted
  below other inside := by
    rcases List.mem_append.mp inside with before | last
    · exact spent.below other before
    · exact List.mem_singleton.mp last ▸ below
  once := List.nodup_append.mpr ⟨spent.once, List.nodup_singleton _, by
    rintro other before _ last rfl
    exact alive (List.mem_singleton.mp last ▸ before)⟩
  bound := by
    show ((aliveOf (state.expired ++ [output]) state.allocated).map Prod.snd).sum ≤ _
    rw [aliveOf_concat]
    refine le_trans (sum_aliveOf_le ?_ [output]) spent.bound
    exact fun entry inside => spent.sizes entry (List.mem_of_mem_filter inside)
  capped := spent.capped
  limit := spent.limit
  live := spent.live
  refs := by rw [aliveOf_concat, aliveOf_concat, spent.refs]

theorem Spent.transition (spent : state.Spent call batches) (sound : state.Sound call disk batches)
    (sizes : ∀ batch ∈ batches, 0 ≤ batch.bytes) (taken : Transition call disk batches state next) :
    next.Spent call batches := by
  have most := spent.length_le sound
  have counted := spent.counted
  cases taken with
  | made point =>
      rw [point] at counted
      exact spent.moved rfl rfl rfl counted
  | refused => exact spent.moved rfl rfl rfl most
  | resumed point =>
      rw [point] at counted
      exact spent.moved rfl rfl rfl counted
  | completed => exact spent.moved rfl rfl rfl most
  | checked point =>
      rw [point] at counted
      exact spent.moved rfl rfl rfl counted
  | stopped => exact spent.moved rfl rfl rfl most
  | cancelled => exact spent.moved rfl rfl rfl most
  | reserved point found reserved => exact spent.reserved point (sizes _ (List.mem_of_getElem? found)) reserved
  | unallocated point reserved =>
      obtain ⟨rfl, _⟩ := reserve_ok reserved
      refine ⟨spent.sizes, most, spent.below, spent.once, spent.bound, spent.capped, spent.limit, ?_, ?_⟩
      · show state.budget.live - _ = _
        rw [spent.live, ← sum_aliveOf]
        rfl
      · show aliveOf state.expired (aliveOf state.expired state.budget.refs) = _
        rw [aliveOf_aliveOf, spent.refs]
  | entered point =>
      rw [point] at counted
      exact spent.moved rfl rfl rfl counted
  | fenced point =>
      rw [point] at counted
      exact spent.moved rfl rfl rfl counted
  | filled point =>
      rw [point] at counted
      exact spent.moved rfl rfl rfl counted
  | received point =>
      rw [point] at counted
      exact spent.moved rfl rfl rfl counted
  | submitted point =>
      rw [point] at counted
      exact spent.moved rfl rfl rfl counted
  | delivered point =>
      rw [point] at counted
      exact spent.moved rfl rfl rfl counted
  | copied => exact spent.moved rfl rfl rfl counted
  | synchronized => exact spent.moved rfl rfl rfl most
  | broken => exact spent.moved rfl rfl rfl most
  | expired below alive => exact spent.expires below alive

theorem Spent.answer (spent : state.Spent call batches) (sound : state.Sound call disk batches)
    {answer : Next Item CoalescedError} (answered : state.answer = some (answer, next)) :
    next.Spent call batches := by
  have most := spent.length_le sound
  have counted := spent.counted
  unfold Source.answer at answered
  split at answered
  case h_1 point =>
    cases answered
    rw [point] at counted
    exact spent.moved rfl rfl rfl counted
  case h_2 =>
    cases answered
    exact spent.moved rfl rfl rfl most
  case h_3 =>
    cases answered
    exact spent.moved rfl rfl rfl most
  case h_4 => cases answered

theorem Spent.closed (spent : state.Spent call batches) (sound : state.Sound call disk batches)
    {closeError : Option CoalescedError} (closed : state.closed = some (closeError, next)) :
    next.Spent call batches := by
  have most := spent.length_le sound
  unfold Source.closed at closed
  split at closed
  case h_1 =>
    cases closed
    exact spent.moved rfl rfl rfl most
  case h_2 =>
    cases closed
    exact spent.moved rfl rfl rfl most
  case h_3 =>
    cases closed
    exact spent
  case h_4 => cases closed

end Source

/-- The allocations of the two slots are within the memory limit. -/
theorem init_memory {concurrency tileBytes memoryLimit : Int} {direct : Bool} {owners : Fin 2 → Nat}
    {reader : RangeReader} (made : RangeReader.init concurrency tileBytes memoryLimit direct owners = .ok reader) :
    2 * ((reader.tileBytes : Int) + ALIGN) ≤ memoryLimit := by
  unfold RangeReader.init at made
  split at made
  case isTrue => cases made
  case isFalse =>
    split at made
    case isTrue => cases made
    case isFalse large =>
      cases made
      have tile := Int.not_lt.mp large
      show 2 * (((min tileBytes ((memoryLimit / 2 - ALIGN) / ALIGN * ALIGN)).toNat : Int) + ALIGN) ≤ memoryLimit
      have whole : ((memoryLimit / 2 - ALIGN) / ALIGN * ALIGN : Int) ≤ memoryLimit / 2 - ALIGN :=
        Int.ediv_mul_le _ (by decide)
      have least := min_le_right tileBytes ((memoryLimit / 2 - ALIGN) / ALIGN * ALIGN)
      have positive : (0 : Int) ≤ min tileBytes ((memoryLimit / 2 - ALIGN) / ALIGN * ALIGN) :=
        le_trans (by decide) tile
      rw [Int.toNat_of_nonneg positive]
      omega

namespace CoalescedWeights

variable {call : CoalescedCall DType} {disk : Disk} {batches : List (Batch DType)}
  {state next : CoalescedWeights DType}

/-- A planned call has an owned budget. -/
theorem plan_limit (planned : call.plan = .ok batches) : 0 < call.ownedLimit := by
  unfold CoalescedCall.plan at planned
  split at planned
  case isTrue => cases planned
  case isFalse valid => exact Int.not_le.mp fun low => valid (.inr low)

/-- A planned batch has bytes. -/
theorem plan_bytes (positive : 0 < call.batchBytes) (multiple : (ALIGN : Int) ∣ call.batchBytes)
    (planned : call.plan = .ok batches) : ∀ batch ∈ batches, 0 ≤ batch.bytes := by
  intro batch inside
  obtain ⟨rows, plan, _⟩ := planBatches_ok positive multiple (plan_ok planned)
  obtain ⟨row, member⟩ := List.exists_mem_of_ne_nil _ (plan.sound batch inside).filled
  have placed := plan_placed positive multiple planned inside member
  have begins := placed.begins
  have long := placed.long
  have ends := placed.ends
  show 0 ≤ batch.stop - batch.start
  omega

/-- Only the steps of `produce` and the answers of the pump change what was allocated. -/
theorem spent_transition (kept : Kept call disk batches state) (spent : state.source.Spent call batches)
    (sizes : ∀ batch ∈ batches, 0 ≤ batch.bytes) (taken : Transition call disk batches state next) :
    next.source.Spent call batches := by
  cases taken with
  | source _ taken => exact spent.transition kept.sound sizes (Source.step_transition taken)
  | pump pumped =>
      cases pumped with
      | asks _ answered => exact spent.answer kept.sound answered
      | closes _ closed => exact spent.closed kept.sound closed
      | alone => exact spent
  | pumpTimeout => exact spent
  | joinTimeout => exact spent
  | body advanced => cases advanced <;> exact spent

/-- The peak does not fall. -/
theorem peak_transition (taken : Transition call disk batches state next) :
    state.source.budget.peak ≤ next.source.budget.peak := by
  cases taken with
  | source _ taken =>
      cases Source.step_transition taken with
      | reserved _ _ reserved =>
          obtain ⟨rfl, _⟩ := reserve_ok reserved
          exact le_max_left _ _
      | unallocated _ reserved =>
          obtain ⟨rfl, _⟩ := reserve_ok reserved
          exact le_refl _
      | _ => exact le_refl _
  | pump pumped =>
      cases pumped with
      | asks _ answered =>
          unfold Source.answer at answered
          split at answered <;> cases answered <;> exact le_refl _
      | closes _ closed =>
          unfold Source.closed at closed
          split at closed <;> cases closed <;> exact le_refl _
      | alone => exact le_refl _
  | pumpTimeout => exact le_refl _
  | joinTimeout => exact le_refl _
  | body advanced => cases advanced <;> exact le_refl _

/-- In every state of a call, the outputs that something refers to take no more bytes than the peak that the call ends
with, and that is within the owned budget. The two slots of its reader are within the memory limit. -/
theorem coalesced_owned (call : CoalescedCall DType) (disk : Disk) (slots : Fin 2 → Buffer UInt8)
    (outputs : Nat → Buffer UInt8) {batches : List (Batch DType)} (positive : 0 < call.batchBytes)
    (multiple : (ALIGN : Int) ∣ call.batchBytes) (planned : call.plan = .ok batches) {actions more : List Action}
    {state last : CoalescedWeights DType}
    (reached : Run.run (step call disk batches) (start call slots outputs) actions = some state)
    (ran : Run.run (step call disk batches) state more = some last) :
    (state.source.aliveBytes ≤ last.source.budget.peak ∧ last.source.budget.peak ≤ call.ownedLimit) ∧
      ∀ reader, call.reader = .ok reader → 2 * ((reader.tileBytes : Int) + ALIGN) ≤ call.memoryLimit := by
  have sizes := plan_bytes positive multiple planned
  have low := plan_low positive multiple planned
  have keeps : ∀ (state : CoalescedWeights DType) action next,
      (Kept call disk batches state ∧ state.source.Spent call batches) →
        step call disk batches state action = some next →
          Kept call disk batches next ∧ next.source.Spent call batches := by
    rintro state action next ⟨kept, spent⟩ taken
    have moved := step_transition taken
    exact ⟨kept.transition low (reader_fit multiple) moved, spent_transition kept spent sizes moved⟩
  obtain ⟨kept, spent⟩ := Run.run_invariant keeps ⟨start_kept slots outputs, Source.start_spent slots outputs⟩ reached
  obtain ⟨_, later⟩ := Run.run_invariant keeps ⟨kept, spent⟩ ran
  have grows : state.source.budget.peak ≤ last.source.budget.peak := by
    refine @Run.run_invariant _ _ (step call disk batches)
      (fun other : CoalescedWeights DType => state.source.budget.peak ≤ other.source.budget.peak) ?_ _ _ _ (le_refl _) ran
    exact fun _ _ _ before taken => before.trans (peak_transition (step_transition taken))
  have limit : 0 < call.ownedLimit := plan_limit planned
  refine ⟨⟨spent.bound.trans grows, later.capped.trans_eq (max_eq_left limit.le)⟩, ?_⟩
  intro reader made
  exact init_memory made

/-- The batch lives while the queue has it. -/
theorem coalesced_owned_small :
    ∃ state, Run.run (step smallCall smallDisk [smallBatch]) (start smallCall (fun _ _ => 0) fun _ _ => 0)
        (leftRun.take 12) = some state ∧
      state.source.aliveBytes = 10 ∧ state.source.budget.peak ≤ 100 := by
  have ends : (Run.run (step smallCall smallDisk [smallBatch]) (start smallCall (fun _ _ => 0) fun _ _ => 0)
      (leftRun.take 12)).map (fun state => state.source.aliveBytes) = some 10 := by rfl
  obtain ⟨state, reached, alive⟩ := Option.map_eq_some_iff.mp ends
  obtain ⟨⟨_, capped⟩, _⟩ := coalesced_owned smallCall smallDisk _ _ (by decide) (by decide)
    (show smallCall.plan = .ok [smallBatch] from rfl) reached (Run.run_nil state)
  exact ⟨state, reached, alive, capped⟩

end CoalescedWeights

end DgxSpark.Nvme.Coalesced
