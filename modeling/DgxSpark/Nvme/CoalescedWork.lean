import DgxSpark.Nvme.CoalescedBudget
import DgxSpark.Nvme.CoalescedProgress

/-
This file counts the work that is left to a call of `coalesced_weights`: every step but an expired wait leaves less.
-/

namespace DgxSpark.Nvme.Coalesced

open Library Streaming

variable {DType : Type}

/-- What a sub-read still requires while it runs. -/
def Reading.left (reading : Reading) : Nat := if reading.Runs then reading.job.required - reading.done else 0

theorem Reading.left_start (job : RangeReader.SubRead) : Reading.left (Reading.start job) = job.required := by
  by_cases more : 0 < job.required
  · simp [Reading.left, Reading.Runs, Reading.start, more]
  · simp [Reading.left, Reading.Runs, Reading.start, Nat.eq_zero_of_not_pos more]

/-- An answer of `preadv` leaves less to a running sub-read. -/
theorem Reading.left_after {reading : Reading} (runs : reading.Runs) (direct : Bool) (source : Int)
    (answer : PreadvAnswer) : Reading.left (reading.after direct source answer) < Reading.left reading := by
  have positive : 0 < reading.job.required - reading.done := Nat.sub_pos_of_lt runs.1
  have here : Reading.left reading = reading.job.required - reading.done := if_pos runs
  have job := reading.after_job direct source answer
  have done := Reading.after_done reading direct source answer
  rw [here, Reading.left]
  split
  case isFalse => exact positive
  case isTrue still =>
    rw [job, done]
    cases answer with
    | raised => exact absurd still.2 (by simp [Reading.after])
    | count n reopens =>
        cases n with
        | zero => exact absurd still.2 (by simp [Reading.after])
        | succ n =>
            show reading.job.required - (reading.done + (n + 1)) < _
            omega

theorem sum_left_set {readings : List Reading} {thread : Nat} {reading after : Reading}
    (found : readings[thread]? = some reading) (less : Reading.left after < Reading.left reading) :
    ((readings.set thread after).map Reading.left).sum < (readings.map Reading.left).sum := by
  induction readings generalizing thread with
  | nil => cases found
  | cons head rest ih =>
      cases thread with
      | zero =>
          cases found
          simp only [List.set_cons_zero, List.map_cons, List.sum_cons]
          omega
      | succ thread =>
          have later := ih found
          simp only [List.set_cons_succ, List.map_cons, List.sum_cons]
          omega

/-- The sub-reads of a tile require its length. -/
theorem sum_required (reader : RangeReader) (length : Nat) :
    ((reader.subReads length).map fun job => job.required).sum = length := by
  have whole := congrArg List.length (reader.subReads_cover length)
  rw [List.length_flatMap, List.length_range] at whole
  simpa using whole

section Work

variable (call : CoalescedCall DType) (batches : List (Batch DType))

/-- A byte of a batch pays for its reads and for the copy of its tile. -/
def workOf (batch : Batch DType) : Nat := 4 * batch.bytes.toNat + 8

def workFrom (index : Nat) : Nat := ((batches.drop index).map workOf).sum

def sizeAt (index : Nat) : Nat := ((batches[index]?.map fun batch => batch.bytes.toNat)).getD 0

def tileOf : Nat := (call.reader.toOption.map RangeReader.tileBytes).getD 0

/-- How far `produce` is from its end. -/
def pointRank : SourcePoint → Nat
  | .created => workFrom batches 0 + 5
  | .checking index => workFrom batches index + 4
  | .reserving index => workFrom batches (index + 1) + 4 * sizeAt batches index + 11
  | .opening index => workFrom batches (index + 1) + 4 * sizeAt batches index + 10
  | .fencing index position _ => workFrom batches (index + 1) + 4 * (sizeAt batches index - position) + 9
  | .reading _ index position _ readings =>
      workFrom batches (index + 1) + 4 * (sizeAt batches index - (position + tileOf call)) +
        (readings.map Reading.left).sum + 11
  | .yielding index _ => workFrom batches (index + 1) + 8
  | .suspended index => workFrom batches (index + 1) + 5
  | .closing _ => 2
  | .finished _ => 1
  | .ended _ => 0

/-- The work that `produce`, the device and the ends of the references can still do. -/
def Source.rank (state : Source) : Nat :=
  pointRank call batches state.point + state.uploads.waiting.length + (batches.length - state.expired.length)

variable {call batches}

theorem workFrom_found {index : Nat} {batch : Batch DType} (found : batches[index]? = some batch) :
    workFrom batches index = 4 * sizeAt batches index + 8 + workFrom batches (index + 1) := by
  obtain ⟨inside, same⟩ := List.getElem?_eq_some_iff.mp found
  rw [workFrom, List.drop_eq_getElem_cons inside, same, List.map_cons, List.sum_cons]
  simp [workFrom, workOf, sizeAt, found]

end Work

namespace Source

variable {call : CoalescedCall DType} {disk : Disk} {batches : List (Batch DType)} {state next : Source}

/-- `produce` can still be stopped at more than the cost of its `finally` block. -/
theorem rank_open {point : SourcePoint} (running : point.Open) : 2 < pointRank call batches point := by
  cases point with
  | created => exact running.elim
  | suspended index => exact running.elim
  | closing ending => exact running.elim
  | finished ending => exact running.elim
  | ended ending => exact running.elim
  | _ => simp only [pointRank]; omega

/-- Every step of `produce`, of its reader and of the device leaves less work. -/
theorem rank_transition (spent : state.Spent call batches) (sound : state.Sound call disk batches)
    (fits : ∀ reader, call.reader = .ok reader → reader.Fit) (taken : Transition call disk batches state next) :
    next.rank call batches < state.rank call batches := by
  have moved : ∀ {point : SourcePoint}, pointRank call batches point < pointRank call batches state.point →
      pointRank call batches point + state.uploads.waiting.length + (batches.length - state.expired.length) <
        state.rank call batches := by
    intro point less
    rw [rank]
    omega
  have tile : ∀ reader, call.reader = .ok reader → tileOf call = reader.tileBytes := by
    intro reader made
    simp [tileOf, made, Except.toOption]
  cases taken with
  | made point => exact moved (by rw [point]; simp [pointRank])
  | refused point => exact moved (by rw [point]; simp only [pointRank]; omega)
  | resumed point => exact moved (by rw [point]; simp [pointRank])
  | completed point => exact moved (by rw [point]; simp only [pointRank]; omega)
  | checked point found =>
      refine moved ?_
      rw [point]
      simp only [pointRank, workFrom_found found]
      omega
  | stopped running => exact moved (rank_open running)
  | cancelled point => exact moved (by rw [point]; simp only [pointRank]; omega)
  | reserved point => exact moved (by rw [point]; simp only [pointRank]; omega)
  | unallocated point => exact moved (by rw [point]; simp only [pointRank]; omega)
  | entered point => exact moved (by rw [point]; simp only [pointRank]; omega)
  | @fenced index position finalEvent batch reader point made found more =>
      refine moved ?_
      have size : sizeAt batches index = batch.bytes.toNat := by simp [sizeAt, found]
      have positive := (fits reader made).positive
      have starts : (((reader.subReads (tileAt reader batch position).length).map Reading.start).map
          Reading.left).sum = min reader.tileBytes (batch.bytes.toNat - position) := by
        rw [List.map_map]
        calc ((reader.subReads (tileAt reader batch position).length).map (Reading.left ∘ Reading.start)).sum
            = ((reader.subReads (tileAt reader batch position).length).map fun job => job.required).sum :=
              congrArg List.sum (List.map_congr_left fun job _ => Reading.left_start job)
          _ = min reader.tileBytes (batch.bytes.toNat - position) := sum_required _ _
      rw [point]
      simp only [pointRank, starts, tile reader made, size]
      omega
  | filled point => exact moved (by rw [point]; simp only [pointRank]; omega)
  | @received slot index position finalEvent readings batch reader path action filling point _ _ _ taken =>
      refine moved ?_
      obtain ⟨reading, found, runs, _, rfl⟩ := Filling.step_some taken
      have less := sum_left_set found (Reading.left_after runs call.direct
        (RangeReader.sourceOffset batch (tileAt reader batch position)) action.2)
      rw [point]
      simp only [pointRank]
      exact Nat.add_lt_add_right (Nat.add_lt_add_left less _) _
  | @submitted slot index position finalEvent readings batch reader upload point made =>
      show pointRank call batches (.fencing index (position + reader.tileBytes) _) +
        (state.uploads.waiting ++ [(slot, upload)]).length + _ < _
      rw [rank, point, List.length_append, List.length_singleton]
      simp only [pointRank, tile reader made]
      omega
  | delivered point made =>
      refine moved ?_
      rw [point]
      simp only [pointRank, tile _ made]
      omega
  | @copied slot upload uploads advanced =>
      have waits := (CopyStream.advance_some advanced).1
      show pointRank call batches state.point + uploads.waiting.length + (batches.length - state.expired.length) < _
      rw [rank, waits, List.length_cons]
      omega
  | synchronized point => exact moved (by rw [point]; simp [pointRank])
  | broken point => exact moved (by rw [point]; simp [pointRank])
  | @expired output below alive =>
      have later := spent.expires below alive
      have room : (state.expired ++ [output]).length ≤ state.allocated.length := by
        have inside : state.expired ++ [output] ⊆ List.range state.allocated.length :=
          fun other member => List.mem_range.mpr (later.below other member)
        have count := (later.once.subperm inside).length_le
        rwa [List.length_range] at count
      have most := spent.length_le sound
      show pointRank call batches state.point + state.uploads.waiting.length +
        (batches.length - (state.expired ++ [output]).length) < _
      rw [rank]
      rw [List.length_append, List.length_singleton] at room ⊢
      omega

/-- The answers of `produce` leave no more work. -/
theorem rank_answer {answer : Next Item CoalescedError} (answered : state.answer = some (answer, next)) :
    next.rank call batches ≤ state.rank call batches := by
  unfold Source.answer at answered
  split at answered
  case h_1 point =>
    cases answered
    simp only [rank, point, pointRank]
    omega
  case h_2 point =>
    cases answered
    simp only [rank, point, pointRank]
    omega
  case h_3 point =>
    cases answered
    simp only [rank, point, pointRank]
    omega
  case h_4 => cases answered

theorem rank_closed {closeError : Option CoalescedError} (closed : state.closed = some (closeError, next)) :
    next.rank call batches ≤ state.rank call batches := by
  unfold Source.closed at closed
  split at closed
  case h_1 point =>
    cases closed
    simp only [rank, point, pointRank]
    omega
  case h_2 point =>
    cases closed
    simp only [rank, point, pointRank]
    omega
  case h_3 =>
    cases closed
    exact le_refl _
  case h_4 => cases closed

end Source

namespace CoalescedWeights

/-- What the body can do for the batches from one on, and for the empty tensors and the checks behind them. -/
def bodyFrom (call : CoalescedCall DType) (batches : List (Batch DType)) (index : Nat) : Nat :=
  ((batches.drop index).map fun batch => 3 * batch.tensors.length + 4).sum +
    3 * call.metadata.tensors.entries.length + 6

def bodyRank (call : CoalescedCall DType) (batches : List (Batch DType)) (received : Nat)
    (consumer : ConsumerPoint Item CoalescedError) : Point DType → Nat
  | .iterating => bodyFrom call batches (received - (arriving consumer).length)
  | .tensors _ rows => bodyFrom call batches received + 3 * rows.length + 2
  | .yielded _ rows => bodyFrom call batches received + 3 * rows.length + 4
  | .empties rows => 3 * rows.length + 5
  | .yieldedEmpty rows => 3 * rows.length + 7
  | .checking => 4
  | .closing _ => 3
  | .ended _ => 0

/-- The work that is left to a call. -/
def rank (call : CoalescedCall DType) (batches : List (Batch DType)) (state : CoalescedWeights DType) : Nat :=
  bodyRank call batches state.prefetch.received.length state.prefetch.consumer state.point +
    Prefetch.rank batches.length state.prefetch + state.source.rank call batches

variable {call : CoalescedCall DType} {disk : Disk} {batches : List (Batch DType)}
  {state next : CoalescedWeights DType}

/-- `produce` has no more items than there are batches. -/
theorem Kept.ends (kept : Kept call disk batches state) :
    Prefetch.endOf ((oracle state.answers state.closeError).next batches.length) ≠ none := by
  intro none
  cases found : state.answers[batches.length]? with
  | none => simp [oracle, found, Prefetch.endOf] at none
  | some answer =>
      cases answer with
      | item item =>
          obtain ⟨_, event⟩ := kept.told.items _ _ found
          obtain ⟨batch, done⟩ := kept.sound.done _ _ event
          exact absurd (List.getElem?_eq_some_iff.mp done.found).1 (Nat.lt_irrefl _)
      | stop => simp [oracle, found, Prefetch.endOf] at none
      | raise error => simp [oracle, found, Prefetch.endOf] at none

theorem rank_pumped (kept : Kept call disk batches state) (after : Kept call disk batches next)
    (pumped : state.Pumped next) :
    Prefetch.rank batches.length next.prefetch < Prefetch.rank batches.length state.prefetch := by
  obtain ⟨alike, taken⟩ := pumped.answered kept.driven kept.told
  obtain ⟨actions, reached⟩ := kept.driven
  have before := Run.run_invariant Prefetch.step_kept Prefetch.started_kept (Prefetch.run_alike reached alike)
  exact Prefetch.rank_pump before after.ends taken

/-- The body of the generator works for the batches that did not arrive yet. -/
theorem bodyRank_consumed {prefetch after : Prefetch Item CoalescedError}
    (taken : Prefetch.consumerStep prefetch = some after) :
    after.received.length - (arriving after.consumer).length =
      prefetch.received.length - (arriving prefetch.consumer).length := by
  unfold Prefetch.consumerStep at taken
  split at taken
  case h_1 here =>
    obtain ⟨message, ready, rfl⟩ := Option.map_eq_some_iff.mp taken
    simp [here, arriving]
  case h_2 message here =>
    cases taken
    cases message <;> simp [here, arriving, Prefetch.handle, Prefetch.itemOf]
  case h_3 => cases taken
  case h_4 outcome here =>
    cases taken
    simp [here, arriving]
  case h_5 outcome here =>
    split at taken <;> cases taken
    simp [here, arriving]
  case h_6 => cases taken

/-- The batch that the body enters is the last that arrived. -/
theorem Orderly.turnOf (orderly : state.Orderly) (kept : Kept call disk batches state) {item : Item}
    (here : state.prefetch.consumer = .holding item) : state.prefetch.received.length = item.index + 1 := by
  have last := orderly.latest item (.inr here)
  rw [List.getLast?_eq_getElem?] at last
  have place := (kept.arrived last).1
  have filled := (List.getElem?_eq_some_iff.mp last).1
  omega

theorem bodyFrom_found {index : Nat} {batch : Batch DType} (found : batches[index]? = some batch) :
    bodyFrom call batches index = 3 * batch.tensors.length + 4 + bodyFrom call batches (index + 1) := by
  obtain ⟨inside, same⟩ := List.getElem?_eq_some_iff.mp found
  rw [bodyFrom, List.drop_eq_getElem_cons inside, same, List.map_cons, List.sum_cons]
  simp only [bodyFrom]
  omega

/-- The body can still be stopped at more than the cost of its `finally` block. -/
theorem bodyRank_running {received : Nat} {consumer : ConsumerPoint Item CoalescedError} {point : Point DType}
    (running : point.Running) : 3 < bodyRank call batches received consumer point := by
  cases point with
  | closing finish => exact running.elim
  | ended finish => exact running.elim
  | checking => simp [bodyRank]
  | _ => simp only [bodyRank, bodyFrom]; omega

/-- Where the generator of `prefetch_weights` stands does not matter to a body that has left its loop. -/
theorem bodyRank_rests {received other : Nat} {consumer after : ConsumerPoint Item CoalescedError} {point : Point DType}
    (left : ¬point.Running) :
    bodyRank call batches received consumer point = bodyRank call batches other after point := by
  cases point with
  | closing finish => rfl
  | ended finish => rfl
  | _ => exact absurd trivial left

/-- Every step of the body leaves less work. -/
theorem rank_advanced (kept : Kept call disk batches state) (orderly : state.Orderly)
    (advanced : Advanced call disk batches state next) : next.rank call batches < state.rank call batches := by
  have ends := kept.ends
  have threads := fun (action : PrefetchAction) (prefetch : Prefetch Item CoalescedError)
      (busy : ¬Prefetch.Idle state.prefetch action) =>
    @Prefetch.rank_step _ _ _ _ prefetch kept.driven.kept batches.length ends action busy
  have moved : ∀ {point : Point DType} {complete : Bool} {yields : List (Yielded DType)},
      bodyRank call batches state.prefetch.received.length state.prefetch.consumer point <
        bodyRank call batches state.prefetch.received.length state.prefetch.consumer state.point →
          rank call batches { state with point := point, complete := complete, yields := yields } <
            state.rank call batches := by
    intro point complete yields less
    simp only [rank]
    omega
  cases advanced with
  | @consumed prefetch point taken =>
      have less := threads .consumer prefetch (fun idle => PrefetchAction.noConfusion idle.1) taken
      have same : bodyRank call batches prefetch.received.length prefetch.consumer state.point =
          bodyRank call batches state.prefetch.received.length state.prefetch.consumer state.point := by
        rcases point with point | point
        · rw [point]
          simp only [bodyRank, bodyRank_consumed taken]
        · exact bodyRank_rests point
      simp only [rank, same]
      omega
  | @entered item batch point here found =>
      refine moved ?_
      have count := orderly.turnOf kept here
      rw [point, here]
      simp only [bodyRank, arriving, List.length_singleton, count, Nat.add_sub_cancel, bodyFrom_found found]
      omega
  | exhausted point here =>
      refine moved ?_
      rw [point]
      simp only [bodyRank, bodyFrom]
      omega
  | stopped running =>
      refine moved ?_
      exact bodyRank_running running
  | @turned item prefetch point taken =>
      have less := threads .resume prefetch (fun idle => PrefetchAction.noConfusion idle.1) taken
      have after := userStep_some taken
      have same : bodyRank call batches prefetch.received.length prefetch.consumer .iterating ≤
          bodyRank call batches state.prefetch.received.length state.prefetch.consumer state.point := by
        rw [point, after]
        simp [bodyRank, arriving]
      simp only [rank]
      omega
  | skipped point => exact moved (by rw [point]; simp only [bodyRank, List.length_cons]; omega)
  | yielded point => exact moved (by rw [point]; simp only [bodyRank, List.length_cons]; omega)
  | passed point => exact moved (by rw [point]; simp only [bodyRank, List.length_cons]; omega)
  | yieldedEmpty point => exact moved (by rw [point]; simp only [bodyRank, List.length_cons]; omega)
  | swept point => exact moved (by rw [point]; simp [bodyRank])
  | returned point => exact moved (by rw [point]; simp [bodyRank])
  | resumed point => exact moved (by rw [point]; simp only [bodyRank]; omega)
  | resumedEmpty point => exact moved (by rw [point]; simp only [bodyRank]; omega)
  | @cancelled finish item prefetch point here taken =>
      have less := threads .close prefetch (fun idle => PrefetchAction.noConfusion idle.1) taken
      have same := @bodyRank_rests _ call batches state.prefetch.received.length prefetch.received.length
        state.prefetch.consumer prefetch.consumer state.point (by rw [point]; exact id)
      simp only [rank, ← same]
      omega
  | ended point => exact moved (by rw [point]; simp [bodyRank])
  | stuck point => exact moved (by rw [point]; simp [bodyRank])

theorem rank_pump (kept : Kept call disk batches state) (after : Kept call disk batches next)
    (pumped : state.Pumped next) : next.rank call batches < state.rank call batches := by
  have less := rank_pumped kept after pumped
  cases pumped with
  | asks _ answered taken =>
      have pumps := Prefetch.pumpStep_pumps taken
      have work := @Source.rank_answer _ call batches _ _ _ answered
      simp only [rank, pumps.consumer, pumps.received] at less ⊢
      omega
  | closes _ closed taken =>
      have pumps := Prefetch.pumpStep_pumps taken
      have work := @Source.rank_closed _ call batches _ _ _ closed
      simp only [rank, pumps.consumer, pumps.received] at less ⊢
      omega
  | alone _ _ taken =>
      have pumps := Prefetch.pumpStep_pumps taken
      simp only [rank, pumps.consumer, pumps.received] at less ⊢
      omega

theorem rank_pumpTimeout {prefetch : Prefetch Item CoalescedError} (stop : state.prefetch.stop = true)
    (taken : Prefetch.pumpTimeout state.prefetch = some prefetch) :
    rank call batches { state with prefetch := prefetch } < state.rank call batches := by
  have less := Prefetch.rank_pumpTimeout batches.length stop taken
  have same : prefetch.received = state.prefetch.received ∧ prefetch.consumer = state.prefetch.consumer := by
    unfold Prefetch.pumpTimeout at taken
    split at taken
    case h_1 =>
      split at taken <;> cases taken
      exact ⟨rfl, rfl⟩
    case h_2 =>
      cases taken
      exact ⟨rfl, rfl⟩
    case h_3 => cases taken
  simp only [rank, same.1, same.2]
  omega

theorem rank_joinTimeout (kept : Kept call disk batches state) {prefetch : Prefetch Item CoalescedError}
    (taken : Prefetch.joinTimeout state.prefetch = some prefetch) :
    rank call batches { state with prefetch := prefetch } < state.rank call batches := by
  have stepped : Prefetch.step (oracle state.answers state.closeError) state.prefetch .joinTimeout = some prefetch :=
    taken
  have less := Prefetch.rank_step kept.driven.kept kept.ends (fun idle => PrefetchAction.noConfusion idle.1) stepped
  have same : bodyRank call batches prefetch.received.length prefetch.consumer state.point =
      bodyRank call batches state.prefetch.received.length state.prefetch.consumer state.point := by
    unfold Prefetch.joinTimeout at taken
    split at taken
    case h_1 outcome here _ =>
      cases taken
      cases state.point <;> simp [bodyRank, arriving, here]
    case h_2 outcome _ here _ =>
      cases taken
      cases state.point <;> simp [bodyRank, arriving, here]
    case h_3 => cases taken
  simp only [rank, same]
  omega

/-- Every step of the machine but an idle wait leaves less work. -/
theorem rank_step (kept : Kept call disk batches state) (orderly : state.Orderly)
    (spent : state.source.Spent call batches) (after : Kept call disk batches next)
    (fits : ∀ reader, call.reader = .ok reader → reader.Fit) {action : Action} (busy : ¬state.Idle action)
    (taken : step call disk batches state action = some next) : next.rank call batches < state.rank call batches := by
  cases action with
  | source action =>
      simp only [step, Option.ite_none_right_eq_some] at taken
      obtain ⟨source, stepped, rfl⟩ := Option.map_eq_some_iff.mp taken.2
      have less := Source.rank_transition spent kept.sound fits (Source.step_transition stepped)
      simp only [rank]
      omega
  | pump => exact rank_pump kept after (pump_pumped taken)
  | pumpTimeout =>
      obtain ⟨prefetch, stepped, rfl⟩ := Option.map_eq_some_iff.mp taken
      refine rank_pumpTimeout ?_ stepped
      by_contra running
      exact busy ⟨rfl, Bool.eq_false_iff.mpr running⟩
  | joinTimeout =>
      obtain ⟨prefetch, stepped, rfl⟩ := Option.map_eq_some_iff.mp taken
      exact rank_joinTimeout kept stepped
  | main => exact rank_advanced kept orderly (main_advanced taken)
  | fails => exact @rank_advanced _ call disk batches state next kept orderly (fails_advanced taken)
  | resumed => exact @rank_advanced _ call disk batches state next kept orderly (resumed_advanced taken)
  | closed =>
      exact @rank_advanced _ call disk batches state next kept orderly (leave_advanced Finish.noConfusion taken)
  | thrown =>
      exact @rank_advanced _ call disk batches state next kept orderly (leave_advanced Finish.noConfusion taken)

/-- What holds of the threads and the budget in every state of a planned call. -/
structure Working (call : CoalescedCall DType) (disk : Disk) (batches : List (Batch DType))
    (state : CoalescedWeights DType) : Prop where
  kept : Kept call disk batches state
  orderly : state.Orderly
  spent : state.source.Spent call batches
  equipped : Source.Equipped call state.source.point

theorem start_working (slots : Fin 2 → Buffer UInt8) (outputs : Nat → Buffer UInt8) :
    Working call disk batches (start call slots outputs) where
  kept := start_kept slots outputs
  orderly := start_orderly slots outputs
  spent := Source.start_spent slots outputs
  equipped := by rintro (running | ⟨index, waits⟩) <;> contradiction

theorem Working.step (working : Working call disk batches state) (positive : 0 < call.batchBytes)
    (multiple : (ALIGN : Int) ∣ call.batchBytes) (planned : call.plan = .ok batches) {action : Action}
    (taken : step call disk batches state action = some next) : Working call disk batches next := by
  have moved := step_transition taken
  refine ⟨working.kept.transition (plan_low positive multiple planned) (reader_fit multiple) moved,
    working.orderly.transition working.kept moved,
    spent_transition working.kept working.spent (plan_bytes positive multiple planned) moved, ?_⟩
  cases moved with
  | source _ stepped => exact working.equipped.transition (Source.step_transition stepped)
  | pump pumped =>
      cases pumped with
      | asks _ answered => exact working.equipped.answer answered
      | closes _ closed => exact Source.Equipped.closed working.orderly.tidy closed
      | alone => exact working.equipped
  | pumpTimeout => exact working.equipped
  | joinTimeout => exact working.equipped
  | body advanced => cases advanced <;> exact working.equipped

/-- The most steps that a call takes. -/
def limitOf (call : CoalescedCall DType) (batches : List (Batch DType)) : Nat :=
  (batches.map fun batch => 4 * batch.bytes.toNat + 3 * batch.tensors.length + 33).sum +
    3 * call.metadata.tensors.entries.length + 23

theorem rank_start (slots : Fin 2 → Buffer UInt8) (outputs : Nat → Buffer UInt8) :
    (start call slots outputs).rank call batches = limitOf call batches := by
  have sums : ∀ list : List (Batch DType),
      (list.map fun batch => 4 * batch.bytes.toNat + 3 * batch.tensors.length + 33).sum =
        (list.map fun batch => 3 * batch.tensors.length + 4).sum + (list.map workOf).sum + 21 * list.length := by
    intro list
    induction list with
    | nil => rfl
    | cons head rest ih =>
        simp only [List.map_cons, List.sum_cons, List.length_cons, ih, workOf]
        omega
  simp only [rank, start, Prefetch.started, bodyRank, arriving, bodyFrom, Source.start, Source.rank, pointRank, workFrom,
    Prefetch.rank, Prefetch.pumpRank, Prefetch.queueRank, Prefetch.consumerRank, CopyStream.idle, limitOf, sums,
    List.length_nil, List.drop_zero]
  simp
  omega

/-- A call of `coalesced_weights` does not block and does not run on: in every order of the steps of its threads, of the
device and of the caller, it can go on by itself until it is over or waits at a `yield`, without a failure or an expired
wait, and apart from waits that expire in vain it takes a bounded number of steps to its end. -/
theorem coalesced_live (call : CoalescedCall DType) (disk : Disk) (slots : Fin 2 → Buffer UInt8)
    (outputs : Nat → Buffer UInt8) {batches : List (Batch DType)} (positive : 0 < call.batchBytes)
    (multiple : (ALIGN : Int) ∣ call.batchBytes) (planned : call.plan = .ok batches) {actions : List Action}
    {state : CoalescedWeights DType}
    (reached : Run.run (step call disk batches) (start call slots outputs) actions = some state) :
    ((∀ finish, state.point ≠ .ended finish) → (∀ item rest, state.point ≠ .yielded item rest) →
        (∀ rest, state.point ≠ .yieldedEmpty rest) → Able call disk batches state) ∧
      (Run.Meets (step call disk batches) (fun state action => ¬state.Idle action) (start call slots outputs) actions →
        actions.length ≤ limitOf call batches) := by
  have fits := @reader_fit _ call multiple
  have keeps : ∀ (state : CoalescedWeights DType) action next, Working call disk batches state →
      step call disk batches state action = some next → Working call disk batches next :=
    fun _ _ _ working taken => working.step positive multiple planned taken
  have working := Run.run_invariant keeps (start_working slots outputs) reached
  refine ⟨?_, ?_⟩
  · exact working.kept.able working.orderly working.equipped (plan_low positive multiple planned) fits
  · intro busy
    have paid := Run.run_cost keeps (fun state action next working busy taken =>
      (Nat.add_comm 1 _).trans_le (rank_step working.kept working.orderly working.spent
        (keeps state action next working taken).kept fits busy taken)) (start_working slots outputs) busy reached
    have length : (actions.map fun _ => 1).sum = actions.length := by simp
    rw [rank_start] at paid
    omega

theorem coalesced_live_small :
    ∃ state, Run.run (step smallCall smallDisk [smallBatch]) (start smallCall (fun _ _ => 0) fun _ _ => 0)
        (smallRun.take 7) = some state ∧
      Able smallCall smallDisk [smallBatch] state := by
  have ends : (Run.run (step smallCall smallDisk [smallBatch]) (start smallCall (fun _ _ => 0) fun _ _ => 0)
      (smallRun.take 7)).map (fun state => state.point) = some .iterating := by rfl
  obtain ⟨state, reached, point⟩ := Option.map_eq_some_iff.mp ends
  obtain ⟨able, _⟩ := coalesced_live smallCall smallDisk _ _ (by decide) (by decide)
    (show smallCall.plan = .ok [smallBatch] from rfl) reached
  exact ⟨state, reached, able (by simp [point]) (by simp [point]) (by simp [point])⟩

end CoalescedWeights

end DgxSpark.Nvme.Coalesced
