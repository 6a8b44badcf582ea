import DgxSpark.Nvme.CoalescedTurns

/-
This file shows that `coalesced_weights` does not block: until it is over or waits at a `yield`, one of its threads or
the device can go on, and what they do apart from expired waits is bounded.
-/

namespace DgxSpark.Nvme.Coalesced

open Library Streaming

variable {DType : Type}

/-- What the call does by itself when nothing fails. -/
def Action.Own : Action → Prop
  | .source (.reserve allocated) => allocated = true
  | .source (.enter opened) => opened = true
  | .source (.preadv _ .raised) => False
  | .source (.synchronize done) => done = true
  | .source (.expire _) => False
  | .source _ => True
  | .pump => True
  | .pumpTimeout => True
  | .main => True
  | _ => False

/-- While bytes are missing, `preadv` gives at least one, or nothing at the end of the file. -/
theorem Reading.answer_legal {reading : Reading} (runs : reading.Runs) (long : reading.job.required ≤ reading.job.length)
    (file : List UInt8) (direct : Bool) {source : Int} (low : 0 ≤ source) :
    ∃ n, (reading.call direct source).Legal file (.count n true) := by
  have short : reading.done < reading.job.length := runs.1.trans_le long
  by_cases inside : (reading.call direct source).offset.toNat + 1 ≤ file.length
  · refine ⟨1, ?_, fun _ => inside, fun none => absurd none (by decide)⟩
    show 1 ≤ reading.job.length - reading.done
    omega
  · refine ⟨0, Nat.zero_le _, fun more => absurd rfl more, fun _ => .inl ?_⟩
    have begins : 0 ≤ (reading.call direct source).offset := by
      show 0 ≤ source + reading.job.offset + reading.done
      omega
    omega

namespace Source

/-- A generator that is in its loop has its reader. -/
def Equipped (call : CoalescedCall DType) (point : SourcePoint) : Prop :=
  (point.Open ∨ ∃ index, point = .suspended index) → ∃ reader, call.reader = .ok reader

variable {call : CoalescedCall DType} {disk : Disk} {batches : List (Batch DType)} {state next : Source}

theorem Equipped.transition (equipped : Equipped call state.point)
    (taken : Transition call disk batches state next) : Equipped call next.point := by
  have stays : state.point.Open → Equipped call next.point := fun running _ => equipped (.inl running)
  cases taken with
  | made point made => exact fun _ => ⟨_, made⟩
  | refused point => rintro (running | ⟨index, waits⟩) <;> contradiction
  | resumed point => exact fun _ => equipped (.inr ⟨_, point⟩)
  | completed point => exact stays (by rw [point]; trivial)
  | checked point => exact stays (by rw [point]; trivial)
  | stopped running => exact stays running
  | cancelled point => exact fun _ => equipped (.inr ⟨_, point⟩)
  | reserved point => exact stays (by rw [point]; trivial)
  | unallocated point => exact stays (by rw [point]; trivial)
  | entered point => exact stays (by rw [point]; trivial)
  | fenced point => exact stays (by rw [point]; trivial)
  | filled point => exact stays (by rw [point]; trivial)
  | received point => exact stays (by rw [point]; trivial)
  | submitted point => exact stays (by rw [point]; trivial)
  | delivered point => exact stays (by rw [point]; trivial)
  | copied => exact equipped
  | synchronized => rintro (running | ⟨index, waits⟩) <;> contradiction
  | broken => rintro (running | ⟨index, waits⟩) <;> contradiction
  | expired => exact equipped

theorem Equipped.answer (equipped : Equipped call state.point) {answer : Next Item CoalescedError}
    (answered : state.answer = some (answer, next)) : Equipped call next.point := by
  unfold Source.answer at answered
  split at answered
  case h_1 point =>
    cases answered
    exact fun _ => equipped (.inl (by rw [point]; trivial))
  case h_2 =>
    cases answered
    rintro (running | ⟨index, waits⟩) <;> contradiction
  case h_3 =>
    cases answered
    rintro (running | ⟨index, waits⟩) <;> contradiction
  case h_4 => cases answered

theorem Equipped.closed (tidy : state.Tidy) {closeError : Option CoalescedError}
    (closed : state.closed = some (closeError, next)) : Equipped call next.point := by
  obtain ⟨_, ending, gone⟩ := tidy.closed closed
  rw [gone]
  rintro (running | ⟨index, waits⟩) <;> contradiction

/-- While `produce` is in its loop or behind it, it goes on, or the device does. -/
theorem step_able (sound : state.Sound call disk batches) (tidy : state.Tidy) (equipped : Equipped call state.point)
    (low : ∀ batch ∈ batches, 0 ≤ batch.start) (fits : ∀ reader, call.reader = .ok reader → reader.Fit)
    (works : state.point.Open ∨ ∃ ending, state.point = .closing ending)
    (unready : ∀ index finalEvent, state.point ≠ .yielding index finalEvent) :
    ∃ action, (Action.source action).Own ∧ action ≠ .resume ∧ action ≠ .cancel ∧
      (state.step call disk batches action).isSome = true := by
  have here := sound.point
  have copies : state.uploads.waiting ≠ [] → ∃ action, (Action.source action).Own ∧ action ≠ .resume ∧
      action ≠ .cancel ∧ (state.step call disk batches action).isSome = true := by
    intro waits
    refine ⟨.copy, trivial, SourceAction.noConfusion, SourceAction.noConfusion, ?_⟩
    cases queue : state.uploads.waiting with
    | nil => exact absurd queue waits
    | cons head rest => simp [step, copy, CopyStream.advance, queue]
  have reader : state.point.Open → ∃ reader, call.reader = .ok reader := fun running => equipped (.inl running)
  cases point : state.point with
  | created => rw [point] at works; rcases works with running | ⟨ending, closes⟩ <;> contradiction
  | suspended index => rw [point] at works; rcases works with running | ⟨ending, closes⟩ <;> contradiction
  | finished ending => rw [point] at works; rcases works with running | ⟨ending, closes⟩ <;> contradiction
  | ended ending => rw [point] at works; rcases works with running | ⟨ending, closes⟩ <;> contradiction
  | yielding index finalEvent => exact absurd point (unready index finalEvent)
  | checking index =>
      refine ⟨.check, trivial, SourceAction.noConfusion, SourceAction.noConfusion, ?_⟩
      simp only [step, check, point]
      repeat' split
      all_goals rfl
  | reserving index =>
      rw [point] at here
      refine ⟨.reserve true, rfl, SourceAction.noConfusion, SourceAction.noConfusion, ?_⟩
      simp only [step, reserve, point, List.getElem?_eq_getElem here.2.1, Option.bind_eq_bind, Option.bind_some]
      split <;> rfl
  | opening index =>
      rw [point] at here
      refine ⟨.enter true, rfl, SourceAction.noConfusion, SourceAction.noConfusion, ?_⟩
      simp only [step, enter, point, List.getElem?_eq_getElem here.2.1, Option.bind_eq_bind, Option.bind_some]
      repeat' split
      all_goals rfl
  | fencing index position finalEvent =>
      obtain ⟨reader, made⟩ := reader (by rw [point]; trivial)
      rw [point] at here
      obtain ⟨batch, batching⟩ := here
      by_cases reached : state.uploads.Reached (state.uploads.event (slotOf state.nextSlot))
      · refine ⟨.fence, trivial, SourceAction.noConfusion, SourceAction.noConfusion, ?_⟩
        simp only [step, fence, point, made, Except.toOption, batching.found, Option.bind_eq_bind, Option.bind_some]
        split
        · simp [reached]
        · rfl
      · exact copies (tidy.bounded.waits reached)
  | reading slot index position finalEvent readings =>
      rw [point] at here
      obtain ⟨batch, reader, batching, tiling⟩ := here
      by_cases ended : ∀ reading ∈ readings, ¬reading.Runs
      · refine ⟨.collect, trivial, SourceAction.noConfusion, SourceAction.noConfusion, ?_⟩
        simp only [step, collect, point, tiling.made, Except.toOption, batching.found, Option.bind_eq_bind,
          Option.bind_some, guard, if_pos ended, Option.pure_def]
        split
        · rfl
        · split <;> rfl
      · push Not at ended
        obtain ⟨reading, inside, runs⟩ := ended
        obtain ⟨thread, found⟩ := List.mem_iff_getElem?.mp inside
        have job : reading.job ∈ reader.subReads (tileAt reader batch position).length := by
          rw [← tiling.filled.jobs]
          exact List.mem_map_of_mem inside
        have placed := (fits reader tiling.made).subReads_placed (min_le_left _ _) job
        have long : reading.job.required ≤ reading.job.length := placed.rounded ▸ le_alignNat _
        have source : 0 ≤ RangeReader.sourceOffset batch (tileAt reader batch position) := by
          have start := low batch (List.mem_of_getElem? batching.found)
          rw [RangeReader.sourceOffset]
          omega
        obtain ⟨n, legal⟩ := Reading.answer_legal runs long (bytesAt disk batch.file) call.direct source
        refine ⟨.preadv thread (.count n true), trivial, SourceAction.noConfusion, SourceAction.noConfusion, ?_⟩
        simp [step, preadv, point, tiling.made, Except.toOption, batching.found, batching.opened, Filling.step, found,
          runs, legal]
  | closing ending =>
      by_cases busy : call.cuda = true ∧ state.uploads.waiting ≠ []
      · exact copies busy.2
      · refine ⟨.synchronize true, rfl, SourceAction.noConfusion, SourceAction.noConfusion, ?_⟩
        simp only [step, synchronize, point, if_true, if_neg busy]
        rfl

end Source

namespace CoalescedWeights

/-- A timed wait of the pump that expires without the stop flag. -/
def Idle (state : CoalescedWeights DType) (action : Action) : Prop :=
  action = .pumpTimeout ∧ state.prefetch.stop = false

/-- A step that the call takes by itself. -/
def Able (call : CoalescedCall DType) (disk : Disk) (batches : List (Batch DType))
    (state : CoalescedWeights DType) : Prop :=
  ∃ action, action.Own ∧ ¬state.Idle action ∧ (state.step call disk batches action).isSome = true

variable {call : CoalescedCall DType} {disk : Disk} {batches : List (Batch DType)}
  {state next : CoalescedWeights DType}

theorem able_pump (enabled : state.pump.isSome = true) : Able call disk batches state :=
  ⟨.pump, trivial, fun idle => Action.noConfusion idle.1, enabled⟩

theorem able_main (enabled : (state.main call disk batches).isSome = true) : Able call disk batches state :=
  ⟨.main, trivial, fun idle => Action.noConfusion idle.1, enabled⟩

theorem able_source (action : SourceAction) (own : (Action.source action).Own) (allowed : state.allows action = true)
    (enabled : (state.source.step call disk batches action).isSome = true) : Able call disk batches state := by
  refine ⟨.source action, own, fun idle => Action.noConfusion idle.1, ?_⟩
  rw [step, if_pos allowed, Option.isSome_map]
  exact enabled

/-- At `next` the pump takes what `produce` answers. -/
theorem pump_asks (point : state.prefetch.pump = .advance) {answer : Next Item CoalescedError} {source : Source}
    (answered : state.source.answer = some (answer, source)) : state.pump.isSome = true := by
  cases answer <;> simp [pump, point, answered, Prefetch.pumpStep, answering]

theorem pump_closes {terminal : Message Item CoalescedError} (point : state.prefetch.pump = .close terminal)
    {closeError : Option CoalescedError} {source : Source} (closed : state.source.closed = some (closeError, source)) :
    state.pump.isSome = true := by
  simp [pump, point, closed, Prefetch.pumpStep]

/-- While the pump waits for `produce`, something goes on. -/
theorem produce_able (kept : Kept call disk batches state) (orderly : state.Orderly)
    (equipped : Source.Equipped call state.source.point) (low : ∀ batch ∈ batches, 0 ≤ batch.start)
    (fits : ∀ reader, call.reader = .ok reader → reader.Fit)
    (waits : state.prefetch.pump = .advance ∨ ∃ terminal, state.prefetch.pump = .close terminal) :
    Able call disk batches state := by
  have turn := orderly.turn
  have works : state.source.point.Open ∨ (∃ ending, state.source.point = .closing ending) →
      (∀ index finalEvent, state.source.point ≠ .yielding index finalEvent) → Able call disk batches state := by
    intro works unready
    obtain ⟨action, own, resume, cancel, enabled⟩ :=
      Source.step_able kept.sound orderly.tidy equipped low fits works unready
    refine able_source action own ?_ enabled
    cases action with
    | resume => exact absurd rfl resume
    | cancel => exact absurd rfl cancel
    | expire output => exact own.elim
    | _ => rfl
  -- `next` and `close` reach a generator that waits
  have called : (state.source.resume call).isSome = true → state.source.cancel.isSome = true →
      Able call disk batches state := by
    intro resumes cancels
    rcases waits with point | ⟨terminal, point⟩
    · exact able_source .resume trivial (by simp [allows, point]) resumes
    · exact able_source .cancel trivial (by simp [allows, point]) cancels
  cases point : state.source.point with
  | created =>
      refine called ?_ ?_
      · simp only [Source.resume, point]
        split <;> rfl
      · simp [Source.cancel, point]
  | suspended index => exact called (by simp [Source.resume, point]) (by simp [Source.cancel, point])
  | yielding index finalEvent =>
      have asked := turn.asked (by rw [point]; trivial)
      exact able_pump (pump_asks asked (by simp only [Source.answer, point]; rfl))
  | closing ending => exact works (.inr ⟨ending, point⟩) (by simp [point])
  | finished ending =>
      rw [point] at turn
      rcases turn with ⟨asked, early⟩ | ⟨⟨terminal, closes⟩, early⟩
      · cases ending with
        | completed => exact able_pump (pump_asks asked (by simp only [Source.answer, point]; rfl))
        | failed error => exact able_pump (pump_asks asked (by simp only [Source.answer, point]; rfl))
        | cancelled => exact absurd rfl early
      · cases ending with
        | completed => exact absurd rfl early
        | failed error => exact able_pump (pump_closes closes (by simp only [Source.closed, point]; rfl))
        | cancelled => exact able_pump (pump_closes closes (by simp only [Source.closed, point]; rfl))
  | ended ending =>
      rw [point] at turn
      rcases waits with asked | ⟨terminal, closes⟩
      · rw [asked] at turn
        cases turn
      · exact able_pump (pump_closes closes (by simp only [Source.closed, point]; rfl))
  | checking index => exact works (.inl (by rw [point]; trivial)) (by simp [point])
  | reserving index => exact works (.inl (by rw [point]; trivial)) (by simp [point])
  | opening index => exact works (.inl (by rw [point]; trivial)) (by simp [point])
  | fencing index position finalEvent => exact works (.inl (by rw [point]; trivial)) (by simp [point])
  | reading slot index position finalEvent readings => exact works (.inl (by rw [point]; trivial)) (by simp [point])

/-- The loop of the body or its `finally` drives the generator of `prefetch_weights`, so one of the two threads can go
on. -/
theorem threads_able (kept : Kept call disk batches state) (orderly : state.Orderly)
    (equipped : Source.Equipped call state.source.point) (low : ∀ batch ∈ batches, 0 ≤ batch.start)
    (fits : ∀ reader, call.reader = .ok reader → reader.Fit)
    (unfinished : ∀ outcome, state.prefetch.consumer ≠ .ended outcome)
    (consumes : (Prefetch.consumerStep state.prefetch).isSome = true → Able call disk batches state)
    (holds : ∀ item, state.prefetch.consumer = .holding item → Able call disk batches state) :
    Able call disk batches state := by
  by_cases waits : state.prefetch.pump = .advance ∨ ∃ terminal, state.prefetch.pump = .close terminal
  · exact produce_able kept orderly equipped low fits waits
  push Not at waits
  obtain ⟨asking, closing⟩ := waits
  obtain ⟨action, _, busy, enabled⟩ := kept.driven.kept.progress unfinished
  cases action with
  | pump =>
      refine able_pump ?_
      obtain ⟨prefetch, taken⟩ := Option.isSome_iff_exists.mp enabled
      have same : Prefetch.pumpStep (answering .stop none) state.prefetch = some prefetch := by
        cases point : state.prefetch.pump with
        | advance => exact absurd point asking
        | close terminal => exact absurd point (closing terminal)
        | _ => simpa only [Prefetch.step, Prefetch.pumpStep, point] using taken
      unfold pump
      split
      case h_1 here => exact absurd here asking
      case h_2 terminal here => exact absurd here (closing terminal)
      case h_3 => simp [same]
  | pumpTimeout =>
      refine ⟨.pumpTimeout, trivial, fun idle => busy ⟨rfl, idle.2⟩, ?_⟩
      simpa [step, Prefetch.step] using enabled
  | consumer => exact consumes enabled
  | joinTimeout =>
      simp only [Prefetch.step, Prefetch.joinTimeout] at enabled
      split at enabled
      case h_1 here => exact absurd here asking
      case h_2 terminal _ here => exact absurd here (closing terminal)
      case h_3 => cases enabled
  | resume =>
      simp only [Prefetch.step, Prefetch.userStep] at enabled
      split at enabled
      case h_1 item here => exact holds item here
      case h_2 => cases enabled
  | close =>
      simp only [Prefetch.step, Prefetch.userStep] at enabled
      split at enabled
      case h_1 item here => exact holds item here
      case h_2 => cases enabled

/-- The batch of an item that arrived is one of the plan. -/
theorem Kept.batch (kept : Kept call disk batches state) {item : Item} (inside : item ∈ state.prefetch.received) :
    ∃ batch, batches[item.index]? = some batch := by
  obtain ⟨batch, done⟩ := kept.sound.done _ _ (kept.event inside)
  exact ⟨batch, done.found⟩

/-- Until it is gone or waits at a `yield`, the call can go on by itself. -/
theorem Kept.able (kept : Kept call disk batches state) (orderly : state.Orderly)
    (equipped : Source.Equipped call state.source.point) (low : ∀ batch ∈ batches, 0 ≤ batch.start)
    (fits : ∀ reader, call.reader = .ok reader → reader.Fit) (running : ∀ finish, state.point ≠ .ended finish)
    (asleep : ∀ item rest, state.point ≠ .yielded item rest) (empty : ∀ rest, state.point ≠ .yieldedEmpty rest) :
    Able call disk batches state := by
  have loop := kept.loop
  cases point : state.point with
  | ended finish => exact absurd point (running finish)
  | yielded item rest => exact absurd point (asleep item rest)
  | yieldedEmpty rest => exact absurd point (empty rest)
  | checking => exact able_main (by simp [main, point])
  | empties rows =>
      cases rows with
      | nil => exact able_main (by simp [main, point])
      | cons row rest =>
          refine able_main ?_
          simp only [main, point]
          split <;> rfl
  | tensors item rows =>
      rw [point] at loop
      cases rows with
      | nil => exact able_main (by simp [main, point, Prefetch.userStep, loop.holding])
      | cons row rest =>
          obtain ⟨batch, found⟩ := kept.batch loop.inside
          refine able_main ?_
          simp only [main, point, found, Option.bind_eq_bind, Option.bind_some]
          split
          · rfl
          · split <;> rfl
  | iterating =>
      rw [point] at loop
      have entering : ∀ item, state.prefetch.consumer = .holding item → Able call disk batches state := by
        intro item here
        have inside : item ∈ state.prefetch.received := by
          have arrived := loop.2.1
          rw [here] at arrived
          exact arrived List.mem_cons_self
        obtain ⟨batch, found⟩ := kept.batch inside
        exact able_main (by simp [main, point, here, found])
      by_cases gone : ∃ outcome, state.prefetch.consumer = .ended outcome
      · obtain ⟨outcome, here⟩ := gone
        refine able_main ?_
        cases outcome with
        | exhausted => simp [main, point, here]
        | raised error => simp [main, point, here]
        | stuck => simp [main, point, here]
        | closed =>
            have shows := kept.driven.kept.shows .closed (by rw [here]; rfl) loop.1
            exact shows.elim
      · refine threads_able kept orderly equipped low fits (fun outcome here => gone ⟨outcome, here⟩) ?_ entering
        intro enabled
        refine able_main ?_
        simp only [main, point]
        cases here : state.prefetch.consumer with
        | holding item => simp [Prefetch.consumerStep, here] at enabled
        | ended outcome => exact absurd ⟨outcome, here⟩ gone
        | _ => simpa [consume] using enabled
  | closing finish =>
      have leaving : ∀ item, state.prefetch.consumer = .holding item → Able call disk batches state :=
        fun item here => able_main (by simp [main, point, here, Prefetch.userStep])
      by_cases gone : ∃ outcome, state.prefetch.consumer = .ended outcome
      · obtain ⟨outcome, here⟩ := gone
        refine able_main ?_
        cases outcome <;> simp [main, point, here]
      · refine threads_able kept orderly equipped low fits (fun outcome here => gone ⟨outcome, here⟩) ?_ leaving
        intro enabled
        refine able_main ?_
        simp only [main, point]
        cases here : state.prefetch.consumer with
        | holding item => simp [Prefetch.consumerStep, here] at enabled
        | ended outcome => exact absurd ⟨outcome, here⟩ gone
        | _ => simpa [consume] using enabled

end CoalescedWeights

end DgxSpark.Nvme.Coalesced
