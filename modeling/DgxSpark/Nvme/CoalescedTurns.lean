import DgxSpark.Nvme.CoalescedExact

/-
This file shows whose turn it is while `coalesced_weights` runs: `produce` works only while the pump waits for it, and a
call that is over has left no thread and no copy behind.
-/

namespace DgxSpark.Nvme

namespace Prefetch

variable {Item Error : Type} {producer : Producer Item Error} {state next last : Prefetch Item Error}

/-- A pump that has left its loop does not come back to it. -/
theorem pumpStep_left (taken : pumpStep producer state = some next) (left : looping state.pump = false)
    (terminal : ∀ message, state.pump = .close message → isTerminal message = true) : looping next.pump = false := by
  cases point : state.pump with
  | check => exact absurd left (by simp [point, looping])
  | acquire => exact absurd left (by simp [point, looping])
  | recheck => exact absurd left (by simp [point, looping])
  | advance => exact absurd left (by simp [point, looping])
  | put message =>
      rw [point] at left
      simp only [pumpStep, point] at taken
      split at taken <;> cases taken
      · cases message with
        | tensor value => cases left
        | done => rfl
        | error error => rfl
      · exact left
  | offer message =>
      rw [point] at left
      simp only [pumpStep, point] at taken
      split at taken <;> cases taken
      cases message with
      | tensor value => cases left
      | done => rfl
      | error error => rfl
  | close message =>
      have ends := @closedWith_terminal _ _ producer _ (terminal message point)
      simp only [pumpStep, point] at taken
      cases taken
      simp [looping, ends]
  | exited =>
      simp only [pumpStep, point] at taken
      cases taken

/-- A generator that ended in time has its pump gone. -/
def Joined (state : Prefetch Item Error) : Prop :=
  ∀ outcome, state.consumer = .ended outcome → outcome ≠ .stuck → state.pump = .exited

theorem Joined.step (joined : state.Joined) {action : PrefetchAction} (taken : step producer state action = some next) :
    next.Joined := by
  intro outcome ended alive
  cases action with
  | pump =>
      have pumps := pumpStep_pumps taken
      have gone := joined outcome (pumps.consumer ▸ ended) alive
      simp only [Prefetch.step, pumpStep, gone] at taken
      cases taken
  | pumpTimeout =>
      simp only [Prefetch.step, pumpTimeout] at taken
      split at taken
      case h_1 here =>
        split at taken <;> cases taken
        exact absurd ((joined outcome ended alive).symm.trans here) (by simp)
      case h_2 here _ =>
        cases taken
        exact absurd ((joined outcome ended alive).symm.trans here) (by simp)
      case h_3 => cases taken
  | consumer =>
      simp only [Prefetch.step, consumerStep] at taken
      split at taken
      case h_1 =>
        obtain ⟨message, _, rfl⟩ := Option.map_eq_some_iff.mp taken
        cases ended
      case h_2 message _ =>
        cases taken
        cases message <;> cases ended
      case h_3 => cases taken
      case h_4 =>
        cases taken
        cases ended
      case h_5 =>
        split at taken <;> cases taken
        assumption
      case h_6 => cases taken
  | joinTimeout =>
      simp only [Prefetch.step, joinTimeout] at taken
      split at taken <;> cases taken <;> cases ended <;> exact absurd rfl alive
  | resume =>
      simp only [Prefetch.step, userStep] at taken
      split at taken <;> cases taken
      cases ended
  | close =>
      simp only [Prefetch.step, userStep] at taken
      split at taken <;> cases taken
      cases ended

/-- The item that the generator hands over is the last that came. -/
def Latest (state : Prefetch Item Error) : Prop :=
  ∀ value, state.consumer = .release (.tensor value) ∨ state.consumer = .holding value →
    state.received.getLast? = some value

theorem Latest.step (latest : state.Latest) {action : PrefetchAction} (taken : step producer state action = some next) :
    next.Latest := by
  cases action with
  | pump =>
      have pumps := pumpStep_pumps taken
      intro value here
      rw [pumps.received]
      exact latest value (pumps.consumer ▸ here)
  | pumpTimeout =>
      simp only [Prefetch.step, pumpTimeout] at taken
      split at taken
      case h_1 =>
        split at taken <;> cases taken
        exact latest
      case h_2 =>
        cases taken
        exact latest
      case h_3 => cases taken
  | consumer =>
      simp only [Prefetch.step, consumerStep] at taken
      split at taken
      case h_1 =>
        obtain ⟨message, _, rfl⟩ := Option.map_eq_some_iff.mp taken
        rintro value (here | here)
        · cases here
          exact List.getLast?_concat ..
        · cases here
      case h_2 message point =>
        cases taken
        rintro value (here | here)
        · cases message <;> cases here
        · cases message with
          | tensor other =>
              cases here
              exact latest value (.inl point)
          | done => cases here
          | error error => cases here
      case h_3 => cases taken
      case h_4 =>
        cases taken
        rintro value (here | here) <;> cases here
      case h_5 =>
        split at taken <;> cases taken
        rintro value (here | here) <;> cases here
      case h_6 => cases taken
  | joinTimeout =>
      simp only [Prefetch.step, joinTimeout] at taken
      split at taken <;> cases taken <;> rintro value (here | here) <;> cases here
  | resume =>
      simp only [Prefetch.step, userStep] at taken
      split at taken <;> cases taken
      rintro value (here | here) <;> cases here
  | close =>
      simp only [Prefetch.step, userStep] at taken
      split at taken <;> cases taken
      rintro value (here | here) <;> cases here

end Prefetch

namespace Coalesced

open Library Streaming

variable {DType : Type}

namespace Source

/-- An event is behind copies that were submitted, and a generator that is over has waited for them unless the device
failed. -/
structure Tidy (state : Source) : Prop where
  bounded : state.uploads.Bounded
  settled : ∀ ending, state.point = .finished ending ∨ state.point = .ended ending →
    state.uploads.waiting = [] ∨ ending = .failed .outside

variable {call : CoalescedCall DType} {disk : Disk} {batches : List (Batch DType)} {state next : Source}

theorem start_tidy (limit : Int) (slots : Fin 2 → Buffer UInt8) (outputs : Nat → Buffer UInt8) :
    (start limit slots outputs).Tidy where
  bounded := CopyStream.bounded_idle
  settled ending gone := by rcases gone with here | here <;> cases here

theorem Tidy.transition (tidy : state.Tidy) (sound : state.Sound call disk batches)
    (taken : Transition call disk batches state next) : next.Tidy := by
  cases taken with
  | refused point early =>
      have here := sound.point
      rw [point] at here
      exact ⟨tidy.bounded, fun _ _ => .inl here.2⟩
  | submitted =>
      refine ⟨tidy.bounded.submit _ _, ?_⟩
      rintro ending (here | here) <;> cases here
  | copied advanced =>
      refine ⟨tidy.bounded.advance advanced, ?_⟩
      intro ending ended
      have waits := (CopyStream.advance_some advanced).1
      refine (tidy.settled ending ended).imp_left fun none => ?_
      rw [none] at waits
      cases waits
  | synchronized point idle =>
      refine ⟨tidy.bounded, fun _ _ => .inl ?_⟩
      cases cuda : call.cuda with
      | true => exact idle cuda
      | false => exact sound.host cuda
  | broken =>
      refine ⟨tidy.bounded, ?_⟩
      rintro ending (here | here) <;> cases here
      exact .inr rfl
  | expired => exact ⟨tidy.bounded, tidy.settled⟩
  | _ =>
      refine ⟨tidy.bounded, ?_⟩
      rintro ending (here | here) <;> cases here

theorem Tidy.answer (tidy : state.Tidy) {answer : Next Item CoalescedError}
    (answered : state.answer = some (answer, next)) : next.Tidy := by
  unfold Source.answer at answered
  split at answered
  case h_1 =>
    cases answered
    refine ⟨tidy.bounded, ?_⟩
    rintro ending (here | here) <;> cases here
  case h_2 point =>
    cases answered
    refine ⟨tidy.bounded, ?_⟩
    rintro ending (here | here) <;> cases here
    exact tidy.settled _ (.inl point)
  case h_3 error point =>
    cases answered
    refine ⟨tidy.bounded, ?_⟩
    rintro ending (here | here) <;> cases here
    exact tidy.settled _ (.inl point)
  case h_4 => cases answered

theorem Tidy.closed (tidy : state.Tidy) {closeError : Option CoalescedError}
    (closed : state.closed = some (closeError, next)) :
    next.Tidy ∧ ∃ ending, next.point = .ended ending := by
  unfold Source.closed at closed
  split at closed
  case h_1 point =>
    cases closed
    refine ⟨⟨tidy.bounded, ?_⟩, _, rfl⟩
    rintro ending (here | here) <;> cases here
    exact tidy.settled _ (.inl point)
  case h_2 error point =>
    cases closed
    refine ⟨⟨tidy.bounded, ?_⟩, _, rfl⟩
    rintro ending (here | here) <;> cases here
    exact tidy.settled _ (.inl point)
  case h_3 ending point =>
    cases closed
    exact ⟨tidy, _, point⟩
  case h_4 => cases closed

/-- A generator that waits is moved by its caller only. -/
theorem step_waits {action : SourceAction} (own : action ≠ .resume ∧ action ≠ .cancel)
    (taken : state.step call disk batches action = some next)
    (waits : state.point = .created ∨ ∃ index, state.point = .suspended index) : next.point = state.point := by
  cases action with
  | resume => exact absurd rfl own.1
  | cancel => exact absurd rfl own.2
  | check => rcases waits with point | ⟨index, point⟩ <;> simp [step, check, point] at taken
  | reserve allocated => rcases waits with point | ⟨index, point⟩ <;> simp [step, reserve, point] at taken
  | enter opened => rcases waits with point | ⟨index, point⟩ <;> simp [step, enter, point] at taken
  | fence => rcases waits with point | ⟨index, point⟩ <;> simp [step, fence, point] at taken
  | preadv thread answer => rcases waits with point | ⟨index, point⟩ <;> simp [step, preadv, point] at taken
  | collect => rcases waits with point | ⟨index, point⟩ <;> simp [step, collect, point] at taken
  | copy =>
      obtain ⟨⟨⟨slot, upload⟩, uploads⟩, advanced, taken⟩ := Option.bind_eq_some_iff.mp taken
      cases taken
      rfl
  | synchronize done => rcases waits with point | ⟨index, point⟩ <;> simp [step, synchronize, point] at taken
  | expire output =>
      simp only [step, expire, Option.ite_none_right_eq_some, Option.some.injEq] at taken
      exact taken.2 ▸ rfl

end Source

namespace CoalescedWeights

/-- `produce` works while the pump waits in `next`, and leaves while it waits in `next` or `close`. -/
def Turn (pump : PumpPoint Item CoalescedError) : SourcePoint → Prop
  | .created => True
  | .suspended _ => True
  | .closing ending => pump = .advance ∧ ending ≠ .cancelled ∨ (∃ terminal, pump = .close terminal) ∧ ending ≠ .completed
  | .finished ending => pump = .advance ∧ ending ≠ .cancelled ∨ (∃ terminal, pump = .close terminal) ∧ ending ≠ .completed
  | .ended _ => Prefetch.looping pump = false
  | _ => pump = .advance

structure Orderly (state : CoalescedWeights DType) : Prop where
  turn : Turn state.prefetch.pump state.source.point
  tidy : state.source.Tidy
  closed : state.prefetch.closes ≠ 0 → ∃ ending, state.source.point = .ended ending
  joined : state.prefetch.Joined
  latest : state.prefetch.Latest
  finished : ∀ finish, state.point = .ended finish →
    ∃ outcome, state.prefetch.consumer = .ended outcome ∧ (outcome = .stuck → finish = .raised stuck)

variable {call : CoalescedCall DType} {disk : Disk} {batches : List (Batch DType)}
  {state next : CoalescedWeights DType}

theorem start_orderly (slots : Fin 2 → Buffer UInt8) (outputs : Nat → Buffer UInt8) :
    (start call slots outputs : CoalescedWeights DType).Orderly where
  turn := trivial
  tidy := Source.start_tidy call.ownedLimit slots outputs
  closed := fun more => absurd rfl more
  joined := fun outcome ended => by cases ended
  latest := by rintro value (here | here) <;> cases here
  finished := fun finish ended => by cases ended

theorem Turn.resume {pump : PumpPoint Item CoalescedError} {source after : Source} (waits : pump = .advance)
    (taken : source.resume call = some after) : Turn pump after.point := by
  unfold Source.resume at taken
  split at taken
  case h_1 =>
    split at taken <;> cases taken
    · exact .inl ⟨waits, Ending.noConfusion⟩
    · exact waits
  case h_2 =>
    cases taken
    exact waits
  case h_3 => cases taken

theorem Turn.cancel {pump : PumpPoint Item CoalescedError} {source after : Source}
    (waits : ∃ terminal, pump = .close terminal) (taken : source.cancel = some after) : Turn pump after.point := by
  unfold Source.cancel at taken
  split at taken
  case h_1 =>
    cases taken
    exact .inr ⟨waits, Ending.noConfusion⟩
  case h_2 =>
    cases taken
    exact .inr ⟨waits, Ending.noConfusion⟩
  case h_3 => cases taken

/-- `produce` is in its loop over the batches only while the pump waits in `next`. -/
theorem Turn.asked {pump : PumpPoint Item CoalescedError} {point : SourcePoint} (turn : Turn pump point)
    (running : point.Open) : pump = .advance := by
  cases point with
  | created => exact running.elim
  | suspended index => exact running.elim
  | closing ending => exact running.elim
  | finished ending => exact running.elim
  | ended ending => exact running.elim
  | _ => exact turn

/-- The pump stays where it waits while `produce` works. -/
theorem Turn.step {pump : PumpPoint Item CoalescedError} {source after : Source} {action : SourceAction}
    (turn : Turn pump source.point) (resumes : action = .resume → pump = .advance)
    (cancels : action = .cancel → ∃ terminal, pump = .close terminal)
    (taken : source.step call disk batches action = some after) : Turn pump after.point := by
  by_cases resume : action = .resume
  · subst resume
    exact .resume (resumes rfl) taken
  by_cases cancel : action = .cancel
  · subst cancel
    exact .cancel (cancels rfl) taken
  have own : action ≠ .resume ∧ action ≠ .cancel := ⟨resume, cancel⟩
  have waits := fun point => Source.step_waits own taken point
  cases Source.step_transition taken with
  | made point => exact absurd (waits (.inl point)) (by simp [point])
  | refused point => exact absurd (waits (.inl point)) (by simp [point])
  | resumed point => exact absurd (waits (.inr ⟨_, point⟩)) (by simp [point])
  | cancelled point => exact absurd (waits (.inr ⟨_, point⟩)) (by simp [point])
  | completed point => exact .inl ⟨turn.asked (by rw [point]; trivial), Ending.noConfusion⟩
  | stopped running => exact .inl ⟨turn.asked running, Ending.noConfusion⟩
  | unallocated point => exact .inl ⟨turn.asked (by rw [point]; trivial), Ending.noConfusion⟩
  | checked point => exact turn.asked (by rw [point]; trivial)
  | reserved point => exact turn.asked (by rw [point]; trivial)
  | entered point => exact turn.asked (by rw [point]; trivial)
  | fenced point => exact turn.asked (by rw [point]; trivial)
  | filled point => exact turn.asked (by rw [point]; trivial)
  | received point => exact turn.asked (by rw [point]; trivial)
  | submitted point => exact turn.asked (by rw [point]; trivial)
  | delivered point => exact turn.asked (by rw [point]; trivial)
  | copied => exact turn
  | synchronized point =>
      rw [point] at turn
      exact turn
  | broken point =>
      rw [point] at turn
      rcases turn with ⟨asked, _⟩ | ⟨closes, _⟩
      · exact .inl ⟨asked, Ending.noConfusion⟩
      · exact .inr ⟨closes, Ending.noConfusion⟩
  | expired => exact turn

/-- Only the pump and `produce` move the pump. -/
theorem Turn.unmoved {before after : Prefetch Item CoalescedError} {point : SourcePoint} (turn : Turn before.pump point)
    {action : PrefetchAction} (other : Prefetch.ofPump action = 0) {producer : Producer Item CoalescedError}
    (taken : Prefetch.step producer before action = some after) : Turn after.pump point := by
  rw [(Prefetch.pump_unmoved other taken).1]
  exact turn

/-- A pump that is neither in `next` nor in `close` leaves `produce` waiting, or has seen its end. -/
theorem Turn.apart {pump : PumpPoint Item CoalescedError} {point : SourcePoint} (turn : Turn pump point)
    (asking : pump ≠ .advance) (closing : ∀ terminal, pump ≠ .close terminal) :
    (∀ other, Turn other point) ∨ ((∃ ending, point = .ended ending) ∧ Prefetch.looping pump = false) := by
  cases point with
  | created => exact .inl fun _ => trivial
  | suspended index => exact .inl fun _ => trivial
  | ended ending => exact .inr ⟨⟨ending, rfl⟩, turn⟩
  | closing ending =>
      rcases turn with ⟨asked, _⟩ | ⟨⟨terminal, closes⟩, _⟩
      · exact absurd asked asking
      · exact absurd closes (closing terminal)
  | finished ending =>
      rcases turn with ⟨asked, _⟩ | ⟨⟨terminal, closes⟩, _⟩
      · exact absurd asked asking
      · exact absurd closes (closing terminal)
  | _ => exact absurd turn asking

/-- The generator of `prefetch_weights` goes on beside the pump. -/
theorem Orderly.beside (orderly : state.Orderly) {prefetch : Prefetch Item CoalescedError} {point : Point DType}
    {complete : Bool} {yields : List (Yielded DType)} {action : PrefetchAction} (other : Prefetch.ofPump action = 0)
    {producer : Producer Item CoalescedError}
    (taken : Prefetch.step producer state.prefetch action = some prefetch)
    (finished : ∀ finish, point = .ended finish →
      ∃ outcome, prefetch.consumer = .ended outcome ∧ (outcome = .stuck → finish = .raised stuck)) :
    ({ state with point := point, prefetch := prefetch, complete := complete, yields := yields } :
      CoalescedWeights DType).Orderly where
  turn := orderly.turn.unmoved other taken
  tidy := orderly.tidy
  closed more := by
    refine orderly.closed ?_
    rw [← (Prefetch.step_uncalled (by rintro rfl; cases other) taken).2]
    exact more
  joined := orderly.joined.step taken
  latest := orderly.latest.step taken
  finished := finished

/-- The body goes on by itself. -/
theorem Orderly.body (orderly : state.Orderly) {point : Point DType} {complete : Bool} {yields : List (Yielded DType)}
    (finished : ∀ finish, point = .ended finish →
      ∃ outcome, state.prefetch.consumer = .ended outcome ∧ (outcome = .stuck → finish = .raised stuck)) :
    ({ state with point := point, complete := complete, yields := yields } : CoalescedWeights DType).Orderly where
  turn := orderly.turn
  tidy := orderly.tidy
  closed := orderly.closed
  joined := orderly.joined
  latest := orderly.latest
  finished := finished

theorem Orderly.advanced (orderly : state.Orderly) (advanced : Advanced call disk batches state next) :
    next.Orderly := by
  cases advanced with
  | @consumed prefetch point taken =>
      refine @Orderly.beside _ state orderly prefetch state.point state.complete state.yields .consumer rfl
        (oracle [] none) taken ?_
      intro finish ended
      obtain ⟨outcome, here, _⟩ := orderly.finished finish ended
      simp only [Prefetch.consumerStep, here] at taken
      cases taken
  | @turned item prefetch point taken =>
      exact @Orderly.beside _ state orderly prefetch .iterating state.complete state.yields .resume rfl
        (oracle [] none) taken fun finish ended => by cases ended
  | @cancelled finish item prefetch point here taken =>
      refine @Orderly.beside _ state orderly prefetch state.point state.complete state.yields .close rfl
        (oracle [] none) taken ?_
      intro other ended
      rw [point] at ended
      cases ended
  | ended point here joined =>
      refine orderly.body ?_
      rintro finish ⟨⟩
      exact ⟨_, here, fun stuck => absurd stuck joined⟩
  | stuck point here =>
      refine orderly.body ?_
      rintro finish ⟨⟩
      exact ⟨_, here, fun _ => rfl⟩
  | _ => exact orderly.body fun finish ended => by cases ended

theorem Orderly.pump (orderly : state.Orderly) (kept : Kept call disk batches state) (pumped : state.Pumped next) :
    next.Orderly := by
  cases pumped with
  | @asks answer source prefetch point answered taken =>
      have pumps := Prefetch.pumpStep_pumps taken
      have stepped : Prefetch.step (answering answer none) state.prefetch .pump = some prefetch := taken
      have unclosed : state.prefetch.closes = 0 := by
        have due := kept.driven.kept.closing
        simp only [point, Prefetch.closeDue] at due
        omega
      refine ⟨?_, orderly.tidy.answer answered, ?_, orderly.joined.step stepped, orderly.latest.step stepped, ?_⟩
      · show Turn prefetch.pump source.point
        simp only [Prefetch.pumpStep, point, answering] at taken
        unfold Source.answer at answered
        split at answered <;> cases answered
        · trivial
        · cases taken
          rfl
        · cases taken
          rfl
      · intro more
        refine absurd ?_ more
        show prefetch.closes = 0
        rw [pumps.closes, unclosed, point]
        rfl
      · intro finish ended
        show ∃ outcome, prefetch.consumer = .ended outcome ∧ _
        rw [pumps.consumer]
        exact orderly.finished finish ended
  | @closes terminal closeError source prefetch point closed taken =>
      have pumps := Prefetch.pumpStep_pumps taken
      have stepped : Prefetch.step (answering .stop closeError) state.prefetch .pump = some prefetch := taken
      obtain ⟨tidy, ending, gone⟩ := orderly.tidy.closed closed
      refine ⟨?_, tidy, fun _ => ⟨ending, gone⟩, orderly.joined.step stepped, orderly.latest.step stepped, ?_⟩
      · show Turn prefetch.pump source.point
        rw [gone]
        exact Prefetch.pumpStep_left taken (by rw [point]; rfl) kept.driven.kept.terminal
      · intro finish ended
        show ∃ outcome, prefetch.consumer = .ended outcome ∧ _
        rw [pumps.consumer]
        exact orderly.finished finish ended
  | @alone prefetch asking closing taken =>
      have pumps := Prefetch.pumpStep_pumps taken
      have stepped : Prefetch.step (answering .stop none) state.prefetch .pump = some prefetch := taken
      refine ⟨?_, orderly.tidy, ?_, orderly.joined.step stepped, orderly.latest.step stepped, ?_⟩
      · show Turn prefetch.pump state.source.point
        rcases orderly.turn.apart asking closing with free | ⟨⟨ending, gone⟩, left⟩
        · exact free _
        · rw [gone]
          exact Prefetch.pumpStep_left taken left kept.driven.kept.terminal
      · intro more
        refine orderly.closed ?_
        have quiet : Prefetch.shuts state.prefetch.pump = 0 := by
          unfold Prefetch.shuts
          split
          case h_1 terminal here => exact absurd here (closing terminal)
          case h_2 => rfl
        rw [pumps.closes, quiet] at more
        exact more
      · intro finish ended
        show ∃ outcome, prefetch.consumer = .ended outcome ∧ _
        rw [pumps.consumer]
        exact orderly.finished finish ended

theorem Orderly.pumpTimeout (orderly : state.Orderly) {prefetch : Prefetch Item CoalescedError}
    (taken : Prefetch.pumpTimeout state.prefetch = some prefetch) :
    ({ state with prefetch := prefetch } : CoalescedWeights DType).Orderly := by
  have stepped : Prefetch.step (oracle [] none) state.prefetch .pumpTimeout = some prefetch := taken
  have joined := orderly.joined.step stepped
  have latest := orderly.latest.step stepped
  unfold Prefetch.pumpTimeout at taken
  split at taken
  case h_1 here =>
    split at taken <;> cases taken
    refine ⟨?_, orderly.tidy, orderly.closed, joined, latest, orderly.finished⟩
    rcases orderly.turn.apart (by rw [here]; simp) (by rw [here]; simp) with free | ⟨_, left⟩
    · exact free _
    · rw [here] at left
      cases left
  case h_2 message _ here _ =>
    cases taken
    refine ⟨?_, orderly.tidy, orderly.closed, joined, latest, orderly.finished⟩
    rcases orderly.turn.apart (by rw [here]; simp) (by rw [here]; simp) with free | ⟨⟨ending, gone⟩, left⟩
    · exact free _
    · show Turn (.put message) state.source.point
      rw [here] at left
      rw [gone]
      exact left
  case h_3 => cases taken

/-- Every step of the machine keeps the threads in their turns. -/
theorem Orderly.transition (orderly : state.Orderly) (kept : Kept call disk batches state)
    (taken : Transition call disk batches state next) : next.Orderly := by
  cases taken with
  | @source action source allowed taken =>
      have moved := Source.step_transition taken
      refine ⟨?_, orderly.tidy.transition kept.sound moved, ?_, orderly.joined, orderly.latest, orderly.finished⟩
      · refine orderly.turn.step ?_ ?_ taken
        · rintro rfl
          simp only [allows] at allowed
          split at allowed
          case h_1 here => exact here
          case h_2 => cases allowed
        · rintro rfl
          simp only [allows] at allowed
          split at allowed
          case h_1 terminal here => exact ⟨terminal, here⟩
          case h_2 => cases allowed
      · intro more
        obtain ⟨ending, gone⟩ := orderly.closed more
        exact ⟨ending, moved.ended gone⟩
  | pump pumped => exact orderly.pump kept pumped
  | pumpTimeout taken => exact orderly.pumpTimeout taken
  | @joinTimeout prefetch taken =>
      refine @Orderly.beside _ state orderly prefetch state.point state.complete state.yields .joinTimeout rfl
        (oracle [] none) taken ?_
      intro finish ended
      obtain ⟨outcome, here, _⟩ := orderly.finished finish ended
      simp only [Prefetch.joinTimeout, here] at taken
      cases taken
  | body advanced => exact orderly.advanced advanced

/-- What a run of a planned call reaches. -/
theorem reached_orderly (slots : Fin 2 → Buffer UInt8) (outputs : Nat → Buffer UInt8) (positive : 0 < call.batchBytes)
    (multiple : (ALIGN : Int) ∣ call.batchBytes) (planned : call.plan = .ok batches) {actions : List Action}
    (reached : Run.run (step call disk batches) (start call slots outputs) actions = some state) :
    Kept call disk batches state ∧ state.Orderly := by
  have low := plan_low positive multiple planned
  refine @Run.run_invariant _ _ (step call disk batches)
    (fun state : CoalescedWeights DType => Kept call disk batches state ∧ state.Orderly) ?_ _ _ _
    ⟨start_kept slots outputs, start_orderly slots outputs⟩ reached
  rintro state action next ⟨kept, orderly⟩ taken
  have moved := step_transition taken
  exact ⟨kept.transition low (reader_fit multiple) moved, orderly.transition kept moved⟩

/-- Nothing of the call is left but the copies of a device that failed. -/
structure Over (state : CoalescedWeights DType) : Prop where
  point : ∃ finish, state.point = .ended finish
  consumer : ∃ outcome, state.prefetch.consumer = .ended outcome
  pump : state.prefetch.pump = .exited
  source : ∃ ending, state.source.point = .ended ending ∧
    (state.source.uploads.waiting = [] ∨ ending = .failed .outside)

theorem Orderly.quiet (orderly : state.Orderly) (kept : Kept call disk batches state) {finish : Finish}
    (point : state.point = .ended finish) (alive : finish ≠ .raised stuck) : state.Over := by
  obtain ⟨outcome, here, hung⟩ := orderly.finished finish point
  have pump := orderly.joined outcome here fun same => alive (hung same)
  have closing := kept.driven.kept.closing
  rw [pump] at closing
  obtain ⟨ending, gone⟩ := orderly.closed (by rw [show state.prefetch.closes = 1 from closing]; decide)
  exact ⟨⟨finish, point⟩, ⟨outcome, here⟩, pump, ending, gone, orderly.tidy.settled ending (.inr gone)⟩

/-- What a call that is over can still show: its copies go on if the device failed, and outputs may expire. -/
structure Rests (state next : CoalescedWeights DType) : Prop where
  quiet : next.Over
  point : next.point = state.point
  yields : next.yields = state.yields
  slots : next.source.slots = state.source.slots
  path : next.source.path = state.source.path
  allocated : next.source.allocated = state.source.allocated
  idle : state.source.uploads.waiting = [] → next.source.uploads.waiting = [] ∧ next.source.outputs = state.source.outputs

theorem Over.rests (quiet : state.Over) : state.Rests state where
  quiet := quiet
  point := rfl
  yields := rfl
  slots := rfl
  path := rfl
  allocated := rfl
  idle waits := ⟨waits, rfl⟩

theorem Rests.trans {first : CoalescedWeights DType} (before : first.Rests state) (after : state.Rests next) :
    first.Rests next where
  quiet := after.quiet
  point := after.point.trans before.point
  yields := after.yields.trans before.yields
  slots := after.slots.trans before.slots
  path := after.path.trans before.path
  allocated := after.allocated.trans before.allocated
  idle waits := by
    obtain ⟨still, same⟩ := before.idle waits
    obtain ⟨none, outputs⟩ := after.idle still
    exact ⟨none, outputs.trans same⟩

theorem ended_rests {source after : Source} {ending : Ending}
    (gone : source.point = .ended ending) (taken : Source.Transition call disk batches source after) :
    after.point = .ended ending ∧ after.slots = source.slots ∧ after.path = source.path ∧
      after.allocated = source.allocated ∧
      (source.uploads.waiting = [] → after.uploads.waiting = [] ∧ after.outputs = source.outputs) := by
  cases taken with
  | stopped running =>
      rw [gone] at running
      exact running.elim
  | copied advanced =>
      refine ⟨gone, rfl, rfl, rfl, fun none => ?_⟩
      have waits := (CopyStream.advance_some advanced).1
      rw [none] at waits
      cases waits
  | expired => exact ⟨gone, rfl, rfl, rfl, fun none => ⟨none, rfl⟩⟩
  | _ => simp_all

theorem Over.step (quiet : state.Over) (taken : Transition call disk batches state next) : state.Rests next := by
  obtain ⟨⟨finish, point⟩, ⟨outcome, consumer⟩, pump, ending, gone, settled⟩ := quiet
  cases taken with
  | @source action source allowed taken =>
      obtain ⟨still, slots, path, allocated, idle⟩ := ended_rests gone (Source.step_transition taken)
      refine ⟨⟨⟨finish, point⟩, ⟨outcome, consumer⟩, pump, ending, still, ?_⟩, rfl, rfl, slots, path, allocated, idle⟩
      exact settled.imp_left fun none => (idle none).1
  | pump pumped =>
      cases pumped with
      | asks here => exact absurd (pump.symm.trans here) (by simp)
      | closes here => exact absurd (pump.symm.trans here) (by simp)
      | alone asking closing taken =>
          simp only [Prefetch.pumpStep, pump] at taken
          cases taken
  | pumpTimeout taken =>
      simp only [Prefetch.pumpTimeout, pump] at taken
      cases taken
  | joinTimeout taken =>
      simp only [Prefetch.joinTimeout, pump, consumer] at taken
      cases taken
  | body advanced =>
      cases advanced with
      | consumed _ taken =>
          simp only [Prefetch.consumerStep, consumer] at taken
          cases taken
      | stopped running =>
          rw [point] at running
          exact running.elim
      | _ => simp_all

/-- The caller leaves at the first tensor, while its copy still waits. -/
def leftRun : List Action :=
  [.pump, .pump, .pump, .source .resume, .source .check, .source (.reserve true), .source (.enter true), .source .fence,
    .source (.preadv 0 (.count 10 true)), .source .collect, .source .fence, .pump, .pump, .pump, .main, .main, .main,
    .main, .closed, .main, .main, .pump, .source .cancel, .source .copy, .source (.synchronize true), .pump, .pump, .main,
    .main]

end CoalescedWeights

end Coalesced

end DgxSpark.Nvme
