import DgxSpark.Nvme.PrefetchKept

/-
This file shows that neither thread blocks, and what the two do together.
-/

namespace DgxSpark.Nvme

namespace Prefetch

variable {Item Error : Type} {producer : Producer Item Error} {state next : Prefetch Item Error}

/-! ### Progress -/

/-- A timed wait that expires without the stop flag only goes back to the head of its loop. -/
def Idle (state : Prefetch Item Error) (action : PrefetchAction) : Prop :=
  action = .pumpTimeout ∧ state.stop = false

/-- Unless the generator has ended, a thread or the next call of the user can go on. -/
theorem Kept.progress (kept : state.Kept producer) (unfinished : ∀ outcome, state.consumer ≠ .ended outcome) :
    ∃ action, action ≠ .close ∧ ¬Idle state action ∧ (step producer state action).isSome = true := by
  have consumes : (consumerStep state).isSome = true →
      ∃ action, action ≠ .close ∧ ¬Idle state action ∧ (step producer state action).isSome = true :=
    fun enabled => ⟨.consumer, by decide, fun idle => absurd idle.1 (by decide), enabled⟩
  have pumps : (pumpStep producer state).isSome = true →
      ∃ action, action ≠ .close ∧ ¬Idle state action ∧ (step producer state action).isSome = true :=
    fun enabled => ⟨.pump, by decide, fun idle => absurd idle.1 (by decide), enabled⟩
  cases consumer : state.consumer with
  | release message => exact consumes (by simp [consumerStep, consumer])
  | stopping outcome => exact consumes (by simp [consumerStep, consumer])
  | ended outcome => exact absurd consumer (unfinished outcome)
  | holding value =>
      refine ⟨.resume, by decide, fun idle => absurd idle.1 (by decide), ?_⟩
      simp [step, userStep, consumer]
  | get =>
      cases ready : state.ready with
      | some message => exact consumes (by simp [consumerStep, consumer, ready])
      | none =>
          have running := kept.running (by rw [consumer]; rfl)
          have permits := kept.permits running
          have whole := congrArg List.length (kept.whole running)
          cases pump : state.pump with
          | check => exact pumps (by simp [pumpStep, pump, running])
          | acquire =>
              -- no item is on its way, so the permit is free
              have free : 0 < state.slot := by
                simp [pump, ready, consumer, mayAdvance, mayEnd, queuePermit, unreleased, inQueue, atPump] at permits whole
                omega
              exact pumps (by simp [pumpStep, pump, free])
          | recheck => exact pumps (by simp [pumpStep, pump, running])
          | advance => cases answer : producer.next state.advances <;> exact pumps (by simp [pumpStep, pump, answer])
          | put message => exact pumps (by simp [pumpStep, pump, running])
          | offer message => exact pumps (by simp [pumpStep, pump, ready])
          | close terminal => exact pumps (by simp [pumpStep, pump])
          | exited =>
              rcases kept.waits pump running with ends | ended
              · rw [ready] at ends
                cases ends
              · rw [consumer] at ended
                cases ended
  | joining outcome =>
      have stop : state.stop = true := kept.flag.trans (by rw [consumer]; rfl)
      have expires : (pumpTimeout state).isSome = true →
          ∃ action, action ≠ .close ∧ ¬Idle state action ∧ (step producer state action).isSome = true := by
        refine fun enabled => ⟨.pumpTimeout, by decide, fun idle => ?_, enabled⟩
        exact absurd (stop.symm.trans idle.2) (by decide)
      cases pump : state.pump with
      | check => exact pumps (by simp [pumpStep, pump, stop])
      | acquire =>
          by_cases free : 0 < state.slot
          · exact pumps (by simp [pumpStep, pump, free])
          · exact expires (by simp [pumpTimeout, pump, Nat.eq_zero_of_not_pos free])
      | recheck => exact pumps (by simp [pumpStep, pump, stop])
      | advance => cases answer : producer.next state.advances <;> exact pumps (by simp [pumpStep, pump, answer])
      | put message => exact pumps (by simp [pumpStep, pump, stop])
      | offer message =>
          cases ready : state.ready with
          | none => exact pumps (by simp [pumpStep, pump, ready])
          | some other => exact expires (by simp [pumpTimeout, pump, ready])
      | close terminal => exact pumps (by simp [pumpStep, pump])
      | exited => exact consumes (by simp [consumerStep, consumer, pump])

/-- How far the pump is from its end, apart from the items that are still to come. -/
def pumpRank (stop : Bool) : PumpPoint Item Error → Nat
  | .check => if stop then 9 else 12
  | .acquire => 11
  | .recheck => 10
  | .advance => 9
  | .put message => if isTerminal message then (if stop then 5 else 7) else if stop then 17 else 19
  | .offer message => if isTerminal message then 6 else 18
  | .close _ => 8
  | .exited => 0

def queueRank : Option (Message Item Error) → Nat
  | some _ => 5
  | none => 0

def consumerRank : ConsumerPoint Item Error → Nat
  | .get => 0
  | .release _ => 4
  | .holding _ => 3
  | .stopping _ => 2
  | .joining _ => 1
  | .ended _ => 0

/-- The work that is left when the producer ends after so many items. -/
def rank (count : Nat) (state : Prefetch Item Error) : Nat :=
  20 * (count - state.produced.length) + pumpRank state.stop state.pump + queueRank state.ready +
    consumerRank state.consumer

theorem rank_le (count : Nat) (state : Prefetch Item Error) : rank count state ≤ 20 * count + 28 := by
  have pump : pumpRank state.stop state.pump ≤ 19 := by
    cases state.stop <;> cases state.pump with
    | put message => cases message <;> simp [pumpRank, isTerminal]
    | offer message => cases message <;> simp [pumpRank, isTerminal]
    | check => simp [pumpRank]
    | acquire => simp [pumpRank]
    | recheck => simp [pumpRank]
    | advance => simp [pumpRank]
    | close terminal => simp [pumpRank]
    | exited => simp [pumpRank]
  have queue : queueRank state.ready ≤ 5 := by cases state.ready <;> simp [queueRank]
  have consumer : consumerRank state.consumer ≤ 4 := by cases state.consumer <;> simp [consumerRank]
  unfold rank
  omega

/-- A producer that ends after so many items makes no more. -/
theorem Kept.produced_le (kept : state.Kept producer) {count : Nat} (ends : endOf (producer.next count) ≠ none) :
    state.produced.length ≤ count := by
  by_contra more
  have bound : count < state.produced.length := Nat.lt_of_not_le more
  have item := kept.made count _ (List.getElem?_eq_getElem bound)
  rw [item] at ends
  exact ends rfl

theorem rank_pump (kept : state.Kept producer) {count : Nat} (ends : endOf (producer.next count) ≠ none)
    (taken : pumpStep producer state = some next) : rank count next < rank count state := by
  have within := kept.produced_le ends
  unfold pumpStep at taken
  split at taken
  case h_1 here =>
    split at taken
    case isTrue stop =>
      cases taken
      simp [rank, here, pumpRank, stop]
    case isFalse running =>
      cases taken
      simp [rank, here, pumpRank, running]
  case h_2 here =>
    split at taken
    · cases taken
      simp [rank, here, pumpRank]
    · cases taken
  case h_3 here =>
    split at taken
    case isTrue stop =>
      cases taken
      simp [rank, here, pumpRank]
    case isFalse running =>
      cases taken
      simp [rank, here, pumpRank]
  case h_4 here =>
    have asked : state.advances = state.produced.length := kept.asked (by rw [here]; rfl)
    split at taken
    case h_1 value answer =>
      have more : state.produced.length ≠ count := by
        rintro rfl
        rw [← asked, answer] at ends
        exact ends rfl
      cases taken
      simp only [rank, here, pumpRank, isTerminal, List.length_append, List.length_singleton]
      have small : (if state.stop = true then 17 else 19) ≤ 19 := by split <;> omega
      simp only [Bool.false_eq_true, if_false]
      omega
    case h_2 =>
      cases taken
      simp [rank, here, pumpRank]
    case h_3 =>
      cases taken
      simp [rank, here, pumpRank]
  case h_5 message here =>
    split at taken
    case isTrue stop =>
      cases taken
      cases message <;> simp [rank, here, pumpRank, stop, afterPut, isTerminal]
    case isFalse running =>
      cases taken
      cases message <;> simp [rank, here, pumpRank, running, isTerminal]
  case h_6 message here =>
    split at taken
    case h_1 free =>
      cases taken
      cases message <;> cases state.stop <;>
        simp [rank, here, free, pumpRank, queueRank, afterPut, isTerminal]
    case h_2 => cases taken
  case h_7 terminal here =>
    cases taken
    have last := @closedWith_terminal _ _ producer _ (kept.terminal terminal here)
    cases state.stop <;> simp [rank, here, pumpRank, last]
  case h_8 => cases taken

theorem rank_pumpTimeout (count : Nat) (stop : state.stop = true) (taken : pumpTimeout state = some next) :
    rank count next < rank count state := by
  unfold pumpTimeout at taken
  split at taken
  case h_1 here =>
    split at taken
    · cases taken
      simp [rank, here, pumpRank, stop]
    · cases taken
  case h_2 message _ here _ =>
    cases taken
    cases message <;> simp [rank, here, pumpRank, stop, isTerminal]
  case h_3 => cases taken

theorem pumpRank_stop (pump : PumpPoint Item Error) (stop : Bool) : pumpRank true pump ≤ pumpRank stop pump := by
  cases stop with
  | true => exact Nat.le_refl _
  | false =>
      cases pump with
      | put message => cases message <;> simp [pumpRank, isTerminal]
      | check => simp [pumpRank]
      | acquire => simp [pumpRank]
      | recheck => simp [pumpRank]
      | advance => simp [pumpRank]
      | offer message => simp [pumpRank]
      | close terminal => simp [pumpRank]
      | exited => simp [pumpRank]

theorem rank_consumer (count : Nat) (taken : consumerStep state = some next) : rank count next < rank count state := by
  unfold consumerStep at taken
  split at taken
  case h_1 here =>
    obtain ⟨message, found, rfl⟩ := Option.map_eq_some_iff.mp taken
    simp [rank, here, found, queueRank, consumerRank]
  case h_2 message here =>
    cases taken
    cases message <;> simp [rank, here, handle, consumerRank]
  case h_3 => cases taken
  case h_4 outcome here =>
    cases taken
    have less := pumpRank_stop state.pump state.stop
    simp only [rank, here, consumerRank]
    omega
  case h_5 outcome here =>
    split at taken
    · cases taken
      simp [rank, here, consumerRank]
    · cases taken
  case h_6 => cases taken

/-- Every step but an idle one leaves less work. -/
theorem rank_step (kept : state.Kept producer) {count : Nat} (ends : endOf (producer.next count) ≠ none)
    {action : PrefetchAction} (busy : ¬Idle state action) (taken : step producer state action = some next) :
    rank count next < rank count state := by
  have user : ∀ close, userStep state close = some next → rank count next < rank count state := by
    intro close moved
    unfold userStep at moved
    split at moved
    case h_1 value here =>
      cases moved
      cases close <;> simp [rank, here, consumerRank]
    case h_2 => cases moved
  cases action with
  | pump => exact rank_pump kept ends taken
  | pumpTimeout =>
      have stop : state.stop = true := by
        by_contra running
        exact busy ⟨rfl, Bool.eq_false_iff.mpr running⟩
      exact rank_pumpTimeout count stop taken
  | consumer => exact rank_consumer count taken
  | joinTimeout =>
      simp only [step, joinTimeout] at taken
      split at taken
      case h_1 here _ =>
        cases taken
        simp [rank, here, consumerRank]
      case h_2 here _ =>
        cases taken
        simp [rank, here, consumerRank]
      case h_3 => cases taken
  | resume => exact user false taken
  | close => exact user true taken

/-! ### After the stop flag -/

/-- The steps that the pump takes at most once the flag is set. -/
def leaveRank : PumpPoint Item Error → Nat
  | .check => 3
  | .acquire => 4
  | .recheck => 3
  | .advance => 5
  | .put message => if isTerminal message then 1 else 4
  | .offer message => if isTerminal message then 2 else 5
  | .close _ => 2
  | .exited => 0

def ofPump : PrefetchAction → Nat
  | .pump => 1
  | .pumpTimeout => 1
  | _ => 0

theorem leaveRank_pump (kept : state.Kept producer) (stop : state.stop = true)
    (taken : pumpStep producer state = some next) :
    next.stop = true ∧ 1 + leaveRank next.pump ≤ leaveRank state.pump := by
  unfold pumpStep at taken
  split at taken
  case h_1 here =>
    rw [if_pos stop] at taken
    cases taken
    simp [here, leaveRank, stop]
  case h_2 here =>
    split at taken
    · cases taken
      simp [here, leaveRank, stop]
    · cases taken
  case h_3 here =>
    rw [if_pos stop] at taken
    cases taken
    simp [here, leaveRank, stop]
  case h_4 here =>
    split at taken
    · cases taken
      simp [here, leaveRank, stop, isTerminal]
    · cases taken
      simp [here, leaveRank, stop]
    · cases taken
      simp [here, leaveRank, stop]
  case h_5 message here =>
    rw [if_pos stop] at taken
    cases taken
    cases message <;> simp [here, leaveRank, stop, isTerminal, afterPut]
  case h_6 message here =>
    split at taken
    · cases taken
      cases message <;> simp [here, leaveRank, stop, isTerminal, afterPut]
    · cases taken
  case h_7 terminal here =>
    cases taken
    have last := @closedWith_terminal _ _ producer _ (kept.terminal terminal here)
    simp [here, leaveRank, stop, last]
  case h_8 => cases taken

theorem leaveRank_pumpTimeout (taken : pumpTimeout state = some next) :
    next.stop = state.stop ∧ 1 + leaveRank next.pump ≤ leaveRank state.pump := by
  unfold pumpTimeout at taken
  split at taken
  case h_1 here =>
    split at taken
    · cases taken
      simp [here, leaveRank]
    · cases taken
  case h_2 message _ here _ =>
    cases taken
    cases message <;> simp [here, leaveRank, isTerminal]
  case h_3 => cases taken

/-- The consumer and the user leave the pump and a set flag as they are. -/
theorem pump_unmoved {action : PrefetchAction} (other : ofPump action = 0)
    (taken : step producer state action = some next) :
    next.pump = state.pump ∧ next.advances = state.advances ∧ next.observed = state.observed ∧
      (state.stop = true → next.stop = true) := by
  have user : ∀ close, userStep state close = some next → next.pump = state.pump ∧
      next.advances = state.advances ∧ next.observed = state.observed ∧ (state.stop = true → next.stop = true) := by
    intro close moved
    unfold userStep at moved
    split at moved
    · cases moved
      exact ⟨rfl, rfl, rfl, id⟩
    · cases moved
  cases action with
  | pump => cases other
  | pumpTimeout => cases other
  | consumer =>
      simp only [step, consumerStep] at taken
      split at taken
      · obtain ⟨_, _, rfl⟩ := Option.map_eq_some_iff.mp taken
        exact ⟨rfl, rfl, rfl, id⟩
      · cases taken
        exact ⟨rfl, rfl, rfl, id⟩
      · cases taken
      · cases taken
        exact ⟨rfl, rfl, rfl, fun _ => rfl⟩
      · split at taken
        · cases taken
          exact ⟨rfl, rfl, rfl, id⟩
        · cases taken
      · cases taken
  | joinTimeout =>
      simp only [step, joinTimeout] at taken
      split at taken
      · cases taken
        exact ⟨rfl, rfl, rfl, id⟩
      · cases taken
        exact ⟨rfl, rfl, rfl, id⟩
      · cases taken
  | resume => exact user false taken
  | close => exact user true taken

theorem leaveRank_le (pump : PumpPoint Item Error) : leaveRank pump ≤ 5 := by
  cases pump with
  | put message => cases message <;> simp [leaveRank, isTerminal]
  | offer message => cases message <;> simp [leaveRank, isTerminal]
  | check => simp [leaveRank]
  | acquire => simp [leaveRank]
  | recheck => simp [leaveRank]
  | advance => simp [leaveRank]
  | close terminal => simp [leaveRank]
  | exited => simp [leaveRank]

theorem leaveRank_step {action : PrefetchAction} (held : state.Kept producer ∧ state.stop = true)
    (taken : step producer state action = some next) :
    ofPump action + leaveRank next.pump ≤ leaveRank state.pump := by
  by_cases other : ofPump action = 0
  · rw [other, (pump_unmoved other taken).1, Nat.zero_add]
  · cases action with
    | pump => exact (leaveRank_pump held.1 held.2 taken).2
    | pumpTimeout => exact (leaveRank_pumpTimeout taken).2
    | consumer => exact absurd rfl other
    | joinTimeout => exact absurd rfl other
    | resume => exact absurd rfl other
    | close => exact absurd rfl other

theorem stopped_step {action : PrefetchAction} (held : state.Kept producer ∧ state.stop = true)
    (taken : step producer state action = some next) : next.Kept producer ∧ next.stop = true := by
  refine ⟨step_kept state action next held.1 taken, ?_⟩
  by_cases other : ofPump action = 0
  · exact (pump_unmoved other taken).2.2.2 held.2
  · cases action with
    | pump => exact (leaveRank_pump held.1 held.2 taken).1
    | pumpTimeout => exact (leaveRank_pumpTimeout taken).1.trans held.2
    | consumer => exact absurd rfl other
    | joinTimeout => exact absurd rfl other
    | resume => exact absurd rfl other
    | close => exact absurd rfl other

/-- Once the pump has seen the flag it asks for no further item. -/
theorem Kept.quiet (kept : state.Kept producer) (observed : state.observed = true) {action : PrefetchAction}
    (taken : step producer state action = some next) :
    next.advances = state.advances ∧ next.observed = true := by
  obtain ⟨stop, away⟩ := kept.seen observed
  cases action with
  | pump =>
      simp only [step, pumpStep] at taken
      split at taken
      case h_4 here =>
        have inside := away (by rw [here]; rfl)
        rw [here] at inside
        cases inside
      all_goals
        try split at taken
        all_goals
          cases taken
          try exact ⟨rfl, rfl⟩
          try exact ⟨rfl, observed⟩
  | pumpTimeout =>
      simp only [step, pumpTimeout] at taken
      split at taken
      · split at taken
        · cases taken
          exact ⟨rfl, observed⟩
        · cases taken
      · cases taken
        exact ⟨rfl, observed⟩
      · cases taken
  | consumer =>
      obtain ⟨-, same, seen, -⟩ := pump_unmoved rfl taken
      exact ⟨same, seen.trans observed⟩
  | joinTimeout =>
      obtain ⟨-, same, seen, -⟩ := pump_unmoved rfl taken
      exact ⟨same, seen.trans observed⟩
  | resume =>
      obtain ⟨-, same, seen, -⟩ := pump_unmoved rfl taken
      exact ⟨same, seen.trans observed⟩
  | close =>
      obtain ⟨-, same, seen, -⟩ := pump_unmoved rfl taken
      exact ⟨same, seen.trans observed⟩

/-- With the flag set, the pump can go on until it has ended. -/
theorem Kept.leaving_enabled (stop : state.stop = true) (working : state.pump ≠ .exited) :
    (pumpStep producer state).isSome = true ∨ (pumpTimeout state).isSome = true := by
  cases pump : state.pump with
  | check => simp [pumpStep, pump, stop]
  | acquire =>
      by_cases free : 0 < state.slot
      · simp [pumpStep, pump, free]
      · simp [pumpTimeout, pump, Nat.eq_zero_of_not_pos free]
  | recheck => simp [pumpStep, pump, stop]
  | advance => cases answer : producer.next state.advances <;> simp [pumpStep, pump, answer]
  | put message => simp [pumpStep, pump, stop]
  | offer message => cases ready : state.ready <;> simp [pumpStep, pumpTimeout, pump, ready]
  | close terminal => simp [pumpStep, pump]
  | exited => exact absurd pump working

variable (producer) in
/-- What `prefetch_weights` promises in every state. -/
structure Transparent (state : Prefetch Item Error) : Prop where
  items : ∀ place value, state.received[place]? = some value → producer.next place = .item value
  complete : ∀ outcome, state.consumer = .ended outcome → state.quit = false →
    Shows producer state.received.length outcome
  lookahead : state.received <+: state.produced ∧ state.produced.length ≤ state.received.length + 1
  closes : state.closes ≤ 1 ∧ (state.pump = .exited → state.closes = 1)
  quiet : state.observed = true → ∀ action next, step producer state action = some next →
    next.advances = state.advances ∧ next.observed = true
  progress : (∀ outcome, state.consumer ≠ .ended outcome) →
    ∃ action, action ≠ .close ∧ ¬Idle state action ∧ (step producer state action).isSome = true
  leaves : state.stop = true → state.pump ≠ .exited →
    (pumpStep producer state).isSome = true ∨ (pumpTimeout state).isSome = true

theorem Kept.transparent (kept : state.Kept producer) : state.Transparent producer where
  items place value found := by
    obtain ⟨rest, whole⟩ := kept.got
    have bound := (List.getElem?_eq_some_iff.mp found).1
    apply kept.made
    rw [← whole, List.getElem?_append_left bound]
    exact found
  complete outcome ended stays := kept.shows outcome (by rw [ended]; rfl) stays
  lookahead := by
    have bounded := kept.bounded
    exact ⟨kept.got, by omega⟩
  closes := by
    have closing := kept.closing
    refine ⟨by omega, fun gone => ?_⟩
    rw [gone] at closing
    exact closing
  quiet observed _ _ taken := kept.quiet observed taken
  progress := kept.progress
  leaves stop working := leaving_enabled stop working

/-- For every producer and every interleaving of the pump with its consumer: the consumer gets the
items of the producer in order, and unless it stops early it ends as the producer and its `close` do;
at most one item is made ahead; the pump closes the producer once and asks for nothing after it has
seen the stop flag. Nothing blocks: a generator over a producer that ends takes a bounded number of
steps apart from expired waits, and after the flag is set the pump takes at most five steps to its
end. -/
theorem pump_transparent (producer : Producer Item Error) (actions : List PrefetchAction)
    (state : Prefetch Item Error) (reached : Run.run (step producer) started actions = some state) :
    state.Transparent producer ∧
      (∀ count, endOf (producer.next count) ≠ none → ∀ more last,
        Run.Meets (step producer) (fun state action => ¬Idle state action) state more →
          Run.run (step producer) state more = some last → more.length ≤ 20 * count + 28) ∧
      (state.stop = true → ∀ more last, Run.run (step producer) state more = some last →
        (more.map ofPump).sum ≤ 5) := by
  have kept := Run.run_invariant step_kept started_kept reached
  refine ⟨kept.transparent, ?_, ?_⟩
  · intro count ends more last busy ran
    have paid := Run.run_cost step_kept (fun state action next kept busy taken =>
      (Nat.add_comm 1 _).trans_le (rank_step kept ends busy taken)) kept busy ran
    have length : (more.map fun _ => 1).sum = more.length := by simp
    have limit := rank_le count state
    omega
  · intro stop more last ran
    have keeps : ∀ (state : Prefetch Item Error) action next, state.Kept producer ∧ state.stop = true →
        step producer state action = some next → next.Kept producer ∧ next.stop = true :=
      fun _ _ _ held taken => stopped_step held taken
    have meets := @Run.meets_of_forall _ _ (step producer) (fun _ _ => True) (fun _ _ => trivial) state more
    have paid : (more.map ofPump).sum + leaveRank last.pump ≤ leaveRank state.pump :=
      Run.run_cost keeps (fun _ _ _ held _ taken => leaveRank_step held taken) ⟨kept, stop⟩ meets ran
    have limit := leaveRank_le state.pump
    omega

/-- Two items, then the end. -/
def twoItems : Producer Nat Nat where
  next place := if place < 2 then .item place else .stop
  closeError := none

/-- The pump works ahead while the consumer holds the first item. -/
def bothTaken : List PrefetchAction :=
  [.pump, .pump, .pump, .pump, .pump, .pump, .consumer, .consumer, .pump, .pump, .pump, .pump, .pump, .pump, .resume,
    .consumer, .consumer, .pump, .pump, .pump, .pump, .pump, .resume, .pump, .pump, .consumer, .consumer, .consumer,
    .consumer]

theorem pump_transparent_bothTaken :
    ∃ state, Run.run (step twoItems) started bothTaken = some state ∧ state.Transparent twoItems ∧
      state.received = [0, 1] ∧ state.pump = .exited := by
  have ends : (Run.run (step twoItems) started bothTaken).map (fun state => (state.received, state.pump)) =
      some ([0, 1], .exited) := by rfl
  obtain ⟨state, reached, same⟩ := Option.map_eq_some_iff.mp ends
  obtain ⟨received, gone⟩ := Prod.mk.inj same
  exact ⟨state, reached, (pump_transparent twoItems bothTaken state reached).1, received, gone⟩

end Prefetch

end DgxSpark.Nvme
