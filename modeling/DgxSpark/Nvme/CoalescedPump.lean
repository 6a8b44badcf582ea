import DgxSpark.Nvme.CoalescedContents
import DgxSpark.Nvme.PrefetchProgress

/-
This file shows that the pump of `coalesced_weights` is that of `prefetch_weights` on the answers that `produce` gives.
-/

namespace DgxSpark.Nvme

namespace Prefetch

variable {Item Error : Type} {producer other : Producer Item Error} {state next last : Prefetch Item Error}

/-- Two producers that answered alike so far. -/
structure Alike (producer other : Producer Item Error) (advances closes : Nat) : Prop where
  next : ∀ place < advances, producer.next place = other.next place
  close : closes = 0 ∨ producer.closeError = other.closeError

theorem Alike.earlier {advances closes more later : Nat} (alike : Alike producer other more later)
    (fewer : advances ≤ more) (before : closes ≤ later) : Alike producer other advances closes where
  next place below := alike.next place (below.trans_le fewer)
  close := by
    rcases alike.close with none | same
    · exact .inl (by omega)
    · exact .inr same

/-- The pump asks the producer for an item. -/
def asks : PumpPoint Item Error → Nat
  | .advance => 1
  | _ => 0

/-- The pump closes the producer. -/
def shuts : PumpPoint Item Error → Nat
  | .close _ => 1
  | _ => 0

/-- A step of the pump leaves the side of the consumer alone and counts its calls. -/
structure Pumps (state next : Prefetch Item Error) : Prop where
  received : next.received = state.received
  consumer : next.consumer = state.consumer
  quit : next.quit = state.quit
  advances : next.advances = state.advances + asks state.pump
  closes : next.closes = state.closes + shuts state.pump

theorem pumpStep_pumps (taken : pumpStep producer state = some next) : Pumps state next := by
  cases point : state.pump with
  | check =>
      simp only [pumpStep, point] at taken
      split at taken <;> cases taken <;> exact ⟨rfl, rfl, rfl, by rw [point]; rfl, by rw [point]; rfl⟩
  | acquire =>
      simp only [pumpStep, point, Option.ite_none_right_eq_some, Option.some.injEq] at taken
      exact taken.2 ▸ ⟨rfl, rfl, rfl, by rw [point]; rfl, by rw [point]; rfl⟩
  | recheck =>
      simp only [pumpStep, point] at taken
      split at taken <;> cases taken <;> exact ⟨rfl, rfl, rfl, by rw [point]; rfl, by rw [point]; rfl⟩
  | advance =>
      simp only [pumpStep, point] at taken
      split at taken <;> cases taken <;> exact ⟨rfl, rfl, rfl, by rw [point]; rfl, by rw [point]; rfl⟩
  | put message =>
      simp only [pumpStep, point] at taken
      split at taken <;> cases taken <;> exact ⟨rfl, rfl, rfl, by rw [point]; rfl, by rw [point]; rfl⟩
  | offer message =>
      simp only [pumpStep, point] at taken
      split at taken <;> cases taken
      exact ⟨rfl, rfl, rfl, by rw [point]; rfl, by rw [point]; rfl⟩
  | close terminal =>
      simp only [pumpStep, point] at taken
      cases taken
      exact ⟨rfl, rfl, rfl, by rw [point]; rfl, by rw [point]; rfl⟩
  | exited =>
      simp only [pumpStep, point] at taken
      cases taken

/-- A producer that answers alike makes the same step. -/
theorem pumpStep_alike (taken : pumpStep producer state = some next)
    (alike : Alike producer other next.advances next.closes) : pumpStep other state = some next := by
  cases point : state.pump with
  | advance =>
      have asked := (pumpStep_pumps taken).advances
      rw [point] at asked
      have same := alike.next state.advances (asked ▸ Nat.lt_succ_self _)
      simp only [pumpStep, point] at taken ⊢
      rw [← same]
      exact taken
  | close terminal =>
      have called := (pumpStep_pumps taken).closes
      rw [point] at called
      have same : producer.closeError = other.closeError := by
        rcases alike.close with none | same
        · exact absurd (called.symm.trans none) (Nat.succ_ne_zero _)
        · exact same
      simp only [pumpStep, point, closedWith] at taken ⊢
      rw [← same]
      exact taken
  | check => simpa only [pumpStep, point] using taken
  | acquire => simpa only [pumpStep, point] using taken
  | recheck => simpa only [pumpStep, point] using taken
  | put message => simpa only [pumpStep, point] using taken
  | offer message => simpa only [pumpStep, point] using taken
  | exited => simpa only [pumpStep, point] using taken

/-- Only the pump calls the producer. -/
theorem step_uncalled {action : PrefetchAction} (beside : action ≠ .pump)
    (taken : step producer state action = some next) : next.advances = state.advances ∧ next.closes = state.closes := by
  cases action with
  | pump => exact absurd rfl beside
  | pumpTimeout =>
      simp only [step, pumpTimeout] at taken
      split at taken
      case h_1 =>
        split at taken <;> cases taken
        exact ⟨rfl, rfl⟩
      case h_2 =>
        cases taken
        exact ⟨rfl, rfl⟩
      case h_3 => cases taken
  | consumer =>
      simp only [step, consumerStep] at taken
      split at taken
      case h_1 =>
        obtain ⟨message, _, same⟩ := Option.map_eq_some_iff.mp taken
        exact same ▸ ⟨rfl, rfl⟩
      case h_2 =>
        cases taken
        exact ⟨rfl, rfl⟩
      case h_3 => cases taken
      case h_4 =>
        cases taken
        exact ⟨rfl, rfl⟩
      case h_5 =>
        split at taken <;> cases taken
        exact ⟨rfl, rfl⟩
      case h_6 => cases taken
  | joinTimeout =>
      simp only [step, joinTimeout] at taken
      split at taken <;> cases taken <;> exact ⟨rfl, rfl⟩
  | resume =>
      simp only [step, userStep] at taken
      split at taken <;> cases taken
      exact ⟨rfl, rfl⟩
  | close =>
      simp only [step, userStep] at taken
      split at taken <;> cases taken
      exact ⟨rfl, rfl⟩

theorem step_counts {action : PrefetchAction} (taken : step producer state action = some next) :
    state.advances ≤ next.advances ∧ state.closes ≤ next.closes := by
  by_cases pump : action = .pump
  · subst pump
    have pumps := pumpStep_pumps taken
    exact ⟨pumps.advances ▸ Nat.le_add_right _ _, pumps.closes ▸ Nat.le_add_right _ _⟩
  · have same := step_uncalled pump taken
    exact ⟨same.1.ge, same.2.ge⟩

theorem step_alike {action : PrefetchAction} (taken : step producer state action = some next)
    (alike : Alike producer other next.advances next.closes) : step other state action = some next := by
  cases action with
  | pump => exact pumpStep_alike taken alike
  | _ => exact taken

/-- A run is one of every producer that answered alike. -/
theorem run_alike {actions : List PrefetchAction} (reached : Run.run (step producer) state actions = some last)
    (alike : Alike producer other last.advances last.closes) : Run.run (step other) state actions = some last := by
  induction actions using List.reverseRecOn generalizing last with
  | nil => exact reached
  | append_singleton before action ih =>
      obtain ⟨middle, early, taken⟩ := Run.run_concat_some.mp reached
      have counts := step_counts taken
      exact Run.run_concat_some.mpr ⟨middle, ih early (alike.earlier counts.1 counts.2), step_alike taken alike⟩

end Prefetch

end DgxSpark.Nvme

namespace DgxSpark.Nvme.Coalesced

open Library Streaming

variable {DType : Type}

namespace CoalescedWeights

/-- The producer that gave these answers. -/
def oracle (answers : List (Next Item CoalescedError)) (closeError : Option CoalescedError) :
    Producer Item CoalescedError := ⟨fun place => (answers[place]?).getD (.raise .outside), closeError⟩

/-- What was answered is what `produce` did. -/
structure Told (state : CoalescedWeights DType) : Prop where
  asked : state.answers.length = state.prefetch.advances
  items : ∀ (index : Nat) (item : Item), state.answers[index]? = some (Next.item item) →
    item.index = index ∧ state.source.events[index]? = some item.event
  stops : ∀ (index : Nat), state.answers[index]? = some Next.stop →
    index = state.source.events.length ∧ state.source.point = .ended .completed
  fresh : (∀ ending, state.source.point ≠ .ended ending) → state.answers.length = state.source.events.length

/-- The two threads ran as those of `prefetch_weights` on these answers. -/
def Driven (state : CoalescedWeights DType) : Prop :=
  ∃ actions, Run.run (Prefetch.step (oracle state.answers state.closeError)) Prefetch.started actions =
    some state.prefetch

variable {call : CoalescedCall DType} {disk : Disk} {batches : List (Batch DType)}
  {state next : CoalescedWeights DType}

theorem Driven.kept (driven : state.Driven) : state.prefetch.Kept (oracle state.answers state.closeError) := by
  obtain ⟨actions, reached⟩ := driven
  exact Run.run_invariant Prefetch.step_kept Prefetch.started_kept reached

/-- A step of the threads that asks for nothing. -/
theorem Driven.step (driven : state.Driven) {action : PrefetchAction} {prefetch : Prefetch Item CoalescedError}
    (taken : Prefetch.step (oracle state.answers state.closeError) state.prefetch action = some prefetch)
    {point : Point DType} {source : Source} {complete : Bool} {yields : List (Yielded DType)} :
    (CoalescedWeights.mk point prefetch source complete state.answers state.closeError yields).Driven := by
  obtain ⟨actions, reached⟩ := driven
  exact ⟨actions ++ [action], Run.run_concat_some.mpr ⟨state.prefetch, reached, taken⟩⟩

/-- What a step of the pump does: `produce` answers its `next` or its `close`, or it goes on alone. -/
inductive Pumped (state : CoalescedWeights DType) : CoalescedWeights DType → Prop where
  | asks {answer : Next Item CoalescedError} {source : Source} {prefetch : Prefetch Item CoalescedError}
      (point : state.prefetch.pump = .advance) (answered : state.source.answer = some (answer, source))
      (taken : Prefetch.pumpStep (answering answer none) state.prefetch = some prefetch) :
      Pumped state { state with prefetch := prefetch, source := source, answers := state.answers ++ [answer] }
  | closes {terminal : Message Item CoalescedError} {closeError : Option CoalescedError} {source : Source}
      {prefetch : Prefetch Item CoalescedError} (point : state.prefetch.pump = .close terminal)
      (closed : state.source.closed = some (closeError, source))
      (taken : Prefetch.pumpStep (answering .stop closeError) state.prefetch = some prefetch) :
      Pumped state { state with prefetch := prefetch, source := source, closeError := closeError }
  | alone {prefetch : Prefetch Item CoalescedError} (asking : state.prefetch.pump ≠ .advance)
      (closing : ∀ terminal, state.prefetch.pump ≠ .close terminal)
      (taken : Prefetch.pumpStep (answering .stop none) state.prefetch = some prefetch) :
      Pumped state { state with prefetch := prefetch }

theorem pump_pumped (taken : state.pump = some next) : state.Pumped next := by
  unfold pump at taken
  split at taken
  case h_1 point =>
    obtain ⟨⟨answer, source⟩, answered, taken⟩ := Option.bind_eq_some_iff.mp taken
    obtain ⟨prefetch, stepped, taken⟩ := Option.bind_eq_some_iff.mp taken
    cases taken
    exact .asks point answered stepped
  case h_2 terminal point =>
    obtain ⟨⟨closeError, source⟩, closed, taken⟩ := Option.bind_eq_some_iff.mp taken
    obtain ⟨prefetch, stepped, taken⟩ := Option.bind_eq_some_iff.mp taken
    cases taken
    exact .closes point closed stepped
  case h_3 asking closing =>
    obtain ⟨prefetch, stepped, taken⟩ := Option.bind_eq_some_iff.mp taken
    cases taken
    exact .alone asking closing stepped

/-- The pump of the machine takes the step of the pump on the answers, which begin as before. -/
theorem Pumped.answered (driven : state.Driven) (told : state.Told) (pumped : state.Pumped next) :
    Prefetch.Alike (oracle state.answers state.closeError) (oracle next.answers next.closeError)
        state.prefetch.advances state.prefetch.closes ∧
      Prefetch.pumpStep (oracle next.answers next.closeError) state.prefetch = some next.prefetch := by
  cases pumped with
  | @asks answer source prefetch point answered taken =>
      refine ⟨⟨?_, .inr rfl⟩, ?_⟩
      · intro place below
        rw [← told.asked] at below
        simp only [oracle, List.getElem?_append_left below]
      · have here : (oracle (state.answers ++ [answer]) state.closeError).next state.prefetch.advances = answer := by
          show ((state.answers ++ [answer])[state.prefetch.advances]?).getD _ = _
          rw [← told.asked, List.getElem?_concat_length, Option.getD_some]
        simp only [Prefetch.pumpStep, point, answering] at taken ⊢
        rw [here]
        exact taken
  | @closes terminal closeError source prefetch point closed taken =>
      have never : state.prefetch.closes = 0 := by
        have due := driven.kept.closing
        simp only [point, Prefetch.closeDue] at due
        omega
      refine ⟨⟨fun _ _ => rfl, .inl never⟩, ?_⟩
      simp only [Prefetch.pumpStep, point, answering, Prefetch.closedWith, oracle] at taken ⊢
      exact taken
  | @alone prefetch asking closing taken =>
      refine ⟨⟨fun _ _ => rfl, .inr rfl⟩, ?_⟩
      cases point : state.prefetch.pump with
      | advance => exact absurd point asking
      | close terminal => exact absurd point (closing terminal)
      | check => simpa only [Prefetch.pumpStep, point] using taken
      | acquire => simpa only [Prefetch.pumpStep, point] using taken
      | recheck => simpa only [Prefetch.pumpStep, point] using taken
      | put message => simpa only [Prefetch.pumpStep, point] using taken
      | offer message => simpa only [Prefetch.pumpStep, point] using taken
      | exited => simpa only [Prefetch.pumpStep, point] using taken

theorem Driven.pump (driven : state.Driven) (told : state.Told) (pumped : state.Pumped next) : next.Driven := by
  obtain ⟨alike, taken⟩ := pumped.answered driven told
  obtain ⟨actions, reached⟩ := driven
  have stepped : Prefetch.step (oracle next.answers next.closeError) state.prefetch .pump = some next.prefetch := taken
  exact ⟨actions ++ [.pump], Run.run_concat_some.mpr ⟨state.prefetch, Prefetch.run_alike reached alike, stepped⟩⟩

/-- An answer is told, and `produce` records what it was. -/
theorem Told.answer (told : state.Told) (sound : state.source.Sound call disk batches) {answer : Next Item CoalescedError} {source : Source}
    (answered : state.source.answer = some (answer, source)) {prefetch : Prefetch Item CoalescedError}
    (asked : prefetch.advances = state.prefetch.advances + 1) :
    ({ state with prefetch := prefetch, source := source, answers := state.answers ++ [answer] } :
      CoalescedWeights DType).Told := by
  have counted : (state.answers ++ [answer]).length = prefetch.advances := by
    rw [List.length_append, told.asked, asked]
    rfl
  have earlier : ∀ (index : Nat) value, (state.answers ++ [answer])[index]? = some value →
      state.answers[index]? = some value ∨ index = state.answers.length ∧ value = answer := by
    intro index value found
    rcases Nat.lt_trichotomy index state.answers.length with below | rfl | beyond
    · exact .inl ((List.getElem?_append_left below).symm.trans found)
    · rw [List.getElem?_concat_length] at found
      exact .inr ⟨rfl, (Option.some.inj found).symm⟩
    · rw [List.getElem?_eq_none (by rw [List.length_append]; exact beyond)] at found
      cases found
  unfold Source.answer at answered
  split at answered
  case h_1 index finalEvent point =>
    cases answered
    have fresh := told.fresh (by simp [point])
    refine ⟨counted, ?_, ?_, ?_⟩
    · intro place item found
      rcases earlier place _ found with before | ⟨rfl, same⟩
      · obtain ⟨same, event⟩ := told.items place item before
        exact ⟨same, (List.getElem?_append_left (List.getElem?_eq_some_iff.mp event).1).trans event⟩
      · cases same
        have here := sound.point
        rw [point] at here
        obtain ⟨batch, batching⟩ := here
        refine ⟨batching.turn.trans fresh.symm, ?_⟩
        rw [fresh]
        exact List.getElem?_concat_length
    · intro place found
      rcases earlier place _ found with before | ⟨rfl, same⟩
      · exact absurd ((told.stops place before).2.symm.trans point) (by simp)
      · cases same
    · intro _
      rw [List.length_append, List.length_append, fresh]
      rfl
  case h_2 point =>
    cases answered
    have fresh := told.fresh (by simp [point])
    refine ⟨counted, ?_, ?_, fun alive => absurd rfl (alive _)⟩
    · intro place item found
      rcases earlier place _ found with before | ⟨rfl, same⟩
      · exact told.items place item before
      · cases same
    · intro place found
      rcases earlier place _ found with before | ⟨rfl, same⟩
      · exact absurd ((told.stops place before).2.symm.trans point) (by simp)
      · exact ⟨fresh, rfl⟩
  case h_3 error point =>
    cases answered
    refine ⟨counted, ?_, ?_, fun alive => absurd rfl (alive _)⟩
    · intro place item found
      rcases earlier place _ found with before | ⟨rfl, same⟩
      · exact told.items place item before
      · cases same
    · intro place found
      rcases earlier place _ found with before | ⟨rfl, same⟩
      · exact absurd ((told.stops place before).2.symm.trans point) (by simp)
      · cases same
  case h_4 => cases answered

theorem Told.closed (told : state.Told) {closeError : Option CoalescedError} {source : Source}
    (closed : state.source.closed = some (closeError, source)) {prefetch : Prefetch Item CoalescedError}
    (asked : prefetch.advances = state.prefetch.advances) :
    ({ state with prefetch := prefetch, source := source, closeError := closeError } : CoalescedWeights DType).Told := by
  unfold Source.closed at closed
  split at closed
  case h_1 point =>
    cases closed
    refine ⟨told.asked.trans asked.symm, told.items, ?_, fun alive => absurd rfl (alive _)⟩
    intro place found
    exact absurd ((told.stops place found).2.symm.trans point) (by simp)
  case h_2 error point =>
    cases closed
    refine ⟨told.asked.trans asked.symm, told.items, ?_, fun alive => absurd rfl (alive _)⟩
    intro place found
    exact absurd ((told.stops place found).2.symm.trans point) (by simp)
  case h_3 =>
    cases closed
    exact ⟨told.asked.trans asked.symm, told.items, told.stops, told.fresh⟩
  case h_4 => cases closed

theorem Told.pump (told : state.Told) (sound : state.source.Sound call disk batches) (pumped : state.Pumped next) :
    next.Told := by
  cases pumped with
  | @asks answer source prefetch point answered taken =>
      have asked := (Prefetch.pumpStep_pumps taken).advances
      rw [point] at asked
      exact told.answer sound answered asked
  | @closes terminal closeError source prefetch point closed taken =>
      have asked := (Prefetch.pumpStep_pumps taken).advances
      rw [point] at asked
      exact told.closed closed asked
  | @alone prefetch asking closing taken =>
      have asked := (Prefetch.pumpStep_pumps taken).advances
      have none : Prefetch.asks state.prefetch.pump = 0 := by
        cases point : state.prefetch.pump with
        | advance => exact absurd point asking
        | _ => rfl
      exact ⟨told.asked.trans (by rw [asked, none]; rfl), told.items, told.stops, told.fresh⟩

end CoalescedWeights

end DgxSpark.Nvme.Coalesced
