import DgxSpark.Nvme.Prefetch

/-
This file shows what every step of the pump and of its consumer keeps.
-/

namespace DgxSpark.Nvme

namespace Prefetch

variable {Item Error : Type} {producer : Producer Item Error} {state next : Prefetch Item Error}

theorem closedWith_terminal {terminal : Message Item Error} (ends : isTerminal terminal = true) :
    isTerminal (closedWith producer terminal) = true := by
  unfold closedWith
  split
  · rfl
  · exact ends

theorem itemOf_terminal {message : Message Item Error} (ends : isTerminal message = true) : itemOf message = [] := by
  cases message with
  | tensor value => cases ends
  | done => rfl
  | error error => rfl

/-- The pump goes to another point, with the items and permits that it has. -/
theorem Kept.moved (kept : state.Kept producer) {pump : PumpPoint Item Error} {slot advances closes : Nat}
    {observed : Bool} (left : state.pump ≠ .exited)
    (asked : looping pump = true → advances = state.produced.length)
    (held : state.stop = false → atPump pump = atPump state.pump ∧
      slot + mayAdvance pump + mayEnd pump = state.slot + mayAdvance state.pump + mayEnd state.pump ∧
        PumpEnds producer state.produced.length pump)
    (claims : slot + mayAdvance pump ≤ state.slot + mayAdvance state.pump)
    (stays : state.stop = false → pump ≠ .exited) (closing : closes + closeDue pump = 1)
    (terminal : ∀ message, pump = .close message → isTerminal message = true)
    (seen : observed = true → state.stop = true ∧ (looping pump = true → pump = .check)) :
    { state with
      pump := pump
      slot := slot
      advances := advances
      closes := closes
      observed := observed }.Kept producer where
  made := kept.made
  asked := asked
  got := kept.got
  whole running := by
    dsimp only
    rw [(held running).1]
    exact kept.whole running
  permits running := by
    have before := kept.permits running
    have same := (held running).2.1
    dsimp only
    omega
  bounded := by
    have before := kept.bounded
    dsimp only
    omega
  pumpEnds running := (held running).2.2
  queueEnds := kept.queueEnds
  handed := kept.handed
  shows := kept.shows
  waits gone running := absurd gone (stays running)
  joined done same := absurd (kept.joined done same) left
  last ends := absurd (kept.last ends) left
  flag := kept.flag
  closing := closing
  terminal := terminal
  seen := seen

theorem Kept.unseen (kept : state.Kept producer) (running : state.stop = false) : state.observed = false := by
  cases observed : state.observed with
  | false => rfl
  | true => exact absurd (running.symm.trans (kept.seen observed).1) Bool.false_ne_true

/-- The pump is at a point of its loop where it cannot have seen the flag. -/
theorem Kept.unaware (kept : state.Kept producer) (loops : looping state.pump = true) (away : state.pump ≠ .check) :
    state.observed = false := by
  cases observed : state.observed with
  | false => rfl
  | true => exact absurd ((kept.seen observed).2 loops) away

/-- The pump leaves its loop when it sees the flag. -/
theorem Kept.leaves (kept : state.Kept producer) (stop : state.stop = true) (due : closeDue state.pump = 1)
    (left : state.pump ≠ .exited) : { state with pump := .close .done, observed := true }.Kept producer := by
  have closing := kept.closing
  rw [due] at closing
  apply kept.moved left
  · exact fun again => absurd again Bool.false_ne_true
  · exact fun running => absurd (running.symm.trans stop) Bool.false_ne_true
  · exact Nat.add_le_add_left (Nat.zero_le _) _
  · simp
  · exact closing
  · intro message same
    cases same
    rfl
  · exact fun _ => ⟨stop, fun again => absurd again Bool.false_ne_true⟩

/-- An item from the producer. -/
theorem Kept.makes (kept : state.Kept producer) (here : state.pump = .advance) {value : Item}
    (answer : producer.next state.advances = .item value) :
    { state with
      pump := .put (.tensor value)
      produced := state.produced ++ [value]
      advances := state.advances + 1 }.Kept producer := by
  have count : state.advances = state.produced.length := kept.asked (by rw [here]; rfl)
  constructor
  · intro place item found
    rcases Nat.lt_or_ge place state.produced.length with inside | outside
    · exact kept.made place item ((List.getElem?_append_left inside).symm.trans found)
    · rw [List.getElem?_append_right outside] at found
      have last : place = state.produced.length := by
        have bound := (List.getElem?_eq_some_iff.mp found).1
        simp only [List.length_singleton] at bound
        omega
      rw [last, Nat.sub_self] at found
      cases found
      rw [last, ← count]
      exact answer
  · intro
    simp [count]
  · exact kept.got.trans (List.prefix_append _ _)
  · intro running
    have whole := kept.whole running
    rw [here] at whole
    simp only [atPump, List.append_nil, itemOf] at whole ⊢
    rw [whole, List.append_assoc]
  · intro running
    have permits := kept.permits running
    simp [here, mayAdvance, mayEnd, isTerminal] at permits ⊢
    omega
  · have bounded := kept.bounded
    simp [here, mayAdvance] at bounded ⊢
    omega
  · exact fun _ terminal => absurd terminal Bool.false_ne_true
  · intro running
    have permits := kept.permits running
    have ends := kept.queueEnds running
    cases ready : state.ready with
    | none => trivial
    | some message =>
        intro terminal
        -- a terminal message in the queue would hold the permit of the pump
        have whole := congrArg List.length (kept.whole running)
        simp [here, ready, mayAdvance, mayEnd, queuePermit, terminal] at permits whole
        omega
  · exact kept.handed
  · exact kept.shows
  · exact fun gone => absurd gone (by simp)
  · intro done same
    have gone := kept.joined done same
    rw [here] at gone
    cases gone
  · intro ends
    have gone := kept.last ends
    rw [here] at gone
    cases gone
  · exact kept.flag
  · have closing := kept.closing
    rw [here] at closing
    exact closing
  · exact fun _ same => absurd same (by simp)
  · intro observed
    have unseen := kept.unaware (by rw [here]; rfl) (by rw [here]; simp)
    exact absurd (unseen.symm.trans observed) Bool.false_ne_true

/-- An item goes into the queue, and the pump returns to its loop. -/
theorem Kept.offersItem (kept : state.Kept producer) {value : Item} (here : state.pump = .offer (.tensor value))
    (free : state.ready = none) :
    { state with pump := .check, ready := some (.tensor value) }.Kept producer where
  made := kept.made
  asked _ := kept.asked (by rw [here]; rfl)
  got := kept.got
  whole running := by
    have whole := kept.whole running
    simpa [here, free, inQueue, atPump, itemOf] using whole
  permits running := by
    have permits := kept.permits running
    simpa [here, free, mayAdvance, mayEnd, queuePermit, isTerminal] using permits
  bounded := by
    have bounded := kept.bounded
    simpa [here, mayAdvance] using bounded
  pumpEnds _ := trivial
  queueEnds _ terminal := absurd terminal Bool.false_ne_true
  handed := kept.handed
  shows := kept.shows
  waits gone := absurd gone (by simp)
  joined done same := by
    have gone := kept.joined done same
    rw [here] at gone
    cases gone
  last ends := absurd ends Nat.zero_ne_one
  flag := kept.flag
  closing := by
    have closing := kept.closing
    rw [here] at closing
    exact closing
  terminal _ same := absurd same (by simp)
  seen observed := by
    have unseen := kept.unaware (by rw [here]; rfl) (by rw [here]; simp)
    exact absurd (unseen.symm.trans observed) Bool.false_ne_true

/-- The terminal message goes into the queue, and the pump ends. -/
theorem Kept.offersEnd (kept : state.Kept producer) {message : Message Item Error}
    (here : state.pump = .offer message) (terminal : isTerminal message = true) (free : state.ready = none) :
    { state with pump := .exited, ready := some message }.Kept producer where
  made := kept.made
  asked again := absurd again Bool.false_ne_true
  got := kept.got
  whole running := by
    have whole := kept.whole running
    simpa [here, free, inQueue, atPump] using whole
  permits running := by
    have permits := kept.permits running
    simpa [here, free, mayAdvance, mayEnd, queuePermit, terminal, add_right_comm] using permits
  bounded := by
    have bounded := kept.bounded
    simpa [here, mayAdvance] using bounded
  pumpEnds _ := trivial
  queueEnds running := by
    have ends := kept.pumpEnds running
    rw [here] at ends
    exact ends
  handed := kept.handed
  shows := kept.shows
  waits _ _ := .inl (if_pos terminal)
  joined _ _ := rfl
  last _ := rfl
  flag := kept.flag
  closing := by
    have closing := kept.closing
    simpa [here, closeDue, terminal] using closing
  terminal _ same := absurd same (by simp)
  seen observed := ⟨(kept.seen observed).1, fun again => absurd again Bool.false_ne_true⟩

theorem pumpStep_kept (kept : state.Kept producer) (taken : pumpStep producer state = some next) :
    next.Kept producer := by
  unfold pumpStep at taken
  have closing := kept.closing
  split at taken
  case h_1 here =>
    have left : state.pump ≠ .exited := by simp [here]
    split at taken
    case isTrue stop =>
      cases taken
      exact kept.leaves stop (by rw [here]; rfl) left
    case isFalse running =>
      cases taken
      rw [here] at closing
      apply kept.moved left
      · exact fun _ => kept.asked (by rw [here]; rfl)
      · simp [here, atPump, mayAdvance, mayEnd, PumpEnds]
      · simp [here, mayAdvance]
      · simp
      · exact closing
      · exact fun _ same => absurd same (by simp)
      · intro observed
        exact absurd (kept.seen observed).1 running
  case h_2 here =>
    have left : state.pump ≠ .exited := by simp [here]
    split at taken
    case isTrue free =>
      cases taken
      rw [here] at closing
      apply kept.moved left
      · exact fun _ => kept.asked (by rw [here]; rfl)
      · simp [here, atPump, mayAdvance, mayEnd, PumpEnds]
        omega
      · simp [here, mayAdvance]
        omega
      · simp
      · exact closing
      · exact fun _ same => absurd same (by simp)
      · intro observed
        have unseen := kept.unaware (by rw [here]; rfl) (by rw [here]; simp)
        exact absurd (unseen.symm.trans observed) Bool.false_ne_true
    case isFalse => cases taken
  case h_3 here =>
    have left : state.pump ≠ .exited := by simp [here]
    split at taken
    case isTrue stop =>
      cases taken
      exact kept.leaves stop (by rw [here]; rfl) left
    case isFalse running =>
      cases taken
      rw [here] at closing
      apply kept.moved left
      · exact fun _ => kept.asked (by rw [here]; rfl)
      · simp [here, atPump, mayAdvance, mayEnd, PumpEnds]
      · simp [here, mayAdvance]
      · simp
      · exact closing
      · exact fun _ same => absurd same (by simp)
      · intro observed
        exact absurd (kept.seen observed).1 running
  case h_4 here =>
    have left : state.pump ≠ .exited := by simp [here]
    have count : state.advances = state.produced.length := kept.asked (by rw [here]; rfl)
    have unseen := kept.unaware (by rw [here]; rfl) (by rw [here]; simp)
    split at taken
    case h_1 value answer =>
      cases taken
      exact kept.makes here answer
    case h_2 answer =>
      cases taken
      rw [here] at closing
      apply kept.moved left
      · exact fun again => absurd again Bool.false_ne_true
      · rw [count] at answer
        simp [here, atPump, mayAdvance, mayEnd, PumpEnds, answer, endOf]
      · simp [here, mayAdvance]
      · simp
      · exact closing
      · intro message same
        cases same
        rfl
      · exact fun observed => absurd (unseen.symm.trans observed) Bool.false_ne_true
    case h_3 error answer =>
      cases taken
      rw [here] at closing
      apply kept.moved left
      · exact fun again => absurd again Bool.false_ne_true
      · rw [count] at answer
        simp [here, atPump, mayAdvance, mayEnd, PumpEnds, answer, endOf]
      · simp [here, mayAdvance]
      · simp
      · exact closing
      · intro message same
        cases same
        rfl
      · exact fun observed => absurd (unseen.symm.trans observed) Bool.false_ne_true
  case h_5 message here =>
    have left : state.pump ≠ .exited := by simp [here]
    split at taken
    case isTrue stop =>
      cases taken
      rw [here] at closing
      apply kept.moved left
      · cases message with
        | tensor value => exact fun _ => kept.asked (by rw [here]; rfl)
        | done => exact fun again => absurd again Bool.false_ne_true
        | error error => exact fun again => absurd again Bool.false_ne_true
      · exact fun running => absurd (running.symm.trans stop) Bool.false_ne_true
      · cases message with
        | tensor value => simp [afterPut, mayAdvance]
        | done => simp [afterPut, mayAdvance]
        | error error => simp [afterPut, mayAdvance]
      · exact fun running => absurd (running.symm.trans stop) Bool.false_ne_true
      · cases message with
        | tensor value => exact closing
        | done => exact closing
        | error error => exact closing
      · cases message with
        | tensor value => exact fun _ same => absurd same (by simp [afterPut])
        | done => exact fun _ same => absurd same (by simp [afterPut])
        | error error => exact fun _ same => absurd same (by simp [afterPut])
      · refine fun _ => ⟨stop, ?_⟩
        cases message with
        | tensor value => exact fun _ => rfl
        | done => exact fun again => absurd again Bool.false_ne_true
        | error error => exact fun again => absurd again Bool.false_ne_true
    case isFalse running =>
      cases taken
      rw [here] at closing
      apply kept.moved left
      · exact fun again => kept.asked (by rw [here]; exact again)
      · intro still
        have ends := kept.pumpEnds still
        rw [here] at ends ⊢
        exact ⟨rfl, rfl, ends⟩
      · simp [here, mayAdvance]
      · simp
      · exact closing
      · exact fun _ same => absurd same (by simp)
      · exact fun observed => absurd (kept.seen observed).1 running
  case h_6 message here =>
    split at taken
    case h_1 free =>
      cases taken
      cases message with
      | tensor value => exact kept.offersItem here free
      | done => exact kept.offersEnd here rfl free
      | error error => exact kept.offersEnd here rfl free
    case h_2 => cases taken
  case h_7 terminal here =>
    have left : state.pump ≠ .exited := by simp [here]
    cases taken
    have ends := kept.terminal terminal here
    rw [here] at closing
    apply kept.moved left
    · simp [looping, closedWith_terminal ends]
    · intro running
      have before := kept.pumpEnds running
      rw [here] at before
      refine ⟨?_, ?_, fun _ => ⟨terminal, before, rfl⟩⟩
      · exact (itemOf_terminal (closedWith_terminal ends)).trans (by rw [here]; rfl)
      · simp [here, mayAdvance, mayEnd, closedWith_terminal ends]
    · simp [here, mayAdvance]
    · simp
    · simp only [closeDue, closedWith_terminal ends, if_true] at closing ⊢
      exact closing
    · exact fun _ same => absurd same (by simp)
    · refine fun observed => ⟨(kept.seen observed).1, ?_⟩
      simp [looping, closedWith_terminal ends]
  case h_8 => cases taken

theorem pumpTimeout_kept (kept : state.Kept producer) (taken : pumpTimeout state = some next) :
    next.Kept producer := by
  unfold pumpTimeout at taken
  have closing := kept.closing
  split at taken
  case h_1 here =>
    have left : state.pump ≠ .exited := by simp [here]
    split at taken
    · cases taken
      rw [here] at closing
      apply kept.moved left
      · exact fun _ => kept.asked (by rw [here]; rfl)
      · simp [here, atPump, mayAdvance, mayEnd, PumpEnds]
      · simp [here, mayAdvance]
      · simp
      · exact closing
      · exact fun _ same => absurd same (by simp)
      · exact fun observed => ⟨(kept.seen observed).1, fun _ => rfl⟩
    · cases taken
  case h_2 message _ here _ =>
    have left : state.pump ≠ .exited := by simp [here]
    cases taken
    rw [here] at closing
    apply kept.moved left
    · exact fun again => kept.asked (by rw [here]; exact again)
    · intro running
      have ends := kept.pumpEnds running
      rw [here] at ends ⊢
      exact ⟨rfl, rfl, ends⟩
    · simp [here, mayAdvance]
    · simp
    · exact closing
    · exact fun _ same => absurd same (by simp)
    · intro observed
      refine ⟨(kept.seen observed).1, fun again => ?_⟩
      have away := (kept.seen observed).2 (by rw [here]; exact again)
      rw [here] at away
      cases away
  case h_3 => cases taken

/-! ### The consumer -/

theorem Kept.running (kept : state.Kept producer) (inside : stopped state.consumer = false) : state.stop = false :=
  kept.flag.trans inside

/-- With a terminal message in the queue, every item has arrived. -/
theorem Kept.arrived (kept : state.Kept producer) (running : state.stop = false)
    (ends : queuePermit state.ready = 1) : state.produced.length = state.received.length := by
  have permits := kept.permits running
  have grows := kept.got.length_le
  omega

/-- The consumer takes a message. -/
theorem Kept.takes (kept : state.Kept producer) (here : state.consumer = .get) {message : Message Item Error}
    (found : state.ready = some message) :
    { state with
      ready := none
      consumer := .release message
      received := state.received ++ itemOf message }.Kept producer := by
  have running := kept.running (by rw [here]; rfl)
  have whole := kept.whole running
  have permits := kept.permits running
  rw [found] at whole
  constructor
  · exact kept.made
  · exact kept.asked
  · show state.received ++ itemOf message <+: state.produced
    rw [whole, ← List.append_assoc]
    exact List.prefix_append _ _
  · intro
    simp [whole, inQueue]
  · intro
    cases terminal : isTerminal message with
    | true => simpa [here, found, queuePermit, unreleased, terminal, itemOf_terminal terminal] using permits
    | false =>
        cases message with
        | tensor value =>
            simp [here, found, queuePermit, unreleased, isTerminal, itemOf] at permits ⊢
            omega
        | done => cases terminal
        | error error => cases terminal
  · have bounded := kept.bounded
    simp only [List.length_append]
    omega
  · exact kept.pumpEnds
  · exact fun _ => trivial
  · intro other same terminal
    cases same
    have ends := kept.queueEnds running
    have arrived := kept.arrived running (by rw [found]; exact if_pos terminal)
    rw [found] at ends
    simp only [itemOf_terminal terminal, List.append_nil]
    rw [← arrived]
    exact ends terminal
  · exact fun _ same => absurd same (by simp [leaving])
  · intro gone _
    rcases kept.waits gone running with ends | ended
    · rw [found] at ends
      right
      show isTerminal message = true
      by_contra other
      rw [queuePermit, if_neg other] at ends
      cases ends
    · rw [here] at ended
      cases ended
  · exact fun terminal _ => kept.last (by rw [found]; exact if_pos terminal)
  · exact fun ends => absurd ends Nat.zero_ne_one
  · exact running
  · exact kept.closing
  · exact kept.terminal
  · exact kept.seen

/-- The consumer gives the permit back and handles the message. -/
theorem Kept.releases (kept : state.Kept producer) {message : Message Item Error}
    (here : state.consumer = .release message) :
    { state with slot := state.slot + 1, consumer := handle message }.Kept producer := by
  have running := kept.running (by rw [here]; rfl)
  have permits := kept.permits running
  have idle : unreleased (handle message) = 0 := by cases message <;> rfl
  have same : ending (handle message) = isTerminal message := by cases message <;> rfl
  constructor
  · exact kept.made
  · exact kept.asked
  · exact kept.got
  · exact kept.whole
  · intro
    have one : unreleased state.consumer = 1 := by rw [here]; rfl
    dsimp only
    omega
  · show state.produced.length + (state.slot + 1) + mayAdvance state.pump ≤ state.received.length + 1
    simp [here, unreleased] at permits
    omega
  · exact kept.pumpEnds
  · exact kept.queueEnds
  · exact fun _ other => absurd other (by cases message <;> simp [handle])
  · intro outcome left _
    cases message with
    | tensor value => cases left
    | done =>
        cases left
        exact kept.handed _ here rfl
    | error error =>
        cases left
        exact kept.handed _ here rfl
  · intro gone _
    show _ ∨ ending (handle message) = true
    rw [same]
    have before := kept.waits gone running
    rw [here] at before
    exact before
  · intro done stays
    exact kept.joined (by rw [here]; exact same.symm.trans done) stays
  · exact kept.last
  · show state.stop = stopped (handle message)
    rw [running]
    cases message <;> rfl
  · exact kept.closing
  · exact kept.terminal
  · exact kept.seen

/-- The consumer changes its place only; from then on the stop flag may be set. -/
theorem Kept.turned (kept : state.Kept producer) {consumer : ConsumerPoint Item Error} {stop quit : Bool}
    (idle : unreleased state.consumer = 0) (quiet : ∀ message, consumer ≠ .release message)
    (started : unreleased consumer = 0) (shows : ∀ outcome, leaving consumer = some outcome → quit = false →
      Shows producer state.received.length outcome)
    (waits : ending state.consumer = true → ending consumer = true)
    (joined : ending consumer = true → quit = false → state.pump = .exited)
    (flag : stop = stopped consumer) (later : state.stop = true → stop = true) :
    { state with consumer := consumer, stop := stop, quit := quit }.Kept producer := by
  have earlier : stop = false → state.stop = false := by
    intro running
    by_contra set
    rw [later (Bool.not_eq_false _ ▸ set)] at running
    cases running
  constructor
  · exact kept.made
  · exact kept.asked
  · exact kept.got
  · exact fun running => kept.whole (earlier running)
  · intro running
    have permits := kept.permits (earlier running)
    rw [idle] at permits
    dsimp only
    rw [started]
    exact permits
  · exact kept.bounded
  · exact fun running => kept.pumpEnds (earlier running)
  · exact fun running => kept.queueEnds (earlier running)
  · exact fun message same => absurd same (quiet message)
  · exact shows
  · exact fun gone running => (kept.waits gone (earlier running)).imp_right waits
  · exact joined
  · exact kept.last
  · exact flag
  · exact kept.closing
  · exact kept.terminal
  · exact fun observed => ⟨later (kept.seen observed).1, (kept.seen observed).2⟩

theorem consumerStep_kept (kept : state.Kept producer) (taken : consumerStep state = some next) :
    next.Kept producer := by
  unfold consumerStep at taken
  split at taken
  case h_1 here =>
    obtain ⟨message, found, rfl⟩ := Option.map_eq_some_iff.mp taken
    exact kept.takes here found
  case h_2 message here =>
    cases taken
    exact kept.releases here
  case h_3 => cases taken
  case h_4 outcome here =>
    cases taken
    apply kept.turned
    · rw [here]
      rfl
    · exact fun _ => by simp
    · rfl
    · exact fun other left => kept.shows other (by rw [here]; exact left)
    · exact fun _ => rfl
    · exact fun _ => kept.joined (by rw [here]; rfl)
    · rfl
    · exact fun _ => rfl
  case h_5 outcome here =>
    split at taken
    case h_1 gone =>
      cases taken
      apply kept.turned
      · rw [here]
        rfl
      · exact fun _ => by simp
      · rfl
      · exact fun other left => kept.shows other (by rw [here]; exact left)
      · exact fun _ => rfl
      · exact fun _ _ => gone
      · exact kept.flag.trans (by rw [here]; rfl)
      · exact id
    case h_2 => cases taken
  case h_6 => cases taken

theorem joinTimeout_kept (kept : state.Kept producer) (taken : joinTimeout state = some next) :
    next.Kept producer := by
  -- the pump of a generator that was not closed has ended
  have expires : ∀ outcome, state.consumer = .joining outcome → state.pump ≠ .exited →
      { state with consumer := .ended .stuck }.Kept producer := by
    intro outcome here working
    have gone : state.quit = false → False := fun stays => working (kept.joined (by rw [here]; rfl) stays)
    apply kept.turned
    · rw [here]
      rfl
    · exact fun _ => by simp
    · rfl
    · exact fun _ _ stays => absurd stays gone
    · exact fun _ => rfl
    · exact fun _ stays => absurd stays gone
    · exact kept.flag.trans (by rw [here]; rfl)
    · exact id
  unfold joinTimeout at taken
  split at taken
  case h_1 outcome here working =>
    cases taken
    exact expires outcome here (by rw [working]; simp)
  case h_2 outcome _ here working =>
    cases taken
    exact expires outcome here (by rw [working]; simp)
  case h_3 => cases taken

theorem userStep_kept (kept : state.Kept producer) {close : Bool} (taken : userStep state close = some next) :
    next.Kept producer := by
  unfold userStep at taken
  split at taken
  case h_1 value here =>
    cases taken
    have running := kept.running (by rw [here]; rfl)
    cases close with
    | false =>
        apply kept.turned
        · rw [here]
          rfl
        · exact fun _ => by simp
        · rfl
        · exact fun _ left => absurd left (by simp [leaving])
        · rw [here]
          exact id
        · exact fun done => absurd done Bool.false_ne_true
        · exact running
        · exact id
    | true =>
        apply kept.turned
        · rw [here]
          rfl
        · exact fun _ => by simp
        · rfl
        · exact fun _ _ stays => absurd stays (by simp)
        · exact fun _ => rfl
        · exact fun _ stays => absurd stays (by simp)
        · exact running
        · exact id
  case h_2 => cases taken

theorem step_kept (state : Prefetch Item Error) (action : PrefetchAction) (next : Prefetch Item Error)
    (kept : state.Kept producer) (taken : step producer state action = some next) : next.Kept producer := by
  cases action with
  | pump => exact pumpStep_kept kept taken
  | pumpTimeout => exact pumpTimeout_kept kept taken
  | consumer => exact consumerStep_kept kept taken
  | joinTimeout => exact joinTimeout_kept kept taken
  | resume => exact userStep_kept kept taken
  | close => exact userStep_kept kept taken

theorem started_kept : (started : Prefetch Item Error).Kept producer where
  made _ _ found := absurd found (by simp [started])
  asked _ := rfl
  got := List.prefix_rfl
  whole _ := rfl
  permits _ := rfl
  bounded := Nat.le_refl 1
  pumpEnds _ := trivial
  queueEnds _ := trivial
  handed _ same := absurd same (by simp [started])
  shows _ left := absurd left (by simp [started, leaving])
  waits gone := absurd gone (by simp [started])
  joined done := absurd done Bool.false_ne_true
  last ends := absurd ends Nat.zero_ne_one
  flag := rfl
  closing := rfl
  terminal _ same := absurd same (by simp [started])
  seen observed := absurd observed Bool.false_ne_true

end Prefetch

end DgxSpark.Nvme
