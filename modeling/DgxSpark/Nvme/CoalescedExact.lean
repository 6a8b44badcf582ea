import DgxSpark.Nvme.CoalescedBody
import DgxSpark.Nvme.PlanCoverage

/-
This file shows that `coalesced_weights` delivers the checkpoint exactly: each tensor that is not skipped once, with the
bytes that the file has for it.
-/

namespace DgxSpark.Nvme.Coalesced

open Library Streaming

variable {DType : Type}

section Names

variable (call : CoalescedCall DType) (batches : List (Batch DType))

/-- The names of the tensors that are not skipped. -/
def wanted (rows : List (Row DType)) : List String := (rows.filter fun row => !call.skip row.1).map Prod.fst

def wantedEmpty (rows : List (Row DType)) : List String := wanted call (rows.filter fun row => row.2.bytes = 0)

def rowsOf (item : Item) : List (Row DType) := (batches[item.index]?.map Batch.tensors).getD []

/-- What the caller gets for the batches that arrived. -/
def namesOf (items : List Item) : List String := items.flatMap fun item => wanted call (rowsOf batches item)

variable {call batches}

theorem wanted_skipped {row : Row DType} {rest : List (Row DType)} (skip : call.skip row.1 = true) :
    wanted call (row :: rest) = wanted call rest := by
  simp [wanted, skip]

theorem wanted_kept {row : Row DType} {rest : List (Row DType)} (skip : call.skip row.1 = false) :
    wanted call (row :: rest) = row.1 :: wanted call rest := by
  simp [wanted, skip]

theorem wantedEmpty_passed {row : Row DType} {rest : List (Row DType)}
    (pass : row.2.bytes ≠ 0 ∨ call.skip row.1 = true) : wantedEmpty call (row :: rest) = wantedEmpty call rest := by
  rcases pass with full | skip
  · simp [wantedEmpty, full]
  · by_cases empty : row.2.bytes = 0
    · simp [wantedEmpty, empty, wanted_skipped skip]
    · simp [wantedEmpty, empty]

theorem wantedEmpty_kept {row : Row DType} {rest : List (Row DType)} (empty : row.2.bytes = 0)
    (skip : call.skip row.1 = false) : wantedEmpty call (row :: rest) = row.1 :: wantedEmpty call rest := by
  simp [wantedEmpty, empty, wanted_kept skip]

theorem namesOf_append (first second : List Item) :
    namesOf call batches (first ++ second) = namesOf call batches first ++ namesOf call batches second :=
  List.flatMap_append

theorem namesOf_item {item : Item} {batch : Batch DType} (found : batches[item.index]? = some batch) :
    namesOf call batches [item] = wanted call batch.tensors := by
  simp [namesOf, rowsOf, found]

end Names

namespace CoalescedWeights

/-- The batch that has arrived and is not in the loop over its tensors yet. -/
def arriving : ConsumerPoint Item CoalescedError → List Item
  | .release message => Prefetch.itemOf message
  | .holding item => [item]
  | _ => []

/-- What the view of a tensor is. -/
theorem viewOf_ok {elementSize : DType → Nat} {batch : Batch DType} {item : Item} {row : Row DType}
    {yielded : Yielded DType} (view : viewOf elementSize batch item row = .ok yielded) :
    yielded = ⟨row.1, row.2.shape, row.2.dtype, some ⟨item.index,
      min (row.2.offset - batch.start).toNat batch.bytes.toNat,
      min (row.2.offset - batch.start + row.2.bytes).toNat batch.bytes.toNat -
        min (row.2.offset - batch.start).toNat batch.bytes.toNat, item.event⟩⟩ := by
  simp only [viewOf] at view
  split at view <;> cases view
  rfl

theorem viewOf_name {elementSize : DType → Nat} {batch : Batch DType} {item : Item} {row : Row DType}
    {yielded : Yielded DType} (view : viewOf elementSize batch item row = .ok yielded) : yielded.name = row.1 := by
  rw [viewOf_ok view]

section Loop

variable (call : CoalescedCall DType) (batches : List (Batch DType))
  (consumer : ConsumerPoint Item CoalescedError) (received : List Item) (quit : Bool) (names : List String)

/-- The loop over the tensors of a batch. -/
structure Handing (item : Item) (rows : List (Row DType)) : Prop where
  quit : quit = false
  holding : consumer = .holding item
  inside : item ∈ received
  listed : rows ⊆ rowsOf batches item
  names : names ++ wanted call rows = namesOf call batches received

/-- All batches arrived, and the empty tensors follow. -/
structure Emptying (rows : List (Row DType)) : Prop where
  quit : quit = false
  exhausted : consumer = .ended .exhausted
  listed : rows ⊆ call.metadata.tensors.entries
  names : names ++ wantedEmpty call rows =
    namesOf call batches received ++ wantedEmpty call call.metadata.tensors.entries

/-- What the caller got at each point of the body. -/
def Loop : Point DType → Prop
  | .iterating => quit = false ∧ arriving consumer ⊆ received ∧
      names ++ namesOf call batches (arriving consumer) = namesOf call batches received
  | .tensors item rows => Handing call batches consumer received quit names item rows
  | .yielded item rows => Handing call batches consumer received quit names item rows
  | .empties rows => Emptying call batches consumer received quit names rows
  | .yieldedEmpty rows => Emptying call batches consumer received quit names rows
  | .checking => Emptying call batches consumer received quit names []
  | .closing .returned => Emptying call batches consumer received quit names []
  | .ended .returned => Emptying call batches consumer received quit names []
  | .closing _ => True
  | .ended _ => True

variable {call batches consumer received quit names}

theorem loop_closing {finish : Finish} (early : finish ≠ .returned) :
    Loop call batches consumer received quit names (.closing finish) := by
  cases finish with
  | returned => exact absurd rfl early
  | raised error => trivial
  | closed => trivial

/-- Only the body itself moves a consumer that waits for it. -/
theorem loop_rests {other : ConsumerPoint Item CoalescedError} {later : List Item} {quits : Bool} {point : Point DType}
    (loop : Loop call batches consumer received quit names point) (waits : ¬point.Running)
    (moves : consumer ≠ .ended .exhausted) : Loop call batches other later quits names point := by
  cases point with
  | closing finish =>
      cases finish with
      | returned => exact absurd loop.exhausted moves
      | raised error => trivial
      | closed => trivial
  | ended finish =>
      cases finish with
      | returned => exact absurd loop.exhausted moves
      | raised error => trivial
      | closed => trivial
  | _ => exact absurd trivial waits

end Loop

/-- Each thing that the caller got is an empty tensor of the checkpoint, or the view of a tensor of a batch. -/
inductive Genuine (call : CoalescedCall DType) (batches : List (Batch DType)) (events : List (Option Nat)) :
    Yielded DType → Prop where
  | empty {row : Row DType} (listed : row ∈ call.metadata.tensors.entries) (empty : row.2.bytes = 0) :
      Genuine call batches events ⟨row.1, row.2.shape, row.2.dtype, none⟩
  | view {item : Item} {batch : Batch DType} {row : Row DType} {yielded : Yielded DType}
      (event : events[item.index]? = some item.event) (found : batches[item.index]? = some batch)
      (listed : row ∈ batch.tensors) (view : viewOf call.elementSize batch item row = .ok yielded) :
      Genuine call batches events yielded

theorem Genuine.later {call : CoalescedCall DType} {batches : List (Batch DType)} {events more : List (Option Nat)}
    {yielded : Yielded DType} (genuine : Genuine call batches events yielded) :
    Genuine call batches (events ++ more) yielded := by
  cases genuine with
  | empty listed empty => exact .empty listed empty
  | view event found listed view =>
      exact .view ((List.getElem?_append_left (List.getElem?_eq_some_iff.mp event).1).trans event) found listed view

/-- What holds in every state of a run. -/
structure Kept (call : CoalescedCall DType) (disk : Disk) (batches : List (Batch DType))
    (state : CoalescedWeights DType) : Prop where
  sound : state.source.Sound call disk batches
  told : state.Told
  driven : state.Driven
  loop : Loop call batches state.prefetch.consumer state.prefetch.received state.prefetch.quit
    (state.yields.map Yielded.name) state.point
  genuine : ∀ yielded ∈ state.yields, Genuine call batches state.source.events yielded
  complete : state.complete = true ↔ state.point = .closing .returned ∨ state.point = .ended .returned

variable {call : CoalescedCall DType} {disk : Disk} {batches : List (Batch DType)}
  {state next : CoalescedWeights DType}

theorem start_kept (slots : Fin 2 → Buffer UInt8) (outputs : Nat → Buffer UInt8) :
    Kept call disk batches (start call slots outputs) where
  sound := Source.start_sound call.ownedLimit slots outputs
  told := {
    asked := rfl
    items := fun index item found => by cases found
    stops := fun index found => by cases found
    fresh := fun _ => rfl }
  driven := ⟨[], rfl⟩
  loop := ⟨rfl, List.nil_subset _, rfl⟩
  genuine := List.forall_mem_nil _
  complete := by simp [start]

/-- A batch that arrived is the one that `produce` yielded in its turn. -/
theorem Kept.arrived (kept : Kept call disk batches state) {place : Nat} {item : Item}
    (found : state.prefetch.received[place]? = some item) :
    item.index = place ∧ state.source.events[place]? = some item.event := by
  have prefetch := kept.driven.kept
  obtain ⟨rest, whole⟩ := prefetch.got
  have earlier := (List.getElem?_eq_some_iff.mp found).1
  have made := prefetch.made place item (by rw [← whole, List.getElem?_append_left earlier, found])
  have answered : state.answers[place]? = some (Next.item item) := by
    cases answer : state.answers[place]? with
    | none =>
        simp only [oracle, answer, Option.getD_none] at made
        cases made
    | some value =>
        simp only [oracle, answer, Option.getD_some] at made
        rw [made]
  exact kept.told.items place item answered

theorem Kept.event (kept : Kept call disk batches state) {item : Item} (inside : item ∈ state.prefetch.received) :
    state.source.events[item.index]? = some item.event := by
  obtain ⟨place, found⟩ := List.mem_iff_getElem?.mp inside
  obtain ⟨same, event⟩ := kept.arrived found
  rwa [same]

/-- The threads beside the body leave what it has. -/
theorem Kept.beside (kept : Kept call disk batches state) {source : Source} (sound : source.Sound call disk batches)
    (events : source.events = state.source.events)
    (ended : ∀ ending, state.source.point = .ended ending → source.point = .ended ending) :
    Kept call disk batches { state with source := source } where
  sound := sound
  told := {
    asked := kept.told.asked
    items := by
      intro index item found
      show item.index = index ∧ source.events[index]? = some item.event
      rw [events]
      exact kept.told.items index item found
    stops := by
      intro index found
      obtain ⟨same, point⟩ := kept.told.stops index found
      show index = source.events.length ∧ source.point = .ended .completed
      rw [events]
      exact ⟨same, ended _ point⟩
    fresh := by
      intro alive
      show state.answers.length = source.events.length
      rw [events]
      exact kept.told.fresh fun ending point => alive ending (ended ending point) }
  driven := by
    obtain ⟨actions, reached⟩ := kept.driven
    exact ⟨actions, reached⟩
  loop := kept.loop
  genuine := by
    intro yielded inside
    show Genuine call batches source.events yielded
    rw [events]
    exact kept.genuine yielded inside
  complete := kept.complete

theorem Kept.pump (kept : Kept call disk batches state) (pumped : state.Pumped next) : Kept call disk batches next := by
  have told := kept.told.pump kept.sound pumped
  have driven := kept.driven.pump kept.told pumped
  cases pumped with
  | @asks answer source prefetch point answered taken =>
      have pumps := Prefetch.pumpStep_pumps taken
      have more : ∃ more, source.events = state.source.events ++ more := by
        unfold Source.answer at answered
        split at answered <;> cases answered
        · exact ⟨_, rfl⟩
        · exact ⟨[], (List.append_nil _).symm⟩
        · exact ⟨[], (List.append_nil _).symm⟩
      obtain ⟨more, events⟩ := more
      refine ⟨kept.sound.answer answered, told, driven, ?_, ?_, kept.complete⟩
      · show Loop call batches prefetch.consumer prefetch.received prefetch.quit _ _
        rw [pumps.consumer, pumps.received, pumps.quit]
        exact kept.loop
      · intro yielded inside
        show Genuine call batches source.events yielded
        rw [events]
        exact (kept.genuine yielded inside).later
  | @closes terminal closeError source prefetch point closed taken =>
      have pumps := Prefetch.pumpStep_pumps taken
      have events : source.events = state.source.events := by
        unfold Source.closed at closed
        split at closed <;> cases closed <;> rfl
      refine ⟨kept.sound.closed closed, told, driven, ?_, ?_, kept.complete⟩
      · show Loop call batches prefetch.consumer prefetch.received prefetch.quit _ _
        rw [pumps.consumer, pumps.received, pumps.quit]
        exact kept.loop
      · intro yielded inside
        show Genuine call batches source.events yielded
        rw [events]
        exact kept.genuine yielded inside
  | @alone prefetch asking closing taken =>
      have pumps := Prefetch.pumpStep_pumps taken
      refine ⟨kept.sound, told, driven, ?_, kept.genuine, kept.complete⟩
      show Loop call batches prefetch.consumer prefetch.received prefetch.quit _ _
      rw [pumps.consumer, pumps.received, pumps.quit]
      exact kept.loop

/-- The threads of `prefetch_weights` take a step of their own. -/
theorem Kept.prefetched (kept : Kept call disk batches state) {action : PrefetchAction}
    {prefetch : Prefetch Item CoalescedError} {point : Point DType} (beside : action ≠ .pump)
    (taken : Prefetch.step (oracle state.answers state.closeError) state.prefetch action = some prefetch)
    (loop : Loop call batches prefetch.consumer prefetch.received prefetch.quit (state.yields.map Yielded.name) point)
    (complete : state.complete = true ↔ point = .closing .returned ∨ point = .ended .returned) :
    Kept call disk batches { state with point := point, prefetch := prefetch } :=
  ⟨kept.sound, ⟨kept.told.asked.trans (Prefetch.step_uncalled beside taken).1.symm, kept.told.items, kept.told.stops, kept.told.fresh⟩,
    kept.driven.step taken, loop, kept.genuine, complete⟩

/-- The body goes on with what it has. -/
theorem Kept.body (kept : Kept call disk batches state) {point : Point DType} {complete : Bool}
    {yields : List (Yielded DType)}
    (loop : Loop call batches state.prefetch.consumer state.prefetch.received state.prefetch.quit
      (yields.map Yielded.name) point)
    (genuine : ∀ yielded ∈ yields, Genuine call batches state.source.events yielded)
    (same : complete = true ↔ point = .closing .returned ∨ point = .ended .returned) :
    Kept call disk batches { state with point := point, complete := complete, yields := yields } :=
  ⟨kept.sound, ⟨kept.told.asked, kept.told.items, kept.told.stops, kept.told.fresh⟩, kept.driven, loop, genuine, same⟩

theorem Kept.pumpTimeout (kept : Kept call disk batches state) {prefetch : Prefetch Item CoalescedError}
    (taken : Prefetch.pumpTimeout state.prefetch = some prefetch) :
    Kept call disk batches { state with prefetch := prefetch } := by
  have same : prefetch.consumer = state.prefetch.consumer ∧ prefetch.received = state.prefetch.received ∧
      prefetch.quit = state.prefetch.quit := by
    unfold Prefetch.pumpTimeout at taken
    split at taken
    case h_1 =>
      split at taken <;> cases taken
      exact ⟨rfl, rfl, rfl⟩
    case h_2 =>
      cases taken
      exact ⟨rfl, rfl, rfl⟩
    case h_3 => cases taken
  obtain ⟨consumer, received, quit⟩ := same
  refine kept.prefetched (PrefetchAction.noConfusion : PrefetchAction.pumpTimeout ≠ _) taken ?_ kept.complete
  rw [consumer, received, quit]
  exact kept.loop

/-- What a step of the generator of `prefetch_weights` does to the loop over the batches. -/
theorem loop_consumed {prefetch after : Prefetch Item CoalescedError} {names : List String}
    (loop : Loop call batches prefetch.consumer prefetch.received prefetch.quit names .iterating)
    (taken : Prefetch.consumerStep prefetch = some after) :
    Loop call batches after.consumer after.received after.quit names .iterating := by
  obtain ⟨quit, inside, same⟩ := loop
  unfold Prefetch.consumerStep at taken
  split at taken
  case h_1 here =>
    obtain ⟨message, ready, rfl⟩ := Option.map_eq_some_iff.mp taken
    simp only [here, arriving] at same
    refine ⟨quit, List.subset_append_right _ _, ?_⟩
    show names ++ namesOf call batches (Prefetch.itemOf message) = namesOf call batches (prefetch.received ++ _)
    rw [namesOf_append, ← same]
    simp [namesOf]
  case h_2 message here =>
    cases taken
    simp only [here, arriving] at same inside
    refine ⟨quit, ?_, ?_⟩
    · cases message <;> exact inside
    · cases message <;> exact same
  case h_3 => cases taken
  case h_4 outcome here =>
    cases taken
    simp only [here, arriving] at same
    exact ⟨quit, List.nil_subset _, same⟩
  case h_5 outcome here =>
    simp only [here, arriving] at same
    split at taken <;> cases taken
    exact ⟨quit, List.nil_subset _, same⟩
  case h_6 => cases taken

theorem Kept.joinTimeout (kept : Kept call disk batches state) {prefetch : Prefetch Item CoalescedError}
    (taken : Prefetch.joinTimeout state.prefetch = some prefetch) :
    Kept call disk batches { state with prefetch := prefetch } := by
  have same : ∃ outcome, state.prefetch.consumer = .joining outcome ∧
      prefetch = { state.prefetch with consumer := .ended .stuck } := by
    unfold Prefetch.joinTimeout at taken
    split at taken
    case h_1 outcome here _ =>
      cases taken
      exact ⟨outcome, here, rfl⟩
    case h_2 outcome _ here _ =>
      cases taken
      exact ⟨outcome, here, rfl⟩
    case h_3 => cases taken
  obtain ⟨outcome, here, rfl⟩ := same
  refine kept.prefetched (PrefetchAction.noConfusion : PrefetchAction.joinTimeout ≠ _) taken ?_ kept.complete
  have loop := kept.loop
  rw [here] at loop
  cases point : state.point with
  | iterating =>
      rw [point] at loop
      exact ⟨loop.1, List.nil_subset _, loop.2.2⟩
  | tensors item rows =>
      rw [point] at loop
      exact absurd loop.holding (by simp)
  | yielded item rows =>
      rw [point] at loop
      exact absurd loop.holding (by simp)
  | empties rows =>
      rw [point] at loop
      exact absurd loop.exhausted (by simp)
  | yieldedEmpty rows =>
      rw [point] at loop
      exact absurd loop.exhausted (by simp)
  | checking =>
      rw [point] at loop
      exact absurd loop.exhausted (by simp)
  | closing finish =>
      rw [point] at loop
      exact loop_rests loop id (by simp)
  | ended finish =>
      rw [point] at loop
      exact loop_rests loop id (by simp)

theorem userStep_some {prefetch after : Prefetch Item CoalescedError} {close : Bool}
    (taken : Prefetch.userStep prefetch close = some after) :
    after = { prefetch with consumer := if close then .stopping .closed else .get, quit := close } := by
  unfold Prefetch.userStep at taken
  split at taken <;> cases taken
  rfl

theorem Kept.advanced (kept : Kept call disk batches state) (advanced : Advanced call disk batches state next) :
    Kept call disk batches next := by
  have loop := kept.loop
  have fresh : state.point.Running → (state.complete = true ↔ False) := by
    intro running
    rw [kept.complete]
    constructor
    · rintro (point | point) <;> rw [point] at running <;> exact running
    · exact False.elim
  cases advanced with
  | @consumed prefetch point taken =>
      refine kept.prefetched (PrefetchAction.noConfusion : PrefetchAction.consumer ≠ _) taken ?_ kept.complete
      rcases point with point | point
      · rw [point] at loop ⊢
        exact loop_consumed loop taken
      · refine loop_rests loop point ?_
        intro here
        simp only [Prefetch.consumerStep, here] at taken
        cases taken
  | @entered item batch point here found =>
      rw [point] at loop
      simp only [Loop, here, arriving, namesOf_item found] at loop
      refine kept.body ?_ kept.genuine ((fresh (by rw [point]; trivial)).trans (by simp))
      refine ⟨loop.1, here, loop.2.1 List.mem_cons_self, ?_, loop.2.2⟩
      simp [rowsOf, found]
  | exhausted point here =>
      rw [point] at loop
      simp only [Loop, here, arriving] at loop
      refine kept.body ?_ kept.genuine ((fresh (by rw [point]; trivial)).trans (by simp))
      refine ⟨loop.1, here, List.Subset.refl _, ?_⟩
      rw [← loop.2.2]
      simp [namesOf]
  | stopped running early =>
      refine kept.body (loop_closing early) kept.genuine ((fresh running).trans ?_)
      simp [early]
  | @turned item prefetch point taken =>
      have after := userStep_some taken
      rw [point] at loop
      subst after
      refine kept.prefetched (PrefetchAction.noConfusion : PrefetchAction.resume ≠ _) taken ?_ ((fresh (by rw [point]; trivial)).trans (by simp))
      refine ⟨rfl, List.nil_subset _, ?_⟩
      exact loop.names
  | @skipped item row rest point skip =>
      rw [point] at loop
      have names := loop.names
      rw [wanted_skipped skip] at names
      exact kept.body ⟨loop.quit, loop.holding, loop.inside, List.Subset.trans (List.subset_cons_self _ _) loop.listed, names⟩
        kept.genuine ((fresh (by rw [point]; trivial)).trans (by simp))
  | @yielded item row rest batch yielded point skip found view =>
      rw [point] at loop
      have listed : row ∈ batch.tensors := by
        have inside := loop.listed List.mem_cons_self
        rwa [rowsOf, found] at inside
      refine kept.body ?_ ?_ ((fresh (by rw [point]; trivial)).trans (by simp))
      · refine ⟨loop.quit, loop.holding, loop.inside, List.Subset.trans (List.subset_cons_self _ _) loop.listed, ?_⟩
        rw [List.map_append, List.append_assoc, ← loop.names, wanted_kept skip, List.map_singleton, viewOf_name view]
        rfl
      · intro other inside
        rcases List.mem_append.mp inside with before | last
        · exact kept.genuine other before
        · rw [List.mem_singleton.mp last]
          exact .view (kept.event loop.inside) found listed view
  | @passed row rest point pass =>
      rw [point] at loop
      have names := loop.names
      rw [wantedEmpty_passed pass] at names
      exact kept.body ⟨loop.quit, loop.exhausted, List.Subset.trans (List.subset_cons_self _ _) loop.listed, names⟩
        kept.genuine ((fresh (by rw [point]; trivial)).trans (by simp))
  | @yieldedEmpty row rest point empty skip =>
      rw [point] at loop
      refine kept.body ?_ ?_ ((fresh (by rw [point]; trivial)).trans (by simp))
      · refine ⟨loop.quit, loop.exhausted, List.Subset.trans (List.subset_cons_self _ _) loop.listed, ?_⟩
        rw [← loop.names, wantedEmpty_kept empty skip, List.map_append, List.append_assoc]
        rfl
      · intro other inside
        rcases List.mem_append.mp inside with before | last
        · exact kept.genuine other before
        · rw [List.mem_singleton.mp last]
          exact .empty (loop.listed List.mem_cons_self) empty
  | swept point =>
      rw [point] at loop
      exact kept.body loop kept.genuine ((fresh (by rw [point]; trivial)).trans (by simp))
  | returned point same =>
      rw [point] at loop
      exact kept.body loop kept.genuine (by simp)
  | @resumed item rest point =>
      rw [point] at loop
      exact kept.body loop kept.genuine ((fresh (by rw [point]; trivial)).trans (by simp))
  | @resumedEmpty rest point =>
      rw [point] at loop
      exact kept.body loop kept.genuine ((fresh (by rw [point]; trivial)).trans (by simp))
  | @cancelled finish item prefetch point here taken =>
      refine kept.prefetched (PrefetchAction.noConfusion : PrefetchAction.close ≠ _) taken ?_ kept.complete
      exact loop_rests loop (by rw [point]; exact id) (by simp [here])
  | @ended finish outcome point here joined =>
      have complete := kept.complete
      rw [point] at loop complete
      refine kept.body ?_ kept.genuine (complete.trans (by simp))
      cases finish with
      | returned => exact loop
      | raised error => trivial
      | closed => trivial
  | @stuck finish point here =>
      have complete := kept.complete
      rw [point] at loop complete
      refine kept.body trivial kept.genuine (complete.trans ?_)
      cases finish with
      | returned => exact absurd (loop.exhausted.symm.trans here) (by simp)
      | raised error => simp
      | closed => simp

/-- Every step of the machine keeps this. -/
theorem Kept.transition (kept : Kept call disk batches state) (low : ∀ batch ∈ batches, 0 ≤ batch.start)
    (fits : ∀ reader, call.reader = .ok reader → reader.Fit) (taken : Transition call disk batches state next) :
    Kept call disk batches next := by
  cases taken with
  | source _ taken =>
      have taken := Source.step_transition taken
      exact kept.beside (kept.sound.transition low fits taken) taken.events fun ending point => taken.ended point
  | pump pumped => exact kept.pump pumped
  | pumpTimeout taken => exact kept.pumpTimeout taken
  | joinTimeout taken => exact kept.joinTimeout taken
  | body advanced => exact kept.advanced advanced

/-- A body that returned got all batches, and none of their copies waits. -/
theorem Kept.whole (kept : Kept call disk batches state) (point : state.point = .ended .returned) :
    state.prefetch.received.length = batches.length ∧ state.source.uploads.waiting = [] := by
  have loop := kept.loop
  rw [point] at loop
  have leaving : Prefetch.leaving state.prefetch.consumer = some .exhausted := by
    rw [loop.exhausted]
    rfl
  obtain ⟨terminal, ends, same⟩ := kept.driven.kept.shows _ leaving loop.quit
  have clean : terminal = .done := by
    unfold Prefetch.closedWith at same
    split at same
    · cases same
    · exact same.symm
  subst clean
  have stopped : state.answers[state.prefetch.received.length]? = some Next.stop := by
    cases answer : state.answers[state.prefetch.received.length]? with
    | none =>
        simp only [oracle, answer, Option.getD_none, Prefetch.endOf] at ends
        cases ends
    | some value =>
        simp only [oracle, answer, Option.getD_some] at ends
        cases value with
        | item item => cases ends
        | stop => rfl
        | raise error => cases ends
  obtain ⟨count, ended⟩ := kept.told.stops _ stopped
  have sound := kept.sound.point
  rw [ended] at sound
  rcases sound with early | ⟨length, waiting⟩
  · exact early.elim
  · exact ⟨count.trans length, waiting⟩

/-- The batches that arrived are those of the plan. -/
theorem Kept.names (kept : Kept call disk batches state) (length : state.prefetch.received.length = batches.length) :
    namesOf call batches state.prefetch.received = wanted call (batches.flatMap Batch.tensors) := by
  have indices : state.prefetch.received.map Item.index = List.range batches.length := by
    apply List.ext_getElem?
    intro place
    rw [List.getElem?_map]
    cases found : state.prefetch.received[place]? with
    | none =>
        have beyond := List.getElem?_eq_none_iff.mp found
        rw [List.getElem?_eq_none (by rw [List.length_range]; omega)]
        rfl
    | some item =>
        have inside := (List.getElem?_eq_some_iff.mp found).1
        rw [List.getElem?_range (by omega), Option.map_some, (kept.arrived found).1]
  have rows : (List.range batches.length).map (fun index => (batches[index]?.map Batch.tensors).getD []) =
      batches.map Batch.tensors := by
    apply List.ext_getElem?
    intro place
    rw [List.getElem?_map, List.getElem?_map]
    by_cases inside : place < batches.length
    · rw [List.getElem?_range inside, List.getElem?_eq_getElem inside]
      simp [inside]
    · rw [List.getElem?_eq_none (by rw [List.length_range]; omega), List.getElem?_eq_none (by omega)]
      rfl
  have wantedAll : ∀ groups : List (List (Row DType)), groups.flatMap (wanted call) = wanted call groups.flatten := by
    intro groups
    rw [wanted, List.filter_flatten, List.map_flatten, List.map_map, List.flatMap]
    rfl
  calc namesOf call batches state.prefetch.received
      = ((state.prefetch.received.map Item.index).map
          fun index => (batches[index]?.map Batch.tensors).getD []).flatMap (wanted call) := by
        rw [List.map_map, List.flatMap_map]
        rfl
    _ = wanted call (batches.flatMap Batch.tensors) := by
        rw [indices, rows, wantedAll, List.flatMap]

/-- The copies that a view waits for are over: its event is, or no copy waits at all. -/
def Settled (state : CoalescedWeights DType) (event : Option Nat) : Prop :=
  state.source.uploads.Reached event ∨ state.source.uploads.waiting = []

/-- Once the copies of a batch are over, its output holds it. -/
theorem Kept.holds (kept : Kept call disk batches state) {item : Item} {batch : Batch DType}
    (event : state.source.events[item.index]? = some item.event) (found : batches[item.index]? = some batch)
    (settled : state.Settled item.event) :
    (state.source.outputs item.index).Holds 0 (bytesAt disk batch.file) batch.start.toNat batch.bytes.toNat := by
  obtain ⟨other, done⟩ := kept.sound.done _ _ event
  cases found.symm.trans done.found
  intro cell below
  rcases done.covered batch found cell below with ⟨entry, waits, covers⟩ | there
  · rcases settled with reached | idle
    · exact absurd covers.1 (done.awaited.free reached waits)
    · rw [idle] at waits
      cases waits
  · rw [Nat.zero_add]
    exact there

/-- The bytes that the caller finds in a view. -/
def bytesOf (state : CoalescedWeights DType) (view : View) : List UInt8 :=
  (state.source.outputs view.output).read view.start view.length

end CoalescedWeights

/-- What reading a tensor by itself gives. -/
def readAlone (disk : Disk) (info : TensorInfo DType) : List UInt8 :=
  ((bytesAt disk info.file).drop info.offset.toNat).take info.bytes.toNat

section Plan

variable {call : CoalescedCall DType} {batches : List (Batch DType)}

theorem plan_ok (planned : call.plan = .ok batches) :
    planBatches call.elementSize call.metadata call.batchBytes = .ok batches := by
  unfold CoalescedCall.plan at planned
  split at planned
  · cases planned
  · split at planned
    · cases planned
    · split at planned
      · cases planned
      · split at planned <;> cases planned
        assumption

/-- What the plan says of a tensor of a batch. -/
structure Placed (call : CoalescedCall DType) (batch : Batch DType) (row : Row DType) : Prop where
  low : 0 ≤ batch.start
  listed : row ∈ call.metadata.nonempty
  file : row.2.file = batch.file
  begins : batch.start ≤ row.2.offset
  long : row.2.offset < row.2.stop
  ends : row.2.stop ≤ batch.stop
  start : (ALIGN : Int) ∣ batch.start
  aligned : (call.elementSize row.2.dtype : Int) ∣ row.2.offset

theorem plan_placed (positive : 0 < call.batchBytes) (multiple : (ALIGN : Int) ∣ call.batchBytes)
    (planned : call.plan = .ok batches) {batch : Batch DType} (inside : batch ∈ batches) {row : Row DType}
    (member : row ∈ batch.tensors) : Placed call batch row := by
  obtain ⟨rows, plan, whole, aligned⟩ := planBatches_ok positive multiple (plan_ok planned)
  have sound := plan.sound batch inside
  have within := sound.within row member
  have mine : ∀ other ∈ batch.tensors, other ∈ rows := by
    intro other here
    rw [← plan.listed]
    exact List.mem_flatMap.mpr ⟨batch, inside, here⟩
  have listed := whole.mem_iff.mp (mine row member)
  refine ⟨?_, listed, within.1, within.2.1, within.2.2.1, within.2.2.2, sound.aligned, aligned row listed⟩
  have first := List.head_mem sound.filled
  have near := (sound.first _ (List.head?_eq_some_head sound.filled)).2
  obtain ⟨stamp, _, nonneg, _⟩ := plan.inside _ (mine _ first)
  obtain ⟨factor, same⟩ := sound.aligned
  simp only [ALIGN] at same
  omega

/-- The reader of the call has a tile size that is a multiple of the alignment. -/
theorem reader_fit (multiple : (ALIGN : Int) ∣ call.batchBytes) (reader : RangeReader)
    (made : call.reader = .ok reader) : reader.Fit := (RangeReader.init_ok made multiple).1

theorem plan_low (positive : 0 < call.batchBytes) (multiple : (ALIGN : Int) ∣ call.batchBytes)
    (planned : call.plan = .ok batches) : ∀ batch ∈ batches, 0 ≤ batch.start := by
  intro batch inside
  obtain ⟨rows, plan, _⟩ := planBatches_ok positive multiple (plan_ok planned)
  obtain ⟨row, member⟩ := List.exists_mem_of_ne_nil _ (plan.sound batch inside).filled
  exact (plan_placed positive multiple planned inside member).low

/-- The tensors of the batches and the empty ones are those of the checkpoint. -/
theorem wanted_perm (positive : 0 < call.batchBytes) (multiple : (ALIGN : Int) ∣ call.batchBytes)
    (planned : call.plan = .ok batches) :
    (wanted call (batches.flatMap Batch.tensors) ++ wantedEmpty call call.metadata.tensors.entries).Perm
      (wanted call call.metadata.tensors.entries) := by
  obtain ⟨rows, plan, whole, _⟩ := planBatches_ok positive multiple (plan_ok planned)
  have parts : (batches.flatMap Batch.tensors ++ call.metadata.tensors.entries.filter fun row => row.2.bytes = 0).Perm
      call.metadata.tensors.entries := by
    rw [plan.listed]
    refine (whole.append_right _).trans ?_
    have split := List.filter_append_perm (fun row : Row DType => decide (row.2.bytes ≠ 0)) call.metadata.tensors.entries
    simpa [Metadata.nonempty] using split
  rw [wantedEmpty, wanted, wanted, ← List.map_append, ← List.filter_append]
  exact (parts.filter _).map _

end Plan

/-- What the caller has for a tensor of the checkpoint. -/
structure Delivered (call : CoalescedCall DType) (disk : Disk) (state : CoalescedWeights DType)
    (yielded : Yielded DType) (info : TensorInfo DType) : Prop where
  found : call.metadata.tensors.get? yielded.name = some info
  shape : yielded.shape = info.shape
  dtype : yielded.dtype = info.dtype
  empty : info.bytes = 0 → yielded.view = none
  view : info.bytes ≠ 0 → ∃ view, yielded.view = some view ∧ call.elementSize info.dtype ∣ view.start ∧
    (view.length : Int) = info.bytes ∧
      (state.Settled view.event → state.bytesOf view = readAlone disk info)

namespace CoalescedWeights

variable {call : CoalescedCall DType} {disk : Disk} {batches : List (Batch DType)}
  {state next : CoalescedWeights DType}

/-- A view in a batch is the piece of the file that its tensor names. -/
theorem Kept.delivered (kept : Kept call disk batches state) (positive : 0 < call.batchBytes)
    (multiple : (ALIGN : Int) ∣ call.batchBytes) (planned : call.plan = .ok batches)
    (sizes : ∀ dtype, call.elementSize dtype ∣ ALIGN) {yielded : Yielded DType} (inside : yielded ∈ state.yields) :
    ∃ info, Delivered call disk state yielded info := by
  cases kept.genuine yielded inside with
  | @empty row listed empty =>
      refine ⟨row.2, OrderedDict.get?_eq_some_iff.mpr listed, rfl, rfl, fun _ => rfl, fun full => absurd empty full⟩
  | @view item batch row _ event found listed view =>
      have placed := plan_placed positive multiple planned (List.mem_of_getElem? found) listed
      obtain ⟨known, full⟩ := List.mem_filter.mp placed.listed
      have stop : row.2.stop = row.2.offset + row.2.bytes := rfl
      have long := placed.long
      have begins := placed.begins
      have ends := placed.ends
      have low := placed.low
      have size : batch.bytes = batch.stop - batch.start := rfl
      have start : min (row.2.offset - batch.start).toNat batch.bytes.toNat = (row.2.offset - batch.start).toNat := by
        omega
      have length : min (row.2.offset - batch.start + row.2.bytes).toNat batch.bytes.toNat -
          (row.2.offset - batch.start).toNat = row.2.bytes.toNat := by
        omega
      have same := viewOf_ok view
      rw [start, length] at same
      subst same
      refine ⟨row.2, OrderedDict.get?_eq_some_iff.mpr known, rfl, rfl, fun empty => ?_, fun _ => ⟨_, rfl, ?_, ?_, ?_⟩⟩
      · exact absurd empty (by simpa using full)
      · have divides : (call.elementSize row.2.dtype : Int) ∣ row.2.offset - batch.start :=
          Int.dvd_sub placed.aligned ((Int.natCast_dvd_natCast.mpr (sizes row.2.dtype)).trans placed.start)
        rw [← Int.natCast_dvd_natCast]
        show (call.elementSize row.2.dtype : Int) ∣ ((row.2.offset - batch.start).toNat : Int)
        rwa [Int.toNat_of_nonneg (by omega)]
      · show ((row.2.bytes.toNat : Nat) : Int) = row.2.bytes
        omega
      · intro settled
        have holds := kept.holds event found settled
        have piece : (state.source.outputs item.index).Holds (row.2.offset - batch.start).toNat
            (bytesAt disk row.2.file) row.2.offset.toNat row.2.bytes.toNat := by
          intro cell below
          have byte := holds ((row.2.offset - batch.start).toNat + cell) (by omega)
          rw [Nat.zero_add, ← placed.file] at byte
          have place : batch.start.toNat + ((row.2.offset - batch.start).toNat + cell) = row.2.offset.toNat + cell := by
            omega
          rwa [place] at byte
        exact piece.read

/-- What the caller has of a tensor is what reading it alone gives, from when the copies of its batch are over, with an
aligned start, or for an empty tensor its shape. A call that returns gave each tensor that is not skipped once, and all
copies are over. -/
theorem coalesced_exact (call : CoalescedCall DType) (disk : Disk) (slots : Fin 2 → Buffer UInt8)
    (outputs : Nat → Buffer UInt8) {batches : List (Batch DType)} (positive : 0 < call.batchBytes)
    (multiple : (ALIGN : Int) ∣ call.batchBytes) (planned : call.plan = .ok batches)
    (sizes : ∀ dtype, call.elementSize dtype ∣ ALIGN) {actions : List Action} {state : CoalescedWeights DType}
    (reached : Run.run (step call disk batches) (start call slots outputs) actions = some state) :
    (∀ yielded ∈ state.yields, ∃ info, Delivered call disk state yielded info) ∧
      (state.point = .ended .returned →
        (state.yields.map Yielded.name).Perm
            ((call.metadata.tensors.entries.filter fun row => !call.skip row.1).map Prod.fst) ∧
          (state.yields.map Yielded.name).Nodup ∧
            ∀ yielded ∈ state.yields, ∀ view, yielded.view = some view → state.Settled view.event) := by
  have low := plan_low positive multiple planned
  have kept : Kept call disk batches state :=
    Run.run_invariant (fun _ _ _ kept taken => kept.transition low (reader_fit multiple) (step_transition taken))
      (start_kept slots outputs) reached
  refine ⟨fun yielded inside => kept.delivered positive multiple planned sizes inside, ?_⟩
  intro point
  obtain ⟨length, waiting⟩ := kept.whole point
  have loop := kept.loop
  rw [point] at loop
  have names : (state.yields.map Yielded.name).Perm (wanted call call.metadata.tensors.entries) := by
    have same := loop.names
    rw [kept.names length] at same
    have none : wantedEmpty call [] = [] := rfl
    rw [none, List.append_nil] at same
    rw [same]
    exact wanted_perm positive multiple planned
  refine ⟨names, ?_, ?_⟩
  · rw [names.nodup_iff]
    exact call.metadata.tensors.nodup.sublist (List.filter_sublist.map Prod.fst)
  · exact fun _ _ _ _ => .inr waiting

/-- A file of ten bytes with two tensors, an empty one and one to skip. -/
def tenBytes : SourceFile := ⟨⟨0, 1, 10, 0, 0⟩, [9, 9, 10, 20, 30, 9, 1, 2, 3, 4]⟩

def smallCall : CoalescedCall Bool where
  files := ["a"]
  metadata := {
    tensors := ⟨[("y", ⟨[2], true, 4, "a", 6⟩), ("e", ⟨[0], true, 0, "a", 10⟩), ("x", ⟨[3], false, 3, "a", 2⟩),
      ("s", ⟨[1], false, 1, "a", 5⟩)], by decide⟩
    stamps := ⟨[("a", tenBytes.stamp)], by decide⟩ }
  concurrency := 2
  memoryLimit := 16384
  ownedLimit := 100
  batchBytes := 4096
  device := .cuda
  direct := true
  skip name := name == "s"
  abspath := id
  elementSize wide := if wide then 2 else 1
  owners := fun _ => 0

def smallDisk : Disk := fun path => if path = "a" then some tenBytes else none

def smallBatch : Batch Bool :=
  ⟨"a", 0, 10, [("x", ⟨[3], false, 3, "a", 2⟩), ("s", ⟨[1], false, 1, "a", 5⟩), ("y", ⟨[2], true, 4, "a", 6⟩)]⟩

/-- The first read is short, and the device copies while the caller has the first tensor. -/
def smallRun : List Action :=
  [.pump, .pump, .pump, .source .resume, .source .check, .source (.reserve true), .source (.enter true), .source .fence,
    .source (.preadv 0 (.count 4 true)), .source (.preadv 0 (.count 6 true)), .source .collect, .source .fence, .pump,
    .pump, .pump, .main, .main, .main, .main, .resumed, .main, .source .copy, .main, .resumed, .main, .pump, .pump,
    .pump, .source .resume, .source .check, .source (.synchronize true), .pump, .pump, .pump, .pump, .main, .main, .main,
    .main, .main, .main, .main, .resumed, .main, .main, .main, .main, .main]

theorem coalesced_exact_small :
    ∃ state, Run.run (step smallCall smallDisk [smallBatch]) (start smallCall (fun _ _ => 0) fun _ _ => 0) smallRun =
        some state ∧
      state.point = .ended .returned ∧
        (∀ yielded ∈ state.yields, ∃ info, Delivered smallCall smallDisk state yielded info) ∧
          (state.yields.map Yielded.name).Perm ["y", "e", "x"] := by
  have ends : (Run.run (step smallCall smallDisk [smallBatch]) (start smallCall (fun _ _ => 0) fun _ _ => 0)
      smallRun).map CoalescedWeights.point = some (.ended .returned) := by rfl
  obtain ⟨state, reached, point⟩ := Option.map_eq_some_iff.mp ends
  have sizes : ∀ dtype, smallCall.elementSize dtype ∣ ALIGN := by decide
  obtain ⟨delivered, returned⟩ := coalesced_exact smallCall smallDisk _ _ (by decide) (by decide)
    (show smallCall.plan = .ok [smallBatch] from rfl) sizes reached
  exact ⟨state, reached, point, delivered, (returned point).1⟩

end CoalescedWeights

end DgxSpark.Nvme.Coalesced
