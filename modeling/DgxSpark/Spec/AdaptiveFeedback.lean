import DgxSpark.Spec.AdaptiveRuns

/-
This file shows that the three maps of the verification policy join every step with its own requests.
-/

namespace DgxSpark.Adaptive
open DgxSpark.Library

variable {F : Type}

namespace Engine

/-- Each id leads to an object that has it, and only objects that were made are there. -/
structure Housed (engine : Engine F) : Prop where
  owned : ∀ rid ref, engine.requests.get? rid = some ref →
    ∃ request, engine.heap ref = some request ∧ request.requestId = rid
  unmade : ∀ ref, engine.heap ref ≠ none → ref < engine.made

/-- What happens around the policy: objects are not made twice, an object that lost its id does not get it back,
and states stay with the objects that have them. -/
structure Ages (engine next : Engine F) : Prop where
  made : engine.made ≤ next.made
  kept : ∀ rid ref, next.requests.get? rid = some ref → ref < engine.made → engine.requests.get? rid = some ref
  alive : ∀ ref, ref < engine.made → next.heap ref ≠ none → engine.heap ref ≠ none
  states : ∀ ref, next.heap ref ≠ none → engine.policy.states ref ≠ none → next.policy.states ref ≠ none

/-- Decisions were made for objects that have a state as long as they live. -/
def Decided (engine : Engine F) (decisions : Nat → Option Decision) : Prop :=
  ∀ ref, decisions ref ≠ none → ref < engine.made ∧ (engine.heap ref ≠ none → engine.policy.states ref ≠ none)

/-- The choices since `begin` are the decisions on the requests that still have their ids. -/
structure Recorded (engine : Engine F) : Prop where
  decided : engine.Decided engine.decisions
  known : ∀ rid row, engine.policy.chosen.get? rid = some row → row.request < engine.made
  sound : ∀ rid row, engine.policy.chosen.get? rid = some row → engine.requests.get? rid = some row.request →
    engine.decisions row.request = some (row.cap, row.eligible)
  complete : ∀ rid ref cap ok, engine.requests.get? rid = some ref → engine.decisions ref = some (cap, ok) →
    engine.policy.chosen.get? rid = some ⟨ref, cap, ok⟩

/-- The rows of a flight are what was scheduled and decided in its step, for the requests that still have their ids. -/
structure Joined (engine : Engine F) (flight : Flight) (rows : OrderedDict String Feedback) : Prop where
  decided : engine.Decided flight.decisions
  known : ∀ rid row, rows.get? rid = some row → row.request < engine.made
  sound : ∀ rid row, rows.get? rid = some row → engine.requests.get? rid = some row.request →
    flight.Scheduled rid row.request row.scheduledK ∧ flight.decisions row.request = some (row.cap, row.eligible)
  complete : ∀ rid ref k cap ok, flight.Scheduled rid ref k → flight.decisions ref = some (cap, ok) →
    rows.get? rid = some ⟨⟨ref, cap, ok⟩, k⟩

/-- The rows that wait for the completion of a flight. -/
def rowsFor (engine : Engine F) (flight : Flight) : OrderedDict String Feedback :=
  (engine.policy.pending.get? flight.output.id).getD .empty

/-- Rows wait for outputs in flight alone, and each output has its own. -/
structure Pending (engine : Engine F) : Prop where
  places : (engine.flights.map (·.output.id)).Nodup
  waiting : ∀ id, engine.policy.pending.get? id ≠ none → id ∈ engine.flights.map (·.output.id)
  joined : ∀ flight ∈ engine.flights, engine.Joined flight (engine.rowsFor flight)

variable {engine next : Engine F}

theorem Ages.decided {decisions : Nat → Option Decision} (ages : Ages engine next) (decided : engine.Decided decisions) :
    next.Decided decisions := by
  intro ref made
  obtain ⟨old, stated⟩ := decided ref made
  exact ⟨lt_of_lt_of_le old ages.made, fun alive => ages.states ref alive (stated (ages.alive ref old alive))⟩

theorem Ages.joined {flight : Flight} {rows : OrderedDict String Feedback} (ages : Ages engine next)
    (joined : engine.Joined flight rows) : next.Joined flight rows := by
  constructor
  case decided => exact ages.decided joined.decided
  case known => exact fun rid row there => lt_of_lt_of_le (joined.known rid row there) ages.made
  case sound =>
    intro rid row there live
    exact joined.sound rid row there (ages.kept rid row.request live (joined.known rid row there))
  case complete => exact joined.complete

/-- Choices stay what they are while the world around them changes. -/
theorem Ages.recorded (ages : Ages engine next) (chosen : next.policy.chosen = engine.policy.chosen)
    (decisions : next.decisions = engine.decisions) (recorded : engine.Recorded) : next.Recorded := by
  constructor
  case decided =>
    rw [decisions]
    exact ages.decided recorded.decided
  case known =>
    intro rid row there
    rw [chosen] at there
    exact lt_of_lt_of_le (recorded.known rid row there) ages.made
  case sound =>
    intro rid row there live
    rw [chosen] at there
    rw [decisions]
    exact recorded.sound rid row there (ages.kept rid row.request live (recorded.known rid row there))
  case complete =>
    intro rid ref cap ok live decided
    rw [decisions] at decided
    have old := (recorded.decided ref (by simp [decided])).1
    rw [chosen]
    exact recorded.complete rid ref cap ok (ages.kept rid ref live old) decided

variable [PyFloat F]

theorem Transition.housed (housed : engine.Housed) (taken : Transition engine next) : next.Housed := by
  cases taken with
  | add request =>
      constructor
      case owned =>
        intro rid ref live
        show ∃ held, Function.update engine.heap engine.made (some request) ref = some held ∧ _
        rcases OrderedDict.get?_set_cases live with ⟨rfl, rfl⟩ | ⟨-, older⟩
        · exact ⟨request, Function.update_self .., rfl⟩
        · obtain ⟨held, alive, same⟩ := housed.owned rid ref older
          have old := housed.unmade ref (by simp [alive])
          exact ⟨held, by rw [Function.update_of_ne (by omega), alive], same⟩
      case unmade =>
        intro ref alive
        show ref < engine.made + 1
        by_contra late
        have different : ref ≠ engine.made := by omega
        have older : engine.heap ref ≠ none := by
          rw [← Function.update_of_ne different (some request) engine.heap]
          exact alive
        have := housed.unmade ref older
        omega
  | change ref request held alive same =>
      constructor
      case owned =>
        intro rid other live
        show ∃ held, Function.update engine.heap ref (some request) other = some held ∧ _
        obtain ⟨old, there, id⟩ := housed.owned rid other live
        by_cases here : other = ref
        · subst here
          cases alive.symm.trans there
          exact ⟨request, Function.update_self .., same.trans id⟩
        · exact ⟨old, by rw [Function.update_of_ne here, there], id⟩
      case unmade =>
        intro other there
        by_cases here : other = ref
        · exact housed.unmade other (by simp [here, alive])
        · exact housed.unmade other (by rwa [← Function.update_of_ne here (some request) engine.heap])
  | remove rid =>
      constructor
      case owned =>
        intro other ref live
        have older : engine.requests.get? other = some ref := by
          rw [OrderedDict.get?_erase] at live
          split at live
          case isTrue => cases live
          case isFalse => exact live
        exact housed.owned other ref older
      case unmade => exact housed.unmade
  | collect ref alive unheld =>
      constructor
      case owned =>
        intro rid other live
        have different : other ≠ ref := fun same =>
          unheld (OrderedDict.mem_values_iff.mpr ⟨rid, same ▸ live⟩)
        show ∃ held, Function.update engine.heap ref none other = some held ∧ _
        rw [Function.update_of_ne different]
        exact housed.owned rid other live
      case unmade =>
        intro other there
        have different : other ≠ ref := by
          rintro rfl
          exact there (Function.update_self ..)
        exact housed.unmade other (by rwa [← Function.update_of_ne different none engine.heap])
  | begin => exact ⟨housed.owned, housed.unmade⟩
  | select ref request c1 tariff alive own => exact ⟨housed.owned, housed.unmade⟩
  | refused => exact housed
  | scheduled output policy apart accepted => exact ⟨housed.owned, housed.unmade⟩
  | complete flight runnerOutput policy calls inside completed => exact ⟨housed.owned, housed.unmade⟩

/-- Every step ages the engine. -/
theorem Transition.ages (taken : Transition engine next) : Ages engine next := by
  cases taken with
  | add request =>
      constructor
      case made => exact Nat.le_succ _
      case kept =>
        intro rid ref live old
        rcases OrderedDict.get?_set_cases live with ⟨-, rfl⟩ | ⟨-, older⟩
        · omega
        · exact older
      case alive =>
        intro ref old there
        have different : ref ≠ engine.made := by omega
        rwa [← Function.update_of_ne different (some request) engine.heap]
      case states => exact fun ref _ stated => stated
  | change ref request held alive same =>
      constructor
      case made => exact le_refl _
      case kept => exact fun rid other live _ => live
      case alive =>
        intro other _ there
        by_cases here : other = ref
        · simp [here, alive]
        · rwa [← Function.update_of_ne here (some request) engine.heap]
      case states => exact fun other _ stated => stated
  | remove rid =>
      constructor
      case made => exact le_refl _
      case kept =>
        intro other ref live _
        rw [OrderedDict.get?_erase] at live
        split at live
        case isTrue => cases live
        case isFalse => exact live
      case alive => exact fun ref _ there => there
      case states => exact fun ref _ stated => stated
  | collect ref alive unheld =>
      have different : ∀ other, Function.update engine.heap ref none other ≠ none → other ≠ ref := by
        rintro other there rfl
        exact there (Function.update_self ..)
      constructor
      case made => exact le_refl _
      case kept => exact fun rid other live _ => live
      case alive =>
        intro other _ there
        rwa [← Function.update_of_ne (different other there) none engine.heap]
      case states =>
        intro other there stated
        show Function.update engine.policy.states ref none other ≠ none
        rwa [Function.update_of_ne (different other there)]
  | begin => exact ⟨le_refl _, fun _ _ live _ => live, fun _ _ there => there, fun _ _ stated => stated⟩
  | select ref request c1 tariff alive own =>
      obtain ⟨state, -, effect⟩ := engine.policy.select_effect ref request c1 tariff
      refine ⟨le_refl _, fun _ _ live _ => live, fun _ _ there => there, ?_⟩
      intro other _ stated
      show (engine.policy.select ref request c1 tariff).1.states other ≠ none
      rw [effect]
      show Function.update engine.policy.states ref (some state) other ≠ none
      by_cases here : other = ref
      · simp [here]
      · rwa [Function.update_of_ne here]
  | refused => exact ⟨le_refl _, fun _ _ live _ => live, fun _ _ there => there, fun _ _ stated => stated⟩
  | scheduled output policy apart accepted =>
      refine ⟨le_refl _, fun _ _ live _ => live, fun _ _ there => there, ?_⟩
      intro ref _ stated
      rcases VerificationPolicy.scheduled_ok accepted with ⟨-, rfl⟩ | rfl
      · exact stated
      · exact stated
  | complete flight runnerOutput policy calls inside completed =>
      obtain ⟨after, done, advanced⟩ :=
        engine.policy.complete_ok flight.output.id runnerOutput engine.requests engine.heap
      cases completed.symm.trans done
      refine ⟨le_refl _, fun _ _ live _ => live, fun _ _ there => there, ?_⟩
      intro ref _ stated
      have same := advanced.same ref
      rw [Option.isSome_iff_ne_none.mpr stated] at same
      exact Option.isSome_iff_ne_none.mp same.symm

theorem Transition.recorded (housed : engine.Housed) (recorded : engine.Recorded) (taken : Transition engine next) :
    next.Recorded := by
  have ages := taken.ages
  cases taken with
  | add request => exact ages.recorded rfl rfl recorded
  | change ref request held alive same => exact ages.recorded rfl rfl recorded
  | remove rid => exact ages.recorded rfl rfl recorded
  | collect ref alive unheld => exact ages.recorded rfl rfl recorded
  | refused => exact recorded
  | begin =>
      constructor
      case decided => exact fun ref decided => absurd rfl decided
      case known => exact fun rid row there => nomatch there
      case sound => exact fun rid row there => nomatch there
      case complete => exact fun rid ref cap ok live decided => nomatch decided
  | select ref request c1 tariff alive own =>
      obtain ⟨state, -, effect⟩ := engine.policy.select_effect ref request c1 tariff
      have made := housed.unmade ref (by simp [alive])
      have sameId : ∀ rid, engine.requests.get? rid = some ref → rid = request.requestId := by
        intro rid live
        obtain ⟨held, there, id⟩ := housed.owned rid ref live
        cases alive.symm.trans there
        exact id.symm
      have chosen : (engine.policy.select ref request c1 tariff).1.chosen = engine.policy.chosen.set request.requestId
          ⟨ref, (engine.policy.select ref request c1 tariff).2, eligible request c1⟩ := by rw [effect]
      constructor
      case decided =>
        intro other decided
        by_cases here : other = ref
        · subst here
          refine ⟨made, fun _ => ?_⟩
          show (engine.policy.select other request c1 tariff).1.states other ≠ none
          simp [effect]
        · exact ages.decided recorded.decided other
            (by rwa [← Function.update_of_ne here _ engine.decisions])
      case known =>
        intro rid row there
        rcases OrderedDict.get?_set_cases (chosen ▸ there) with ⟨-, rfl⟩ | ⟨-, older⟩
        · exact made
        · exact recorded.known rid row older
      case sound =>
        intro rid row there live
        show Function.update engine.decisions ref _ row.request = _
        rcases OrderedDict.get?_set_cases (chosen ▸ there) with ⟨-, rfl⟩ | ⟨different, older⟩
        · exact Function.update_self ..
        · have other : row.request ≠ ref := fun here => different (sameId rid (here ▸ live))
          rw [Function.update_of_ne other]
          exact recorded.sound rid row older live
      case complete =>
        intro rid other cap ok live decided
        show (engine.policy.select ref request c1 tariff).1.chosen.get? rid = _
        rw [chosen]
        by_cases here : other = ref
        · subst here
          have known := (Function.update_self ..).symm.trans decided
          cases known
          rw [sameId rid live, OrderedDict.get?_set_self]
        · have different : rid ≠ request.requestId := by
            rintro rfl
            exact here (Option.some.inj (live.symm.trans own))
          rw [OrderedDict.get?_set_of_ne _ _ different]
          exact recorded.complete rid other cap ok live
            ((Function.update_of_ne here _ engine.decisions).symm.trans decided)
  | scheduled output policy apart accepted =>
      refine ages.recorded ?_ rfl recorded
      rcases VerificationPolicy.scheduled_ok accepted with ⟨-, rfl⟩ | rfl
      · rfl
      · rfl
  | complete flight runnerOutput policy calls inside completed =>
      obtain ⟨after, done, advanced⟩ :=
        engine.policy.complete_ok flight.output.id runnerOutput engine.requests engine.heap
      cases completed.symm.trans done
      exact ages.recorded advanced.chosen rfl recorded

omit [PyFloat F] in
/-- A flight that stays keeps its rows. -/
theorem Ages.pending (ages : Ages engine next) (pending : engine.Pending)
    (nodup : (next.flights.map (·.output.id)).Nodup)
    (waiting : ∀ id, next.policy.pending.get? id ≠ none → id ∈ next.flights.map (·.output.id))
    (old : ∀ flight ∈ next.flights, flight ∈ engine.flights ∧
      next.policy.pending.get? flight.output.id = engine.policy.pending.get? flight.output.id) : next.Pending := by
  constructor
  case places => exact nodup
  case waiting => exact waiting
  case joined =>
    intro flight inside
    obtain ⟨before, same⟩ := old flight inside
    rw [rowsFor, same]
    exact ages.joined (pending.joined flight before)

omit [PyFloat F] in
/-- The rows of an output are the choices for what it schedules. -/
theorem Recorded.joined (recorded : engine.Recorded) (output : SchedulerOutput) :
    engine.Joined ⟨output, engine.issued, engine.requests, engine.decisions⟩
      (VerificationPolicy.rowsOf engine.policy.chosen output.scheduledSpecDecodeTokens) := by
  constructor
  case decided => exact recorded.decided
  case known =>
    intro rid row there
    exact recorded.known rid row.toChoice (VerificationPolicy.get?_rowsOf.mp there).1
  case sound =>
    intro rid row there live
    obtain ⟨chosen, drafts⟩ := VerificationPolicy.get?_rowsOf.mp there
    exact ⟨⟨live, drafts⟩, recorded.sound rid row.toChoice chosen live⟩
  case complete =>
    intro rid ref k cap ok scheduled decided
    exact VerificationPolicy.get?_rowsOf.mpr ⟨recorded.complete rid ref cap ok scheduled.1 decided, scheduled.2⟩

theorem Transition.pending (recorded : engine.Recorded) (pending : engine.Pending)
    (taken : Transition engine next) : next.Pending := by
  have ages := taken.ages
  have unchanged : next.flights = engine.flights → next.policy.pending = engine.policy.pending → next.Pending := by
    intro flights rows
    refine ages.pending pending (flights ▸ pending.places) ?_ ?_
    · rw [flights, rows]
      exact pending.waiting
    · intro flight inside
      exact ⟨flights ▸ inside, by rw [rows]⟩
  cases taken with
  | add request => exact unchanged rfl rfl
  | change ref request held alive same => exact unchanged rfl rfl
  | remove rid => exact unchanged rfl rfl
  | collect ref alive unheld => exact unchanged rfl rfl
  | begin => exact unchanged rfl rfl
  | select ref request c1 tariff alive own =>
      obtain ⟨state, -, effect⟩ := engine.policy.select_effect ref request c1 tariff
      refine unchanged rfl ?_
      show (engine.policy.select ref request c1 tariff).1.pending = engine.policy.pending
      rw [effect]
  | refused => exact pending
  | scheduled output policy apart accepted =>
      have absent : engine.policy.pending.get? output.id = none := by
        by_contra there
        exact apart (pending.waiting output.id there)
      obtain ⟨own, others⟩ := VerificationPolicy.scheduled_rows accepted absent
      constructor
      case places =>
        show ((engine.flights ++ [_]).map fun flight : Flight => flight.output.id).Nodup
        rw [List.map_append, List.nodup_append]
        refine ⟨pending.places, by simp, ?_⟩
        intro id before new last
        rw [List.map_singleton, List.mem_singleton] at last
        rintro rfl
        exact apart (last ▸ before)
      case waiting =>
        intro id there
        show id ∈ (engine.flights ++ [_]).map fun flight : Flight => flight.output.id
        rw [List.map_append, List.mem_append]
        by_cases here : id = output.id
        · exact .inr (by simp [here])
        · exact .inl (pending.waiting id (others id here ▸ there))
      case joined =>
        intro flight inside
        rcases List.mem_append.mp inside with before | last
        · have different : flight.output.id ≠ output.id := fun same =>
            apart (same ▸ List.mem_map_of_mem before)
          refine ages.joined ?_
          show engine.Joined flight ((policy.pending.get? flight.output.id).getD .empty)
          rw [others _ different]
          exact pending.joined flight before
        · cases List.mem_singleton.mp last
          refine ages.joined ?_
          show engine.Joined _ ((policy.pending.get? output.id).getD .empty)
          rw [own]
          exact recorded.joined output
  | complete flight runnerOutput policy calls inside completed =>
      obtain ⟨after, done, advanced⟩ :=
        engine.policy.complete_ok flight.output.id runnerOutput engine.requests engine.heap
      cases completed.symm.trans done
      have rows : ∀ id, policy.pending.get? id = if id = flight.output.id then none else engine.policy.pending.get? id := by
        intro id
        rw [advanced.pending, OrderedDict.get?_erase]
      refine ages.pending pending ?_ ?_ ?_
      · exact pending.places.sublist (List.filter_sublist.map _)
      · intro id there
        rw [rows] at there
        split at there
        case isTrue => exact absurd rfl there
        case isFalse different =>
          obtain ⟨other, held, rfl⟩ := List.mem_map.mp (pending.waiting id there)
          exact List.mem_map_of_mem (List.mem_filter.mpr ⟨held, by simpa using different⟩)
      · intro other held
        obtain ⟨before, different⟩ := List.mem_filter.mp held
        refine ⟨before, ?_⟩
        rw [rows, if_neg (by simpa using different)]

/-- The flights are steps of their own, and the calls of a step come from its completion. -/
structure Logged (engine : Engine F) : Prop where
  numbers : (engine.flights.map (·.number)).Nodup
  issued : ∀ flight ∈ engine.flights, flight.number < engine.issued
  past : ∀ entry ∈ engine.observed, entry.1 < engine.issued ∧ ∀ flight ∈ engine.flights, flight.number ≠ entry.1
  once : (engine.observed.map fun entry => (entry.1, entry.2.request)).Nodup

/-- The calls of `observe` on the statistics of a request. -/
def callsOn (engine : Engine F) (ref : Nat) : List Observed :=
  (engine.observed.map Prod.snd).filter (·.request = ref)

/-- The statistics of the request objects come from the calls on them alone. -/
def Taught (engine : Engine F) : Prop :=
  ∀ ref, engine.heap ref ≠ none ∨ engine.made ≤ ref →
    ∃ stats, PrefixStats.fresh.replay (engine.callsOn ref) = .ok stats ∧
      stats.evidence = (engine.policy.stateOf ref).stats.evidence

omit [PyFloat F] in
/-- The calls of a completion are those the step of the flight may make. -/
theorem mem_callsOf {flight : Flight} {runnerOutput : ModelRunnerOutput} {call : Observed}
    (pending : engine.Pending) (inside : flight ∈ engine.flights) :
    call ∈ engine.policy.callsOf flight.output.id runnerOutput engine.requests engine.heap ↔
      ∃ rid, Teaches engine flight runnerOutput rid call := by
  have joined := pending.joined flight inside
  rw [VerificationPolicy.callsOf]
  by_cases invalid : runnerOutput.invalidBlockIds ≠ []
  · rw [if_pos invalid]
    constructor
    · intro made
      cases made
    · rintro ⟨rid, teaches⟩
      exact absurd teaches.valid invalid
  · rw [if_neg invalid, List.mem_filterMap]
    constructor
    · rintro ⟨⟨rid, row⟩, waiting, leads⟩
      obtain ⟨same, found⟩ := VerificationPolicy.callOf_eq_some_iff.mp leads
      obtain ⟨request, tokens, alive, live, unfinished, -, kept, returned, size, within, count, eligible, open', capped⟩ :=
        VerificationPolicy.lesson_eq_some_iff.mp found
      obtain ⟨scheduled, decided⟩ := joined.sound rid row (OrderedDict.get?_eq_some_iff.mpr waiting) live
      simp only at same count capped
      refine ⟨rid, ?_⟩
      constructor
      case scheduled => rwa [← same, count]
      case returned => exact ⟨request, tokens, same ▸ alive, returned, size, within, open', unfinished, kept⟩
      case chosen => exact ⟨row.cap, by rw [← same, decided, eligible], capped⟩
      case valid => exact not_not.mp invalid
      case live => exact same ▸ live
    · rintro ⟨rid, teaches⟩
      obtain ⟨cap, decided, capped⟩ := teaches.chosen
      obtain ⟨request, tokens, alive, returned, size, within, open', unfinished, kept⟩ := teaches.returned
      have there := joined.complete rid call.request call.k cap true teaches.scheduled decided
      have known := (joined.decided call.request (by simp [decided])).2 (by simp [alive])
      refine ⟨(rid, ⟨⟨call.request, cap, true⟩, call.k⟩), OrderedDict.get?_eq_some_iff.mp there, ?_⟩
      refine VerificationPolicy.callOf_eq_some_iff.mpr ⟨rfl, VerificationPolicy.lesson_eq_some_iff.mpr ?_⟩
      exact ⟨request, tokens, alive, teaches.live, unfinished, Option.isSome_iff_ne_none.mpr known, kept, returned, size,
        within, rfl, rfl, open', capped⟩

omit [PyFloat F] in
/-- No request is observed twice in one completion. -/
theorem callsOf_nodup (housed : engine.Housed) (id : Nat) (runnerOutput : ModelRunnerOutput) :
    ((engine.policy.callsOf id runnerOutput engine.requests engine.heap).map (·.request)).Nodup := by
  rw [VerificationPolicy.callsOf]
  split
  case isTrue => exact List.nodup_nil
  case isFalse =>
    rw [List.map_filterMap]
    generalize (engine.policy.pending.get? id).getD .empty = rows
    refine List.pairwise_filterMap.mpr ((List.pairwise_map.mp rows.nodup).imp ?_)
    intro first second different ref here other there same
    subst same
    have live : ∀ entry : String × Feedback, (engine.policy.callOf runnerOutput engine.requests engine.heap entry).map
        (·.request) = some ref → engine.requests.get? entry.1 = some ref := by
      intro entry called
      obtain ⟨call, leads, rfl⟩ := Option.map_eq_some_iff.mp called
      obtain ⟨same, found⟩ := VerificationPolicy.callOf_eq_some_iff.mp leads
      obtain ⟨request, tokens, -, live, -⟩ := VerificationPolicy.lesson_eq_some_iff.mp found
      exact same ▸ live
    obtain ⟨request, alive, id⟩ := housed.owned first.1 ref (live first here)
    obtain ⟨also, again, otherId⟩ := housed.owned second.1 ref (live second there)
    cases alive.symm.trans again
    exact different (id.symm.trans otherId)

theorem Transition.logged (housed : engine.Housed) (logged : engine.Logged) (taken : Transition engine next) :
    next.Logged := by
  cases taken with
  | add request => exact ⟨logged.numbers, logged.issued, logged.past, logged.once⟩
  | change ref request held alive same => exact ⟨logged.numbers, logged.issued, logged.past, logged.once⟩
  | remove rid => exact ⟨logged.numbers, logged.issued, logged.past, logged.once⟩
  | collect ref alive unheld => exact ⟨logged.numbers, logged.issued, logged.past, logged.once⟩
  | begin => exact ⟨logged.numbers, logged.issued, logged.past, logged.once⟩
  | select ref request c1 tariff alive own => exact ⟨logged.numbers, logged.issued, logged.past, logged.once⟩
  | refused => exact logged
  | scheduled output policy apart accepted =>
      constructor
      case numbers =>
        show ((engine.flights ++ [_]).map fun flight : Flight => flight.number).Nodup
        rw [List.map_append, List.nodup_append]
        refine ⟨logged.numbers, by simp, ?_⟩
        intro number before new last
        rw [List.map_singleton, List.mem_singleton] at last
        obtain ⟨flight, inside, rfl⟩ := List.mem_map.mp before
        have earlier := logged.issued flight inside
        rw [last]
        exact Nat.ne_of_lt earlier
      case issued =>
        intro flight inside
        show flight.number < engine.issued + 1
        rcases List.mem_append.mp inside with before | last
        · have := logged.issued flight before
          omega
        · cases List.mem_singleton.mp last
          exact Nat.lt_succ_self _
      case past =>
        intro entry observed
        obtain ⟨earlier, apart⟩ := logged.past entry observed
        refine ⟨Nat.lt_succ_of_lt earlier, ?_⟩
        intro flight inside
        rcases List.mem_append.mp inside with before | last
        · exact apart flight before
        · cases List.mem_singleton.mp last
          exact Nat.ne_of_gt earlier
      case once => exact logged.once
  | complete flight runnerOutput policy calls inside completed =>
      obtain ⟨after, done, advanced⟩ :=
        engine.policy.complete_ok flight.output.id runnerOutput engine.requests engine.heap
      cases completed.symm.trans done
      constructor
      case numbers => exact logged.numbers.sublist (List.filter_sublist.map _)
      case issued => exact fun other held => logged.issued other (List.mem_filter.mp held).1
      case past =>
        intro entry observed
        rcases List.mem_append.mp observed with before | new
        · obtain ⟨earlier, apart⟩ := logged.past entry before
          exact ⟨earlier, fun other held => apart other (List.mem_filter.mp held).1⟩
        · obtain ⟨call, -, rfl⟩ := List.mem_map.mp new
          refine ⟨logged.issued flight inside, ?_⟩
          intro other held same
          obtain ⟨before, different⟩ := List.mem_filter.mp held
          have equal := List.inj_on_of_nodup_map logged.numbers before inside same
          simp [equal] at different
      case once =>
        show ((engine.observed ++ _).map fun entry : Nat × Observed => (entry.1, entry.2.request)).Nodup
        rw [List.map_append, List.nodup_append]
        refine ⟨logged.once, ?_, ?_⟩
        · rw [List.map_map]
          exact List.Nodup.of_map Prod.snd (by simpa [Function.comp_def] using callsOf_nodup housed _ runnerOutput)
        · intro old before new there same
          obtain ⟨entry, observed, rfl⟩ := List.mem_map.mp before
          obtain ⟨again, made, rfl⟩ := List.mem_map.mp there
          obtain ⟨call, -, rfl⟩ := List.mem_map.mp made
          exact (logged.past entry observed).2 flight inside (congrArg Prod.fst same).symm

/-- A step without a completion leaves the statistics of the objects that are left. -/
theorem Taught.kept (taught : engine.Taught) (observed : next.observed = engine.observed)
    (left : ∀ ref, next.heap ref ≠ none ∨ next.made ≤ ref → engine.heap ref ≠ none ∨ engine.made ≤ ref)
    (same : ∀ ref, next.heap ref ≠ none ∨ next.made ≤ ref →
      (next.policy.stateOf ref).stats.evidence = (engine.policy.stateOf ref).stats.evidence) : next.Taught := by
  intro ref there
  obtain ⟨stats, replayed, agree⟩ := taught ref (left ref there)
  refine ⟨stats, ?_, agree.trans (same ref there).symm⟩
  rw [callsOn, observed]
  exact replayed

theorem Transition.taught (housed : engine.Housed) (taught : engine.Taught) (taken : Transition engine next) :
    next.Taught := by
  cases taken with
  | add request =>
      refine taught.kept rfl ?_ fun ref _ => rfl
      intro ref there
      by_cases fresh : engine.made ≤ ref
      · exact .inr fresh
      · have different : ref ≠ engine.made := by omega
        rcases there with alive | late
        · exact .inl (by rwa [← Function.update_of_ne different (some request) engine.heap])
        · exact absurd (Nat.le_of_succ_le late) fresh
  | change ref request held alive same =>
      refine taught.kept rfl ?_ fun other _ => rfl
      intro other there
      by_cases here : other = ref
      · exact .inl (by simp [here, alive])
      · exact there.imp_left fun alive => by rwa [← Function.update_of_ne here (some request) engine.heap]
  | remove rid => exact taught.kept rfl (fun ref there => there) fun ref _ => rfl
  | collect ref alive unheld =>
      have different : ∀ other, Function.update engine.heap ref none other ≠ none ∨ engine.made ≤ other →
          other ≠ ref := by
        rintro other (there | late) rfl
        · exact there (Function.update_self ..)
        · exact absurd (housed.unmade other alive) (Nat.not_lt.mpr late)
      refine taught.kept rfl ?_ ?_
      · intro other there
        exact there.imp_left fun alive => by rwa [← Function.update_of_ne (different other there) none engine.heap]
      · intro other there
        show PrefixStats.evidence ((Function.update engine.policy.states ref none other).getD _).stats = _
        rw [Function.update_of_ne (different other there)]
        rfl
  | begin => exact taught.kept rfl (fun ref there => there) fun ref _ => rfl
  | select ref request c1 tariff alive own =>
      refine taught.kept rfl (fun ref there => there) ?_
      intro other _
      obtain ⟨state, evidence, effect⟩ := engine.policy.select_effect ref request c1 tariff
      show PrefixStats.evidence ((engine.policy.select ref request c1 tariff).1.stateOf other).stats = _
      rw [effect]
      show PrefixStats.evidence ((Function.update engine.policy.states ref (some state) other).getD _).stats = _
      by_cases here : other = ref
      · subst here
        rw [Function.update_self]
        exact evidence
      · rw [Function.update_of_ne here]
        rfl
  | refused => exact taught
  | scheduled output policy apart accepted =>
      refine taught.kept rfl (fun ref there => there) ?_
      intro ref _
      rcases VerificationPolicy.scheduled_ok accepted with ⟨-, rfl⟩ | rfl
      · rfl
      · rfl
  | complete flight runnerOutput policy calls inside completed =>
      obtain ⟨after, done, advanced⟩ :=
        engine.policy.complete_ok flight.output.id runnerOutput engine.requests engine.heap
      cases completed.symm.trans done
      intro ref there
      obtain ⟨stats, replayed, agree⟩ := taught ref there
      have log : ∀ news : List Observed, ((engine.observed ++ news.map fun call => (flight.number, call)).map
          Prod.snd).filter (·.request = ref) = engine.callsOn ref ++ news.filter (·.request = ref) := by
        intro news
        rw [List.map_append, List.map_map, List.filter_append]
        simp [callsOn, Function.comp_def]
      show ∃ stats, PrefixStats.fresh.replay (((engine.observed ++ _).map Prod.snd).filter (·.request = ref)) = _ ∧ _
      rw [log, PrefixStats.replay_append, replayed]
      cases known : engine.policy.states ref with
      | some state =>
          obtain ⟨later, reached, -, learned⟩ := advanced.taught ref state known
          have begun : (engine.policy.stateOf ref).stats = state.stats := by rw [VerificationPolicy.stateOf, known]; rfl
          obtain ⟨last, replayedTo, equal⟩ := PrefixStats.replay_evidence (agree.trans (congrArg _ begun)).symm learned
          refine ⟨last, replayedTo, equal.symm.trans ?_⟩
          show _ = ((policy.states ref).getD _).stats.evidence
          rw [reached]
          rfl
      | none =>
          have silent : (engine.policy.callsOf flight.output.id runnerOutput engine.requests engine.heap).filter
              (·.request = ref) = [] := by
            refine List.filter_eq_nil_iff.mpr ?_
            intro call made same
            have present := VerificationPolicy.callsOf_known made
            rw [of_decide_eq_true same, known] at present
            cases present
          have absent : policy.states ref = none := by
            have same := advanced.same ref
            rw [known] at same
            exact Option.isNone_iff_eq_none.mp (by simpa using same.symm)
          rw [silent]
          refine ⟨stats, rfl, agree.trans ?_⟩
          rw [VerificationPolicy.stateOf, VerificationPolicy.stateOf, known, absent]

/-- What holds between any two steps. -/
structure Sound (engine : Engine F) : Prop where
  housed : engine.Housed
  recorded : engine.Recorded
  pending : engine.Pending
  logged : engine.Logged
  taught : engine.Taught

theorem sound_init (mode : Mode) (fixed : Cap) : (init mode fixed : Engine F).Sound := by
  constructor
  case housed => exact ⟨fun _ _ => nofun, fun ref alive => absurd rfl alive⟩
  case recorded =>
    exact ⟨fun ref decided => absurd rfl decided, fun _ _ => nofun, fun _ _ => nofun, fun _ _ _ _ => nofun⟩
  case pending => exact ⟨List.nodup_nil, fun id there => absurd rfl there, fun _ => nofun⟩
  case logged => exact ⟨List.nodup_nil, fun _ => nofun, fun _ => nofun, List.nodup_nil⟩
  case taught => exact fun ref _ => ⟨.fresh, rfl, rfl⟩

theorem sound_run {mode : Mode} {fixed : Cap} {actions : List (Action F)}
    (reached : Run.run step (init mode fixed) actions = some engine) : engine.Sound := by
  refine Run.run_invariant ?_ (sound_init mode fixed) reached
  intro state action next sound taken
  have changed := transition_of_step taken
  exact ⟨changed.housed sound.housed, changed.recorded sound.housed sound.recorded,
    changed.pending sound.recorded sound.pending, changed.logged sound.housed sound.logged,
    changed.taught sound.housed sound.taught⟩

/-- The queue of rows has room for an output while fewer than 64 are in flight. -/
theorem scheduled_accepted {mode : Mode} {fixed : Cap} {actions : List (Action F)} {engine : Engine F}
    (reached : Run.run step (init mode fixed) actions = some engine) (room : engine.flights.length < 64)
    (output : SchedulerOutput) : ∃ policy, engine.policy.scheduled output = .ok policy := by
  have sound := sound_run reached
  have few : engine.policy.pending.keys.length ≤ (engine.flights.map (·.output.id)).length := by
    refine (List.subperm_of_subset engine.policy.pending.keys_nodup ?_).length_le
    intro id key
    obtain ⟨rows, there⟩ := OrderedDict.mem_keys_iff.mp key
    exact sound.pending.waiting id (by simp [there])
  cases accepted : engine.policy.scheduled output with
  | ok policy => exact ⟨policy, rfl⟩
  | error raised =>
      have full := (VerificationPolicy.scheduled_error accepted).1
      simp only [OrderedDict.keys, List.length_map] at few
      omega

/-- Between any steps, completing an output in flight raises nothing and observes each request at most once, exactly
those that the step of the output may teach, with the drafts and the accepted tokens of that step. No step has
observed a request twice, the statistics of every request come from the calls on it, and rows wait for outputs in
flight alone. -/
theorem feedback_exact {mode : Mode} {fixed : Cap} {actions : List (Action F)} {engine : Engine F}
    (reached : Run.run step (init mode fixed) actions = some engine) :
    (∀ flight ∈ engine.flights, ∀ runnerOutput, ∃ policy calls,
      engine.policy.complete flight.output.id runnerOutput engine.requests engine.heap = .ok (policy, calls) ∧
      (calls.map (·.request)).Nodup ∧ ∀ call, call ∈ calls ↔ ∃ rid, Teaches engine flight runnerOutput rid call) ∧
    (engine.observed.map fun entry => (entry.1, entry.2.request)).Nodup ∧
    (∀ ref, engine.heap ref ≠ none → ∃ stats, PrefixStats.fresh.replay (engine.callsOn ref) = .ok stats ∧
      stats.evidence = (engine.policy.stateOf ref).stats.evidence) ∧
    (∀ id ∈ engine.policy.pending.keys, id ∈ engine.flights.map (·.output.id)) ∧
    (engine.flights = [] → engine.policy.pending.entries = []) := by
  have sound := sound_run reached
  have waiting : ∀ id ∈ engine.policy.pending.keys, id ∈ engine.flights.map (·.output.id) := by
    intro id key
    obtain ⟨rows, there⟩ := OrderedDict.mem_keys_iff.mp key
    exact sound.pending.waiting id (by simp [there])
  refine ⟨?_, sound.logged.once, fun ref alive => sound.taught ref (.inl alive), waiting, ?_⟩
  · intro flight inside runnerOutput
    obtain ⟨policy, completed, -⟩ :=
      engine.policy.complete_ok flight.output.id runnerOutput engine.requests engine.heap
    exact ⟨policy, _, completed, callsOf_nodup sound.housed _ _, fun call => mem_callsOf sound.pending inside⟩
  · intro landed
    have none : engine.policy.pending.keys = [] := by
      refine List.eq_nil_iff_forall_not_mem.mpr ?_
      intro id key
      have inside := waiting id key
      rw [landed] at inside
      cases inside
    exact List.map_eq_nil_iff.mp none

def greedyParams : SamplingParams (Option ℚ) where
  temperature := some 0
  presencePenalty := some 0
  frequencyPenalty := some 0
  repetitionPenalty := some 1
  allowedTokenIds := []
  badWords := []
  logitBias := []
  ignoreEos := false
  stopTokenIds := []
  allStopTokenIds := []
  stop := []
  specPolicy := none
  specVerifyCap := some (.int 3)

def greedyRequest : Request (Option ℚ) where
  requestId := "r"
  samplingParams := some greedyParams
  isPrefillChunk := false
  useStructuredOutput := false
  resumable := false
  loraRequest := false
  mmFeatures := []
  asyncTokensToDiscard := 0
  numOutputTokens := 20
  maxTokens := 1024
  eosTokenId := none
  isFinished := false

/-- A request is added and one step of it is scheduled with three drafts. -/
def oneStep : List (Action (Option ℚ)) :=
  [.add greedyRequest, .begin, .select 0 true ⟨.empty, none, false⟩,
    .scheduled ⟨0, ⟨[("r", [-1, -1, -1])], by simp⟩⟩]

theorem feedback_exact_oneStep : ∃ engine, Run.run step (init .fixed .full) oneStep = some engine ∧
    engine.flights.length = 1 ∧ ∀ flight ∈ engine.flights, ∀ runnerOutput, ∃ policy calls,
      engine.policy.complete flight.output.id runnerOutput engine.requests engine.heap = .ok (policy, calls) ∧
      (calls.map (·.request)).Nodup ∧ ∀ call, call ∈ calls ↔ ∃ rid, Teaches engine flight runnerOutput rid call := by
  have reached : (Run.run step (init .fixed .full) oneStep).isSome := by decide +kernel
  obtain ⟨engine, same⟩ := Option.isSome_iff_exists.mp reached
  refine ⟨engine, same, ?_, (feedback_exact same).1⟩
  have count : (Run.run step (init .fixed .full) oneStep).map (·.flights.length) = some 1 := by decide +kernel
  rw [same] at count
  exact Option.some.inj count

end Engine

end DgxSpark.Adaptive
