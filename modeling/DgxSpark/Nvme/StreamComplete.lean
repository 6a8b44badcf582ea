import DgxSpark.Nvme.StreamTransitions

/-
This file shows that `stream_weights` is all or nothing: it completes only when it yielded every tensor that is not
skipped once, and otherwise it raises.
-/

namespace DgxSpark.Nvme.Streaming

open Library

variable {DType : Type}

namespace StreamWeights

/-- The names that the streamer delivered are in, and those that are not skipped were yielded. -/
structure Streamed (call : StreamCall DType) (seen deliveries yields : List String) : Prop where
  known : ∀ name ∈ seen, name ∈ call.checkpoint.tensors.keys
  nodup : seen.Nodup
  delivered : deliveries = seen
  yielded : yields = seen.filter fun name => !call.skip name

/-- The tensors that the loop has passed were delivered, or they are empty and were yielded unless they are skipped. -/
structure Sweeping (call : StreamCall DType) (seen deliveries yields : List String) (passed : List (Row DType)) :
    Prop where
  known : ∀ name ∈ seen, name ∈ call.checkpoint.tensors.keys
  nodup : seen.Nodup
  delivered : deliveries = seen
  empty : ∀ row ∈ passed, row.1 ∈ seen ∨ row.2.bytes = 0
  yielded : yields = (seen.filter fun name => !call.skip name) ++
    (passed.map Prod.fst).filter fun name => name ∉ seen ∧ call.skip name = false

/-- The files at the end have the stamps of the metadata. -/
def Unchanged (call : StreamCall DType) (disk : Option (String → Option Stamp)) : Prop :=
  ∃ found, disk = some found ∧
    ∀ path stamp, call.checkpoint.stamps.get? path = some stamp → found path = some stamp

def ProgressAt (call : StreamCall DType) (seen deliveries yields : List String) (disk : Option (String → Option Stamp))
    (complete : Bool) : Point DType → Prop
  | .start | .opening | .entered | .waiting | .yielded _ | .leaving none => Streamed call seen deliveries yields
  | .leaving (some outcome) => outcome ≠ .returned
  | .yieldedEmpty rest =>
      ∃ passed, call.checkpoint.tensors.entries = passed ++ rest ∧ Sweeping call seen deliveries yields passed
  | .checking => Sweeping call seen deliveries yields call.checkpoint.tensors.entries
  | .done .returned => Sweeping call seen deliveries yields call.checkpoint.tensors.entries ∧ Unchanged call disk ∧
      complete = true
  | .done _ => True

/-- A tensor has the shape and the type that the checkpoint records under its name. -/
def Recorded (call : StreamCall DType) (entry : String × Tensor DType) : Prop :=
  ∃ info, call.checkpoint.tensors.get? entry.1 = some info ∧ entry.2.shape = info.shape ∧ entry.2.dtype = info.dtype

structure Sound (call : StreamCall DType) (state : StreamWeights DType) : Prop where
  recorded : ∀ entry ∈ state.yields, Recorded call entry
  incomplete : state.metrics.complete = true → state.point = .done .returned
  progress : ProgressAt call state.seen (state.deliveries.map Prod.fst) (state.yields.map Prod.fst) state.disk
    state.metrics.complete state.point

variable {call : StreamCall DType} {state next : StreamWeights DType}

/-- Passing rows without a yield keeps the account of the loop. -/
theorem Sweeping.pass {deliveries yields : List String} {passed front : List (Row DType)}
    (sweeping : Sweeping call state.seen deliveries yields passed) (skipped : Passed call state front) :
    Sweeping call state.seen deliveries yields (passed ++ front) where
  known := sweeping.known
  nodup := sweeping.nodup
  delivered := sweeping.delivered
  empty row inside := by
    rcases List.mem_append.mp inside with before | new
    · exact sweeping.empty row before
    · exact (skipped row new).imp_right And.left
  yielded := by
    have none : (front.map Prod.fst).filter (fun name => name ∉ state.seen ∧ call.skip name = false) = [] := by
      rw [List.filter_eq_nil_iff]
      intro name inside
      obtain ⟨row, member, rfl⟩ := List.mem_map.mp inside
      rcases skipped row member with seen | ⟨_, skip⟩
      · simp [seen]
      · simp [skip]
    rw [List.map_append, List.filter_append, none, List.append_nil]
    exact sweeping.yielded

theorem Sound.swept {passed rows : List (Row DType)} (recorded : ∀ entry ∈ state.yields, Recorded call entry)
    (incomplete : state.metrics.complete = false)
    (sweeping : Sweeping call state.seen (state.deliveries.map Prod.fst) (state.yields.map Prod.fst) passed)
    (split : call.checkpoint.tensors.entries = passed ++ rows) (swept : Swept call state rows next) :
    Sound call next := by
  have never : state.metrics.complete = true → next.point = .done .returned := by
    rw [incomplete]
    exact fun impossible => absurd impossible (by decide)
  cases swept with
  | ended skipped =>
      refine ⟨recorded, never, ?_⟩
      show Sweeping call _ _ _ call.checkpoint.tensors.entries
      rw [split]
      exact sweeping.pass skipped
  | missing error => exact ⟨recorded, never, trivial⟩
  | yields front name info rest cut skipped fresh empty skip =>
      have here : call.checkpoint.tensors.get? name = some info := by
        apply OrderedDict.get?_eq_some_iff.mpr
        rw [split, cut]
        simp
      have one : [name].filter (fun name => decide (name ∉ state.seen ∧ call.skip name = false)) = [name] := by
        simp [fresh, skip]
      refine ⟨?_, never, passed ++ front ++ [(name, info)], ?_, ?_⟩
      · intro entry inside
        rcases List.mem_append.mp inside with before | last
        · exact recorded entry before
        · rw [List.mem_singleton.mp last]
          exact ⟨info, here, rfl, rfl⟩
      · rw [split, cut]
        simp
      · have whole := sweeping.pass skipped
        refine ⟨sweeping.known, sweeping.nodup, sweeping.delivered, ?_, ?_⟩
        · intro row inside
          rcases List.mem_append.mp inside with before | last
          · exact whole.empty row before
          · rw [List.mem_singleton.mp last]
            exact .inr empty
        · have tail : ((passed ++ front ++ [(name, info)]).map Prod.fst).filter
              (fun name => decide (name ∉ state.seen ∧ call.skip name = false)) =
                ((passed ++ front).map Prod.fst).filter
                  (fun name => decide (name ∉ state.seen ∧ call.skip name = false)) ++ [name] := by
            rw [List.map_append, List.filter_append]
            exact congrArg _ one
          show (state.yields ++ [(name, _)]).map Prod.fst = _
          rw [tail, List.map_append, whole.yielded, List.append_assoc]
          rfl

theorem Sound.accepted {name : String} {tensor : Tensor DType} {after : StreamWeights DType}
    (recorded : ∀ entry ∈ state.yields, Recorded call entry) (incomplete : state.metrics.complete = false)
    (streamed : Streamed call state.seen (state.deliveries.map Prod.fst) (state.yields.map Prod.fst))
    (accepted : Accepted call { state with deliveries := state.deliveries ++ [(name, tensor)] } name tensor after) :
    Sound call after := by
  have never (point : Prop) : state.metrics.complete = true → point := by
    rw [incomplete]
    exact fun impossible => absurd impossible (by decide)
  have known {info : TensorInfo DType} (found : call.checkpoint.tensors.get? name = some info) :
      ∀ other ∈ state.seen ++ [name], other ∈ call.checkpoint.tensors.keys := by
    intro other inside
    rcases List.mem_append.mp inside with before | last
    · exact streamed.known other before
    · rw [List.mem_singleton.mp last]
      exact OrderedDict.mem_keys_iff.mpr ⟨info, found⟩
  have nodup (fresh : name ∉ state.seen) : (state.seen ++ [name]).Nodup := by
    rw [List.nodup_append]
    refine ⟨streamed.nodup, List.nodup_singleton name, ?_⟩
    rintro other before _ last rfl
    exact fresh (List.mem_singleton.mp last ▸ before)
  have delivered : (state.deliveries ++ [(name, tensor)]).map Prod.fst = state.seen ++ [name] := by
    rw [List.map_append, streamed.delivered]
    rfl
  cases accepted with
  | raised seen remaining error =>
      refine ⟨recorded, never _, ?_⟩
      intro same
      cases same
  | skipped info remaining fits skip count =>
      refine ⟨recorded, never _, known fits.found, nodup fits.fresh, delivered, ?_⟩
      show state.yields.map Prod.fst = (state.seen ++ [name]).filter _
      rw [List.filter_append, streamed.yielded]
      simp [skip]
  | placed info remaining fits skip budget reserved count bytes =>
      refine ⟨?_, never _, known fits.found, nodup fits.fresh, delivered, ?_⟩
      · intro entry inside
        rcases List.mem_append.mp inside with before | last
        · exact recorded entry before
        · rw [List.mem_singleton.mp last]
          exact ⟨info, fits.found, fits.shape, fits.dtype⟩
      · show (state.yields ++ [(name, tensor)]).map Prod.fst = (state.seen ++ [name]).filter _
        rw [List.filter_append, List.map_append, streamed.yielded]
        simp [skip]

theorem Sound.moved {point : Point DType} (sound : Sound call state) (moves : Moves state.point point) :
    Sound call { state with point } := by
  have progress := sound.progress
  have incomplete : state.metrics.complete = true → point = .done .returned := by
    intro complete
    rw [sound.incomplete complete] at moves
    cases moves
  refine ⟨sound.recorded, incomplete, ?_⟩
  show ProgressAt call _ _ _ _ _ point
  generalize state.point = old at moves progress
  cases moves with
  | opened => exact progress
  | waits => exact progress
  | ends => exact progress
  | resumes => exact progress
  | fails =>
      intro same
      cases same
  | breaks =>
      intro same
      cases same
  | closes =>
      intro same
      cases same
  | throws =>
      intro same
      cases same

theorem Sound.finish (recorded : ∀ entry ∈ state.yields, Recorded call entry)
    (incomplete : state.metrics.complete = false)
    {outcome : Outcome} (stopped : outcome ≠ .returned) : Sound call (state.finish outcome) := by
  refine ⟨recorded, ?_, ?_⟩
  · intro complete
    exact absurd (incomplete.symm.trans complete) (by decide)
  · cases outcome with
    | returned => exact absurd rfl stopped
    | raised error => trivial
    | closed => trivial

theorem Sound.incomplete_of (sound : Sound call state) (running : Running state.point) :
    state.metrics.complete = false := by
  by_contra complete
  rw [Bool.not_eq_false] at complete
  rw [sound.incomplete complete] at running
  exact running

/-- The step lemma of the deliveries and the yields. -/
theorem Sound.transition [DecidableEq DType] (sound : Sound call state) (taken : Transition call state next) :
    Sound call next := by
  have progress := sound.progress
  cases taken with
  | refused point error refuses =>
      refine ⟨sound.recorded, ?_, trivial⟩
      intro complete
      have before := sound.incomplete complete
      rw [point] at before
      cases before
  | begun point accepts =>
      rw [point] at progress
      refine ⟨sound.recorded, ?_, progress⟩
      intro complete
      have before := sound.incomplete complete
      rw [point] at before
      cases before
  | moved point moves => exact sound.moved moves
  | stopped outcome stops =>
      refine Sound.finish sound.recorded (sound.incomplete_of stops.running) ?_
      generalize state.point = point at stops progress
      cases stops with
      | left => exact progress
      | opening => exact fun same => by cases same
      | exits => exact fun same => by cases same
      | closes => exact fun same => by cases same
      | throws => exact fun same => by cases same
  | delivered point name tensor next accepted =>
      have running : Running state.point := by
        rw [point]
        trivial
      rw [point] at progress
      exact Sound.accepted sound.recorded (sound.incomplete_of running) progress accepted
  | sweeps point =>
      have running : Running state.point := by
        rw [point]
        trivial
      rw [point] at progress
      have nothing : Sweeping call state.seen (state.deliveries.map Prod.fst) (state.yields.map Prod.fst) [] := by
        refine ⟨progress.known, progress.nodup, progress.delivered, ?_, ?_⟩
        · exact fun row inside => absurd inside List.not_mem_nil
        · rw [List.map_nil, List.filter_nil, List.append_nil]
          exact progress.yielded
      exact Sound.swept sound.recorded (sound.incomplete_of running) nothing rfl (sweep_swept call state _)
  | sweepsOn rest point count =>
      have running : Running state.point := by
        rw [point]
        trivial
      rw [point] at progress
      obtain ⟨passed, split, sweeping⟩ := progress
      have recorded := sound.recorded
      have incomplete := sound.incomplete_of running
      refine Sound.swept ?_ ?_ ?_ split (sweep_swept call _ rest)
      · exact recorded
      · exact incomplete
      · exact sweeping
  | checks point disk =>
      have running : Running state.point := by
        rw [point]
        trivial
      rw [point] at progress
      have checked := check_checked call state disk
      generalize state.check call disk = after at checked
      cases checked with
      | changed error path stamp recorded differs =>
          have kept := sound.recorded
          have before := sound.incomplete_of running
          refine Sound.finish ?_ ?_ ?_
          · exact kept
          · exact before
          · exact fun same => by cases same
      | completed same =>
          exact ⟨sound.recorded, fun _ => rfl, progress, ⟨disk, rfl, same⟩, rfl⟩
  | expires storage below => exact ⟨sound.recorded, sound.incomplete, progress⟩
  | setsEnv running key value => exact ⟨sound.recorded, sound.incomplete, progress⟩

/-- The invariant of a run: the environment, the budget and the account of the names. -/
structure Kept (call : StreamCall DType) (state : StreamWeights DType) : Prop where
  env : EnvKept call state
  ledger : Ledger call state
  sound : Sound call state

theorem init_kept (call : StreamCall DType) (env : Env) : Kept call (init call env) where
  env := ⟨fun running => running.elim, fun outcome ended => by cases ended⟩
  ledger := {
    sizes := fun copy inside => absurd inside List.not_mem_nil
    below := fun storage inside => absurd inside List.not_mem_nil
    bound := le_max_right _ _
    books := fun _ => ⟨rfl, rfl, rfl, fun ref inside => absurd inside List.not_mem_nil⟩ }
  sound := {
    recorded := fun entry inside => absurd inside List.not_mem_nil
    incomplete := fun complete => by cases complete
    progress := ⟨fun name inside => absurd inside List.not_mem_nil, List.nodup_nil, rfl, rfl⟩ }

theorem run_kept [DecidableEq DType] {env : Env} {events : List (Event DType)}
    (reached : Run.run (step call) (init call env) events = some state) : Kept call state := by
  refine Run.run_invariant ?_ (init_kept call env) reached
  intro before event after kept taken
  have transition := step_transition taken
  exact ⟨kept.env.transition transition, kept.ledger.transition transition, kept.sound.transition transition⟩

/-- Once the loop has passed every tensor, the yields are the names that are not skipped. -/
theorem Sweeping.names {deliveries yields : List String}
    (sweeping : Sweeping call state.seen deliveries yields call.checkpoint.tensors.entries) :
    yields.Perm (call.checkpoint.tensors.keys.filter fun name => !call.skip name) := by
  have names : call.checkpoint.tensors.entries.map Prod.fst = call.checkpoint.tensors.keys := rfl
  have seen : (call.checkpoint.tensors.keys.filter fun name => name ∈ state.seen).Perm state.seen := by
    rw [List.perm_ext_iff_of_nodup (call.checkpoint.tensors.keys_nodup.filter _) sweeping.nodup]
    intro name
    simp only [List.mem_filter, decide_eq_true_eq, and_iff_right_iff_imp]
    exact sweeping.known name
  have front := seen.filter fun name => !call.skip name
  have parts := List.filter_append_perm (fun name => decide (name ∈ state.seen))
    (call.checkpoint.tensors.keys.filter fun name => !call.skip name)
  rw [sweeping.yielded, names]
  refine ((front.symm.append_right _).trans ?_).trans parts
  rw [List.filter_filter, List.filter_filter, List.filter_filter]
  apply List.Perm.of_eq
  congr 1
  · apply List.filter_congr
    intro name _
    exact Bool.and_comm _ _
  · apply List.filter_congr
    intro name _
    by_cases inside : name ∈ state.seen <;> simp [inside]

/-- In every run the stream is marked complete only after every tensor that is not skipped was yielded once as it is
recorded. A run that nobody stops raises or has received every nonempty tensor, none twice, from unchanged files. The
living copies stay within the limit, and every exit gives the environment back. -/
theorem streamed_all_or_nothing [DecidableEq DType] (call : StreamCall DType) (env : Env) (events : List (Event DType))
    (state : StreamWeights DType) (reached : Run.run (step call) (init call env) events = some state) :
    (state.metrics.complete = true →
      (state.yields.map Prod.fst).Perm (call.checkpoint.tensors.keys.filter fun name => !call.skip name) ∧
        ∀ entry ∈ state.yields, Recorded call entry) ∧
    (∀ outcome, state.point = .done outcome → outcome ≠ .closed →
      (∃ error, outcome = .raised error) ∨
        (outcome = .returned ∧ state.metrics.complete = true ∧
          (∀ name info, call.checkpoint.tensors.get? name = some info → info.bytes ≠ 0 →
            name ∈ state.deliveries.map Prod.fst) ∧
          (state.deliveries.map Prod.fst).Nodup ∧ Unchanged call state.disk)) ∧
    (0 ≤ call.ownedLimit → state.aliveBytes ≤ call.ownedLimit) ∧
    (∀ outcome, state.point = .done outcome → ∀ key ∈ call.keys.map Prod.fst, state.env key = state.before key) := by
  obtain ⟨kept, ledger, sound⟩ := run_kept reached
  refine ⟨?_, ?_, ?_, kept.restored⟩
  · intro complete
    have progress := sound.progress
    rw [sound.incomplete complete] at progress
    exact ⟨progress.1.names, sound.recorded⟩
  · intro outcome ended unclosed
    have progress := sound.progress
    rw [ended] at progress
    cases outcome with
    | closed => exact absurd rfl unclosed
    | raised error => exact .inl ⟨error, rfl⟩
    | returned =>
        obtain ⟨sweeping, unchanged, complete⟩ := progress
        refine .inr ⟨rfl, complete, ?_, ?_, unchanged⟩
        · intro name info found nonempty
          rw [sweeping.delivered]
          rcases sweeping.empty (name, info) (OrderedDict.get?_eq_some_iff.mp found) with seen | none
          · exact seen
          · exact absurd none nonempty
        · rw [sweeping.delivered]
          exact sweeping.nodup
  · intro limit
    rw [← max_eq_left limit]
    exact ledger.bound

/-- A checkpoint of one file with a tensor of two bytes and an empty one. -/
def smallCall : StreamCall Unit where
  checkpoint := {
    tensors := ((OrderedDict.empty.set "w" ⟨[2], (), 2, "a", 0⟩).set "none" ⟨[0], (), 0, "a", 2⟩)
    stamps := OrderedDict.empty.set "a" ⟨0, 0, 0, 0, 0⟩
    itemSize := fun _ => 1
    sized := by
      intro name info found
      rcases OrderedDict.get?_set_cases found with ⟨_, rfl⟩ | ⟨_, older⟩
      · rfl
      · rcases OrderedDict.get?_set_cases older with ⟨_, rfl⟩ | ⟨_, none⟩
        · rfl
        · cases none }
  concurrency := 1
  memoryLimit := 2
  ownedLimit := 2
  device := .cpu
  skip _ := false

/-- The streamer gives the nonempty tensor, whose copy dies before the end. -/
def wholeStream : List (Event Unit) :=
  [.begin, .opened, .opened, .delivered "w" ⟨[2], (), [1, 2]⟩ true true, .setenv "RUNAI_STREAMER_DIST" none, .resumed,
    .expired 0, .exhausted, .left, .resumed, .checked fun _ => some ⟨0, 0, 0, 0, 0⟩]

theorem streamed_all_or_nothing_whole :
    ∃ state, Run.run (step smallCall) (init smallCall fun _ => none) wholeStream =
    some state ∧ state.metrics.complete = true ∧ (state.yields.map Prod.fst).Perm ["w", "none"] := by
  obtain ⟨state, reached, complete⟩ : ∃ state, Run.run (step smallCall) (init smallCall fun _ => none) wholeStream =
    some state ∧ state.metrics.complete = true := ⟨_, rfl, rfl⟩
  exact ⟨state, reached, complete,
    ((streamed_all_or_nothing smallCall (fun _ => none) wholeStream state reached).1 complete).1⟩

end StreamWeights

end DgxSpark.Nvme.Streaming
