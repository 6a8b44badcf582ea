import DgxSpark.Nvme.StreamWeights

/-
This file says once what a step of `stream_weights` can do, and from it that the environment comes back on every exit
and that the living copies stay within their limit.
-/

namespace DgxSpark.Nvme.Streaming

open Library

variable {DType : Type}

namespace StreamWeights

/-- The steps that change only where the generator is. -/
inductive Moves : Point DType → Point DType → Prop where
  | opened : Moves .opening .entered
  | waits : Moves .entered .waiting
  | fails : Moves .entered (.leaving (some (.raised .outside)))
  | breaks : Moves .waiting (.leaving (some (.raised .outside)))
  | ends : Moves .waiting (.leaving none)
  | resumes (storage : Nat) : Moves (.yielded storage) .waiting
  | closes (storage : Nat) : Moves (.yielded storage) (.leaving (some .closed))
  | throws (storage : Nat) : Moves (.yielded storage) (.leaving (some (.raised .outside)))

/-- The steps that run the `finally` block and do not complete. -/
inductive Stops : Point DType → Outcome → Prop where
  | opening : Stops .opening (.raised .outside)
  | exits (outcome : Option Outcome) : Stops (.leaving outcome) (.raised .outside)
  | left (outcome : Outcome) : Stops (.leaving (some outcome)) outcome
  | closes (rest : List (Row DType)) : Stops (.yieldedEmpty rest) .closed
  | throws (rest : List (Row DType)) : Stops (.yieldedEmpty rest) (.raised .outside)

/-- The delivered tensor is the next of those that the checkpoint records. -/
structure Fits (call : StreamCall DType) (state : StreamWeights DType) (name : String) (tensor : Tensor DType)
    (info : TensorInfo DType) : Prop where
  found : call.checkpoint.tensors.get? name = some info
  fresh : name ∉ state.seen
  shape : tensor.shape = info.shape
  dtype : tensor.dtype = info.dtype

/-- What a delivery leads to: an exception, a tensor that is skipped or one that is copied and yielded. -/
inductive Accepted (call : StreamCall DType) (state : StreamWeights DType) (name : String) (tensor : Tensor DType) :
    StreamWeights DType → Prop where
  | raised (seen : List String) (remaining : String → Int) (error : Raised) :
      Accepted call state name tensor ({ state with seen, remaining }.raise error)
  | skipped (info : TensorInfo DType) (remaining : String → Int) (fits : Fits call state name tensor info)
      (skip : call.skip name = true) (count : Nat) :
      Accepted call state name tensor { state with
        seen := state.seen ++ [name]
        remaining
        metrics := { state.metrics with skippedTensors := count }
        point := .waiting }
  | placed (info : TensorInfo DType) (remaining : String → Int) (fits : Fits call state name tensor info)
      (skip : call.skip name = false) (budget : OwnedStorageBudget)
      (reserved : state.budget.reserve state.expired info.bytes = .ok budget) (count : Nat) (bytes : Int) :
      Accepted call state name tensor { state with
        seen := state.seen ++ [name]
        remaining
        budget := budget.track state.copies.length info.bytes
        copies := state.copies ++ [(state.copies.length, info.bytes)]
        metrics := { state.metrics with tensors := count, bytes }
        yields := state.yields ++ [(name, tensor)]
        point := .yielded state.copies.length }

/-- A copy is made within the reserved bytes, or an exception is raised. -/
theorem own_cases {call : StreamCall DType} {state : StreamWeights DType} {name : String} {tensor : Tensor DType}
    {info : TensorInfo DType} (found : call.checkpoint.tensors.get? name = some info)
    (shape : tensor.shape = info.shape) (dtype : tensor.dtype = info.dtype) (copied : Bool) :
    (∃ error, own call state info tensor copied = .error error) ∨
      ∃ budget, state.budget.reserve state.expired info.bytes = .ok budget ∧
        own call state info tensor copied = .ok ({ state with
          budget := budget.track state.copies.length info.bytes
          copies := state.copies ++ [(state.copies.length, info.bytes)] }, state.copies.length) := by
  have nbytes : (call.checkpoint.itemSize tensor.dtype * tensor.shape.prod : Int) = info.bytes := by
    rw [call.checkpoint.sized name info found, shape, dtype]
  unfold own
  cases state.budget.reserve state.expired info.bytes with
  | error error => exact .inl ⟨error, rfl⟩
  | ok budget =>
      cases copied with
      | false => exact .inl ⟨.outside, rfl⟩
      | true =>
          rw [nbytes]
          exact .inr ⟨budget, rfl, rfl⟩

theorem accept_accepted [DecidableEq DType] (call : StreamCall DType) (state : StreamWeights DType) (name : String)
    (tensor : Tensor DType) (advised copied : Bool) :
    Accepted call state name tensor (accept call state name tensor advised copied) := by
  unfold accept
  split
  case h_1 => exact .raised state.seen state.remaining _
  case h_2 info found =>
    split
    case isTrue => exact .raised state.seen state.remaining _
    case isFalse fresh =>
      split
      case isTrue => exact .raised state.seen state.remaining _
      case isFalse schema =>
        simp only [ne_eq, not_or, not_not] at schema
        have fits : Fits call state name tensor info := ⟨found, fresh, schema.1, schema.2⟩
        dsimp only
        split
        case isTrue => exact .raised _ _ _
        case isFalse =>
          unfold place
          split
          case isTrue skip => exact .skipped info _ fits skip _
          case isFalse keep =>
            rw [Bool.not_eq_true] at keep
            rcases @own_cases DType call (state.countIn name info) name tensor info found schema.1 schema.2 copied with
              ⟨error, failed⟩ | ⟨budget, reserved, made⟩
            · rw [failed]
              exact .raised _ _ _
            · rw [made]
              exact .placed info _ fits keep budget reserved _ _

/-- What the step of an event does, once for all invariants. -/
inductive Transition [DecidableEq DType] (call : StreamCall DType) (state : StreamWeights DType) :
    StreamWeights DType → Prop where
  | refused (point : state.point = .start) (error : Raised) (refuses : call.refuses = some error) :
      Transition call state { state with before := state.env, point := .done (.raised error) }
  | begun (point : state.point = .start) (accepts : call.refuses = none) :
      Transition call state { state with
        before := state.env
        previous := call.keys.map fun entry => (entry.1, state.env entry.1)
        env := updateEnv call.keys state.env
        point := .opening }
  | moved (point : Point DType) (moves : Moves state.point point) : Transition call state { state with point }
  | stopped (outcome : Outcome) (stops : Stops state.point outcome) : Transition call state (state.finish outcome)
  | delivered (point : state.point = .waiting) (name : String) (tensor : Tensor DType) (next : StreamWeights DType)
      (accepted : Accepted call { state with deliveries := state.deliveries ++ [(name, tensor)] } name tensor next) :
      Transition call state next
  | sweeps (point : state.point = .leaving none) :
      Transition call state (state.sweep call call.checkpoint.tensors.entries)
  | sweepsOn (rest : List (Row DType)) (point : state.point = .yieldedEmpty rest) (count : Nat) :
      Transition call state (sweep call { state with metrics := { state.metrics with emptyTensors := count } } rest)
  | checks (point : state.point = .checking) (disk : String → Option Stamp) :
      Transition call state (state.check call disk)
  | expires (storage : Nat) (below : storage < state.copies.length) :
      Transition call state { state with expired := state.expired ++ [storage] }
  | setsEnv (running : ∀ outcome, state.point ≠ .done outcome) (key : String) (value : Option String) :
      Transition call state { state with env := Function.update state.env key value }

theorem step_transition [DecidableEq DType] {call : StreamCall DType} {state next : StreamWeights DType}
    {event : Event DType} (taken : step call state event = some next) : Transition call state next := by
  cases event with
  | begin =>
      simp only [step] at taken
      split at taken
      case h_1 point =>
        cases taken
        unfold begin
        split
        case h_1 error refuses => exact .refused point error refuses
        case h_2 accepts => exact .begun point accepts
      case h_2 => cases taken
  | opened =>
      simp only [step] at taken
      split at taken
      case h_1 point =>
        cases taken
        exact .moved _ (point ▸ .opened)
      case h_2 point =>
        cases taken
        exact .moved _ (point ▸ .waits)
      case h_3 => cases taken
  | failed =>
      simp only [step] at taken
      split at taken
      case h_1 point =>
        cases taken
        exact .stopped _ (point ▸ .opening)
      case h_2 point =>
        cases taken
        exact .moved _ (point ▸ .fails)
      case h_3 point =>
        cases taken
        exact .moved _ (point ▸ .breaks)
      case h_4 outcome point =>
        cases taken
        exact .stopped _ (point ▸ .exits outcome)
      case h_5 => cases taken
  | delivered name tensor advised copied =>
      simp only [step] at taken
      split at taken
      case h_1 point =>
        cases taken
        exact .delivered point name tensor _ (accept_accepted call _ name tensor advised copied)
      case h_2 => cases taken
  | exhausted =>
      simp only [step] at taken
      split at taken
      case h_1 point =>
        cases taken
        exact .moved _ (point ▸ .ends)
      case h_2 => cases taken
  | left =>
      simp only [step] at taken
      split at taken
      case h_1 point =>
        cases taken
        exact .sweeps point
      case h_2 outcome point =>
        cases taken
        exact .stopped _ (point ▸ .left outcome)
      case h_3 => cases taken
  | resumed =>
      simp only [step] at taken
      split at taken
      case h_1 storage point =>
        cases taken
        exact .moved _ (point ▸ .resumes storage)
      case h_2 rest point =>
        cases taken
        exact .sweepsOn rest point _
      case h_3 => cases taken
  | closed =>
      simp only [step] at taken
      split at taken
      case h_1 storage point =>
        cases taken
        exact .moved _ (point ▸ .closes storage)
      case h_2 rest point =>
        cases taken
        exact .stopped _ (point ▸ .closes rest)
      case h_3 => cases taken
  | thrown =>
      simp only [step] at taken
      split at taken
      case h_1 storage point =>
        cases taken
        exact .moved _ (point ▸ .throws storage)
      case h_2 rest point =>
        cases taken
        exact .stopped _ (point ▸ .throws rest)
      case h_3 => cases taken
  | checked disk =>
      simp only [step] at taken
      split at taken
      case h_1 point =>
        cases taken
        exact .checks point disk
      case h_2 => cases taken
  | expired storage =>
      simp only [step, Option.ite_none_right_eq_some, Option.some.injEq] at taken
      obtain ⟨may, rfl⟩ := taken
      exact .expires storage may.1
  | setenv key value =>
      simp only [step] at taken
      split at taken
      case h_1 => cases taken
      case h_2 running =>
        cases taken
        exact .setsEnv running key value

/-- The rows that the loop over the tensors passes without a yield. -/
def Passed (call : StreamCall DType) (state : StreamWeights DType) (rows : List (Row DType)) : Prop :=
  ∀ row ∈ rows, row.1 ∈ state.seen ∨ (row.2.bytes = 0 ∧ call.skip row.1 = true)

inductive Swept (call : StreamCall DType) (state : StreamWeights DType) (rows : List (Row DType)) :
    StreamWeights DType → Prop where
  | ended (passed : Passed call state rows) : Swept call state rows { state with point := .checking }
  | missing (error : Raised) : Swept call state rows (state.finish (.raised error))
  | yields (front : List (Row DType)) (name : String) (info : TensorInfo DType) (rest : List (Row DType))
      (split : rows = front ++ (name, info) :: rest) (passed : Passed call state front) (fresh : name ∉ state.seen)
      (empty : info.bytes = 0) (skip : call.skip name = false) :
      Swept call state rows { state with
        yields := state.yields ++ [(name, ⟨info.shape, info.dtype, []⟩)]
        point := .yieldedEmpty rest }

/-- A row that is passed adds to the front. -/
theorem Swept.cons {call : StreamCall DType} {state next : StreamWeights DType} {row : Row DType}
    {rows : List (Row DType)} (swept : Swept call state rows next)
    (here : row.1 ∈ state.seen ∨ (row.2.bytes = 0 ∧ call.skip row.1 = true)) : Swept call state (row :: rows) next := by
  cases swept with
  | ended passed => exact .ended (List.forall_mem_cons.mpr ⟨here, passed⟩)
  | missing error => exact .missing error
  | yields front name info rest split passed fresh empty skip =>
      exact .yields (row :: front) name info rest (by rw [split]; rfl) (List.forall_mem_cons.mpr ⟨here, passed⟩) fresh
        empty skip

theorem sweep_swept (call : StreamCall DType) (state : StreamWeights DType) (rows : List (Row DType)) :
    Swept call state rows (state.sweep call rows) := by
  induction rows with
  | nil => exact .ended fun row inside => absurd inside List.not_mem_nil
  | cons row rows ih =>
      obtain ⟨name, info⟩ := row
      rw [sweep]
      split
      case isTrue seen => exact ih.cons (.inl seen)
      case isFalse fresh =>
        split
        case isTrue => exact .missing _
        case isFalse empty =>
          rw [not_not] at empty
          split
          case isTrue skip => exact ih.cons (.inr ⟨empty, skip⟩)
          case isFalse keep =>
            rw [Bool.not_eq_true] at keep
            exact .yields [] name info rows rfl (fun row inside => absurd inside List.not_mem_nil) fresh empty keep

inductive Checked (call : StreamCall DType) (state : StreamWeights DType) (disk : String → Option Stamp) :
    StreamWeights DType → Prop where
  | changed (error : Raised) (path : String) (stamp : Stamp)
      (recorded : call.checkpoint.stamps.get? path = some stamp) (differs : disk path ≠ some stamp) :
      Checked call state disk ({ state with disk := some disk }.finish (.raised error))
  | completed (same : ∀ path stamp, call.checkpoint.stamps.get? path = some stamp → disk path = some stamp) :
      Checked call state disk (finish { state with
        disk := some disk
        metrics := { state.metrics with complete := true } } .returned)

theorem check_checked (call : StreamCall DType) (state : StreamWeights DType) (disk : String → Option Stamp) :
    Checked call state disk (state.check call disk) := by
  unfold check
  dsimp only
  split
  case h_1 path stamp found =>
    have recorded := OrderedDict.get?_eq_some_iff.mpr (List.mem_of_find?_eq_some found)
    have test := List.find?_some found
    have differs : disk path ≠ some stamp := of_decide_eq_true test
    split
    case isTrue => exact .changed _ path stamp recorded differs
    case isFalse => exact .changed _ path stamp recorded differs
  case h_2 found =>
    refine .completed fun path stamp recorded => ?_
    have same := List.find?_eq_none.mp found (path, stamp) (OrderedDict.get?_eq_some_iff.mp recorded)
    simpa using same

section Environment

/-- The generator is between its start and its end. -/
def Running : Point DType → Prop
  | .start => False
  | .done _ => False
  | _ => True

theorem restoreEnv_other {previous : List (String × Option String)} {key : String}
    (other : key ∉ previous.map Prod.fst) (env : Env) : restoreEnv previous env key = env key := by
  induction previous generalizing env with
  | nil => rfl
  | cons entry rest ih =>
      rw [List.map_cons, List.mem_cons, not_or] at other
      show restoreEnv rest (Function.update env entry.1 entry.2) key = env key
      rw [ih other.2, Function.update_of_ne other.1]

/-- Each key gets the value that was saved for it. -/
theorem restoreEnv_saved (before : Env) {keys : List (String × String)} {key : String}
    (inside : key ∈ keys.map Prod.fst) (env : Env) :
    restoreEnv (keys.map fun entry => (entry.1, before entry.1)) env key = before key := by
  induction keys generalizing env with
  | nil => cases inside
  | cons entry rest ih =>
      show restoreEnv (rest.map fun entry => (entry.1, before entry.1))
        (Function.update env entry.1 (before entry.1)) key = before key
      by_cases later : key ∈ rest.map Prod.fst
      · exact ih later _
      · rcases List.mem_cons.mp inside with same | inRest
        · have other : key ∉ (rest.map fun entry => (entry.1, before entry.1)).map Prod.fst := by
            rw [List.map_map]
            exact later
          rw [restoreEnv_other other, same, Function.update_self]
        · exact absurd inRest later

structure EnvKept (call : StreamCall DType) (state : StreamWeights DType) : Prop where
  saved : Running state.point → state.previous = call.keys.map fun entry => (entry.1, state.before entry.1)
  restored : ∀ outcome, state.point = .done outcome →
    ∀ key ∈ call.keys.map Prod.fst, state.env key = state.before key

variable {call : StreamCall DType} {state next : StreamWeights DType}

theorem Moves.running {point other : Point DType} (moves : Moves point other) :
    Running point ∧ Running other := by
  cases moves <;> exact ⟨trivial, trivial⟩

theorem Running.not_done {point : Point DType} (running : Running point) (outcome : Outcome) :
    point ≠ .done outcome := by
  rintro rfl
  exact running

theorem Stops.running {point : Point DType} {outcome : Outcome} (stops : Stops point outcome) :
    Running point := by
  cases stops <;> trivial

/-- A step inside the block leaves the saved entries as they are. -/
theorem EnvKept.inside (kept : EnvKept call state) (running : Running state.point) (after : Running next.point)
    (previous : next.previous = state.previous) (before : next.before = state.before) : EnvKept call next where
  saved _ := by rw [previous, before, kept.saved running]
  restored outcome ended := by
    rw [ended] at after
    exact after.elim

theorem EnvKept.finish (kept : EnvKept call state) (running : Running state.point)
    (previous : next.previous = state.previous) (before : next.before = state.before) (outcome : Outcome) :
    EnvKept call (next.finish outcome) where
  saved ended := ended.elim
  restored other _ key inside := by
    show restoreEnv next.previous next.env key = next.before key
    rw [previous, before, kept.saved running]
    exact restoreEnv_saved state.before inside next.env

theorem EnvKept.swept {rows : List (Row DType)} (kept : EnvKept call state) (running : Running state.point)
    (swept : Swept call state rows next) : EnvKept call next := by
  cases swept with
  | ended passed => exact kept.inside running trivial rfl rfl
  | missing error => exact kept.finish running rfl rfl _
  | yields front name info rest split passed fresh empty skip => exact kept.inside running trivial rfl rfl

/-- The step lemma of the environment. -/
theorem EnvKept.transition [DecidableEq DType] (kept : EnvKept call state) (taken : Transition call state next) :
    EnvKept call next := by
  cases taken with
  | refused point error refuses =>
      refine ⟨fun running => running.elim, ?_⟩
      intro outcome _ key _
      rfl
  | begun point accepts =>
      refine ⟨fun _ => rfl, ?_⟩
      intro outcome ended
      cases ended
  | moved point moves => exact kept.inside moves.running.1 moves.running.2 rfl rfl
  | stopped outcome stops => exact kept.finish stops.running rfl rfl outcome
  | delivered point name tensor next accepted =>
      have running : Running state.point := by
        rw [point]
        trivial
      cases accepted with
      | raised seen remaining error => exact kept.inside running trivial rfl rfl
      | skipped info remaining fits skip count => exact kept.inside running trivial rfl rfl
      | placed info remaining fits skip budget reserved count bytes => exact kept.inside running trivial rfl rfl
  | sweeps point =>
      have running : Running state.point := by
        rw [point]
        trivial
      exact kept.swept running (sweep_swept call state _)
  | sweepsOn rest point count =>
      have counted : EnvKept call { state with metrics := { state.metrics with emptyTensors := count } } :=
        ⟨kept.saved, kept.restored⟩
      have running : Running state.point := by
        rw [point]
        trivial
      exact counted.swept running (sweep_swept call _ rest)
  | checks point disk =>
      have running : Running state.point := by
        rw [point]
        trivial
      have checked := check_checked call state disk
      generalize state.check call disk = after at checked
      cases checked with
      | changed error path stamp recorded differs =>
          refine kept.finish running ?_ ?_ (.raised error) <;> rfl
      | completed same =>
          refine kept.finish running ?_ ?_ .returned <;> rfl
  | expires storage below => exact ⟨kept.saved, kept.restored⟩
  | setsEnv running key value =>
      refine ⟨kept.saved, ?_⟩
      intro outcome ended
      exact absurd ended (running outcome)

end Environment

section Ledger

variable {call : StreamCall DType} {state next : StreamWeights DType}

/-- The entries of the storages that are still alive. -/
def aliveOf (expired : List Nat) (entries : List (Nat × Int)) : List (Nat × Int) :=
  entries.filter fun entry => entry.1 ∉ expired

theorem sum_aliveOf (expired : List Nat) (entries : List (Nat × Int)) :
    ((aliveOf expired entries).map Prod.snd).sum =
      (entries.map Prod.snd).sum - ((entries.filter fun entry => entry.1 ∈ expired).map Prod.snd).sum := by
  induction entries with
  | nil => rfl
  | cons entry rest ih =>
      rw [aliveOf] at ih
      by_cases gone : entry.1 ∈ expired
      · simp only [aliveOf, List.filter_cons, gone, not_true_eq_false, decide_false, Bool.false_eq_true, if_false,
          decide_true, if_true, List.map_cons, List.sum_cons, ih]
        omega
      · simp only [aliveOf, List.filter_cons, gone, not_false_eq_true, decide_true, if_true, decide_false,
          Bool.false_eq_true, if_false, List.map_cons, List.sum_cons, ih]
        omega

theorem aliveOf_append (expired : List Nat) (first second : List (Nat × Int)) :
    aliveOf expired (first ++ second) = aliveOf expired first ++ aliveOf expired second :=
  List.filter_append ..

/-- One more expired storage leaves a part of the living. -/
theorem aliveOf_concat (expired : List Nat) (storage : Nat) (entries : List (Nat × Int)) :
    aliveOf (expired ++ [storage]) entries = aliveOf [storage] (aliveOf expired entries) := by
  rw [aliveOf, aliveOf, aliveOf, List.filter_filter]
  apply List.filter_congr
  intro entry _
  simp [and_comm]

theorem aliveOf_aliveOf (expired : List Nat) (entries : List (Nat × Int)) :
    aliveOf expired (aliveOf expired entries) = aliveOf expired entries := by
  rw [aliveOf, aliveOf, List.filter_filter]
  simp only [Bool.and_self]

theorem sum_aliveOf_le {entries : List (Nat × Int)} (sizes : ∀ entry ∈ entries, 0 ≤ entry.2) (expired : List Nat) :
    ((aliveOf expired entries).map Prod.snd).sum ≤ (entries.map Prod.snd).sum := by
  rw [sum_aliveOf]
  have gone : 0 ≤ ((entries.filter fun entry => entry.1 ∈ expired).map Prod.snd).sum := by
    apply List.sum_nonneg
    intro size inside
    obtain ⟨entry, member, rfl⟩ := List.mem_map.mp inside
    exact sizes entry (List.mem_of_mem_filter member)
  omega

/-- The budget while the generator runs: it counts what it refers to, and that is all that lives. -/
structure Books (call : StreamCall DType) (state : StreamWeights DType) : Prop where
  limit : state.budget.limit = call.ownedLimit
  live : state.budget.live = (state.budget.refs.map Prod.snd).sum
  refs : aliveOf state.expired state.budget.refs = aliveOf state.expired state.copies
  sizes : ∀ ref ∈ state.budget.refs, 0 ≤ ref.2

structure Ledger (call : StreamCall DType) (state : StreamWeights DType) : Prop where
  sizes : ∀ copy ∈ state.copies, 0 ≤ copy.2
  below : ∀ storage ∈ state.expired, storage < state.copies.length
  bound : state.aliveBytes ≤ max call.ownedLimit 0
  books : (∀ outcome, state.point ≠ .done outcome) → Books call state

theorem reserve_ok {budget after : OwnedStorageBudget} {expired : List Nat} {size : Int}
    (reserved : budget.reserve expired size = .ok after) :
    after = budget.collect expired ∧ after.live + size ≤ after.limit := by
  unfold OwnedStorageBudget.reserve at reserved
  dsimp only at reserved
  split at reserved
  case isTrue => cases reserved
  case isFalse fits =>
    cases reserved
    exact ⟨rfl, Int.not_lt.mp fits⟩

/-- What the budget counts after a collection is what lives. -/
theorem Books.collected (books : Books call state) :
    (state.budget.collect state.expired).live = state.aliveBytes := by
  have refs := congrArg (fun entries => (List.map Prod.snd entries).sum) books.refs
  show state.budget.live - _ = ((aliveOf state.expired state.copies).map Prod.snd).sum
  rw [books.live, ← sum_aliveOf]
  exact refs

theorem Ledger.unchanged (ledger : Ledger call state) (copies : next.copies = state.copies)
    (expired : next.expired = state.expired) (budget : (∀ outcome, next.point ≠ .done outcome) →
      (∀ outcome, state.point ≠ .done outcome) ∧ next.budget = state.budget) : Ledger call next where
  sizes := copies ▸ ledger.sizes
  below := by
    rw [copies, expired]
    exact ledger.below
  bound := by
    rw [aliveBytes, copies, expired]
    exact ledger.bound
  books running := by
    obtain ⟨before, same⟩ := budget running
    obtain ⟨limit, live, refs, sizes⟩ := ledger.books before
    exact ⟨same ▸ limit, same ▸ live, by rw [same, expired, copies, refs], same ▸ sizes⟩

theorem Ledger.finish (ledger : Ledger call state) (copies : next.copies = state.copies)
    (expired : next.expired = state.expired) (outcome : Outcome) : Ledger call (next.finish outcome) :=
  ledger.unchanged copies expired fun running => absurd rfl (running outcome)

theorem Ledger.expires (ledger : Ledger call state) {storage : Nat} (below : storage < state.copies.length) :
    Ledger call { state with expired := state.expired ++ [storage] } where
  sizes := ledger.sizes
  below other inside := by
    rcases List.mem_append.mp inside with before | last
    · exact ledger.below other before
    · exact List.mem_singleton.mp last ▸ below
  bound := by
    show ((aliveOf (state.expired ++ [storage]) state.copies).map Prod.snd).sum ≤ _
    rw [aliveOf_concat]
    refine le_trans (sum_aliveOf_le ?_ [storage]) ledger.bound
    intro copy inside
    exact ledger.sizes copy (List.mem_of_mem_filter inside)
  books running := by
    obtain ⟨limit, live, refs, sizes⟩ := ledger.books running
    exact ⟨limit, live, by rw [aliveOf_concat, aliveOf_concat, refs], sizes⟩

/-- A reserved copy fits beside all that lives. -/
theorem Ledger.place (ledger : Ledger call state) (running : ∀ outcome, state.point ≠ .done outcome) {size : Int}
    {budget : OwnedStorageBudget} (positive : 0 ≤ size)
    (reserved : state.budget.reserve state.expired size = .ok budget) (copies : next.copies =
      state.copies ++ [(state.copies.length, size)]) (expired : next.expired = state.expired)
    (tracked : next.budget = budget.track state.copies.length size) : Ledger call next := by
  obtain ⟨rfl, fits⟩ := reserve_ok reserved
  have books := ledger.books running
  have fresh : state.copies.length ∉ state.expired := fun inside => Nat.lt_irrefl _ (ledger.below _ inside)
  have one : aliveOf state.expired [(state.copies.length, size)] = [(state.copies.length, size)] := by
    simp [aliveOf, fresh]
  have alive : next.aliveBytes = state.aliveBytes + size := by
    show ((aliveOf next.expired next.copies).map Prod.snd).sum = _
    rw [expired, copies, aliveOf_append, one, List.map_append, List.sum_append, List.map_singleton,
      List.sum_singleton]
    rfl
  rw [books.collected] at fits
  refine ⟨?_, ?_, ?_, fun _ => ⟨?_, ?_, ?_, ?_⟩⟩
  · intro copy inside
    rw [copies] at inside
    rcases List.mem_append.mp inside with before | last
    · exact ledger.sizes copy before
    · exact List.mem_singleton.mp last ▸ positive
  · intro storage inside
    rw [expired] at inside
    rw [copies, List.length_append]
    exact Nat.lt_add_right _ (ledger.below storage inside)
  · rw [alive]
    exact le_trans (fits.trans_eq books.limit) (le_max_left _ _)
  · rw [tracked]
    exact books.limit
  · rw [tracked]
    show (state.budget.collect state.expired).live + size =
      ((aliveOf state.expired state.budget.refs ++ [(state.copies.length, size)]).map Prod.snd).sum
    rw [List.map_append, List.sum_append, List.map_singleton, List.sum_singleton, books.collected, books.refs]
    rfl
  · rw [tracked, expired, copies]
    show aliveOf state.expired (aliveOf state.expired state.budget.refs ++ [(state.copies.length, size)]) = _
    rw [aliveOf_append, aliveOf_append, aliveOf_aliveOf, books.refs]
  · rw [tracked]
    intro ref inside
    rcases List.mem_append.mp inside with before | last
    · exact books.sizes ref (List.mem_of_mem_filter before)
    · exact List.mem_singleton.mp last ▸ positive

theorem Ledger.swept {rows : List (Row DType)} (ledger : Ledger call state)
    (running : ∀ outcome, state.point ≠ .done outcome) (swept : Swept call state rows next) : Ledger call next := by
  cases swept with
  | ended passed => exact ledger.unchanged rfl rfl fun _ => ⟨running, rfl⟩
  | missing error => exact ledger.finish rfl rfl _
  | yields front name info rest split passed fresh empty skip =>
      exact ledger.unchanged rfl rfl fun _ => ⟨running, rfl⟩

theorem bytes_nonneg {name : String} {info : TensorInfo DType}
    (found : call.checkpoint.tensors.get? name = some info) : 0 ≤ info.bytes := by
  rw [call.checkpoint.sized name info found]
  exact Int.natCast_nonneg _

/-- The step lemma of the ledger. -/
theorem Ledger.transition [DecidableEq DType] (ledger : Ledger call state) (taken : Transition call state next) :
    Ledger call next := by
  cases taken with
  | refused point error refuses =>
      exact ledger.unchanged rfl rfl fun running => absurd rfl (running (.raised error))
  | begun point accepts =>
      refine ledger.unchanged rfl rfl fun _ => ⟨?_, rfl⟩
      intro outcome same
      rw [point] at same
      cases same
  | moved point moves => exact ledger.unchanged rfl rfl fun _ => ⟨moves.running.1.not_done, rfl⟩
  | stopped outcome stops => exact ledger.finish rfl rfl outcome
  | delivered point name tensor next accepted =>
      have running : Running state.point := by
        rw [point]
        trivial
      cases accepted with
      | raised seen remaining error => exact ledger.unchanged rfl rfl fun _ => ⟨running.not_done, rfl⟩
      | skipped info remaining fits skip count => exact ledger.unchanged rfl rfl fun _ => ⟨running.not_done, rfl⟩
      | placed info remaining fits skip budget reserved count bytes =>
          exact ledger.place running.not_done (bytes_nonneg fits.found) reserved rfl rfl rfl
  | sweeps point =>
      have running : Running state.point := by
        rw [point]
        trivial
      exact ledger.swept running.not_done (sweep_swept call state _)
  | sweepsOn rest point count =>
      have running : Running state.point := by
        rw [point]
        trivial
      have counted : Ledger call { state with metrics := { state.metrics with emptyTensors := count } } := by
        refine ledger.unchanged ?_ ?_ fun _ => ⟨running.not_done, ?_⟩ <;> rfl
      exact counted.swept running.not_done (sweep_swept call _ rest)
  | checks point disk =>
      have checked := check_checked call state disk
      generalize state.check call disk = after at checked
      cases checked with
      | changed error path stamp recorded differs =>
          refine ledger.finish ?_ ?_ (.raised error) <;> rfl
      | completed same =>
          refine ledger.finish ?_ ?_ .returned <;> rfl
  | expires storage below => exact ledger.expires below
  | setsEnv running key value => exact ledger.unchanged rfl rfl fun _ => ⟨running, rfl⟩

end Ledger

end StreamWeights

end DgxSpark.Nvme.Streaming
