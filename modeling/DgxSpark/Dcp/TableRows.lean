import Mathlib.Data.List.Induction
import DgxSpark.Dcp.AppendBlockIds

/-
This file shows that updates of the block tables are atomic over the groups and that the rows on the
device are exactly what was appended.
-/

namespace DgxSpark.Dcp
open DgxSpark.Library

namespace TableGroup

theorem blocksPerKvBlock_pos (group : TableGroup) : 0 < group.blocksPerKvBlock :=
  Nat.div_pos group.kernelBlockSize_le group.kernelBlockSize_pos

theorem length_expand (group : TableGroup) (blockIds : List Int) :
    (group.expand blockIds).length = blockIds.length * group.blocksPerKvBlock := by
  unfold expand
  simp only
  split
  · simp [List.length_flatMap]
  case isFalse single =>
    have one : group.blocksPerKvBlock = 1 := by
      have := group.blocksPerKvBlock_pos
      omega
    rw [one, Nat.mul_one]

theorem width_le_stride (group : TableGroup) : group.width ≤ group.stride := le_max_left _ _

/-- Columns of different rows are different places. -/
theorem row_apart (group : TableGroup) {row other start length column : Nat} (different : other ≠ row)
    (inside : start + length ≤ group.width) (below : column < group.stride) :
    other * group.stride + column < row * group.stride + start ∨
      row * group.stride + start + length ≤ other * group.stride + column := by
  have wide := group.width_le_stride
  rcases Nat.lt_or_gt_of_ne different with before | after
  · have next := Nat.mul_le_mul_right group.stride (show other + 1 ≤ row from before)
    rw [Nat.succ_mul] at next
    omega
  · have next := Nat.mul_le_mul_right group.stride (show row + 1 ≤ other from after)
    rw [Nat.succ_mul] at next
    omega

end TableGroup

/-- The columns that the update would fill. -/
def Fits (reqIndex : Int) (overwrite : Bool) (state : TableState) (group : TableGroup) (blockIds : List Int) : Prop :=
  startOf reqIndex overwrite state + (group.expand blockIds).length ≤ group.width

section Append

variable {reqIndex : Int} {overwrite : Bool}

/-- The first loop raises exactly when some group's row would not fit. -/
theorem checkGroups_cases (tables : BlockTables) (i : Nat) (items : List (TableGroup × List Int)) :
    (checkGroups reqIndex overwrite tables i items = .ok () ∧
        ∀ k group blockIds, items[k]? = some (group, blockIds) →
          Fits reqIndex overwrite (tables (i + k)) group blockIds) ∨
      ((∃ text, checkGroups reqIndex overwrite tables i items = .error (.value text)) ∧
        ∃ k group blockIds, items[k]? = some (group, blockIds) ∧
          ¬Fits reqIndex overwrite (tables (i + k)) group blockIds) := by
  induction items generalizing i with
  | nil => exact .inl ⟨rfl, nofun⟩
  | cons head rest ih =>
      obtain ⟨group, blockIds⟩ := head
      unfold checkGroups
      simp only
      split
      case isTrue large =>
        refine .inr ⟨⟨_, rfl⟩, 0, group, blockIds, rfl, ?_⟩
        rw [Nat.add_zero, Fits, group.length_expand]
        omega
      case isFalse inside =>
        have fits : Fits reqIndex overwrite (tables i) group blockIds := by
          rw [Fits, group.length_expand]
          omega
        rcases ih (i + 1) with ⟨passed, all⟩ | ⟨failed, k, other, ids, place, large⟩
        · refine .inl ⟨passed, ?_⟩
          intro k other ids place
          cases k with
          | zero =>
              cases place
              exact fits
          | succ k =>
              rw [Nat.add_comm k, ← Nat.add_assoc]
              exact all k other ids place
        · refine .inr ⟨failed, k + 1, other, ids, place, ?_⟩
          rw [Nat.add_comm k, ← Nat.add_assoc]
          exact large

/-- What staging makes of a group's state. -/
def TableState.stagedWith (state : TableState) (reqIndex : Int) (overwrite : Bool) (group : TableGroup)
    (blockIds : List Int) : TableState :=
  let start := startOf reqIndex overwrite state
  let values := group.expand blockIds
  { state with
    staged := if values = [] then state.staged else state.staged ++ [⟨reqIndex.toNat, start, values⟩]
    numBlocks := Function.update state.numBlocks reqIndex.toNat (start + values.length) }

theorem stageGroup_eq (nonneg : 0 ≤ reqIndex) (tables : BlockTables) (i : Nat) (group : TableGroup)
    (blockIds : List Int) :
    stageGroup reqIndex overwrite tables i group blockIds =
      (.ok (), Function.update tables i ((tables i).stagedWith reqIndex overwrite group blockIds)) := by
  unfold stageGroup TableState.stageWrite TableState.stagedWith
  simp only
  rw [if_neg (not_lt.mpr nonneg)]
  by_cases empty : group.expand blockIds = []
  · simp only [empty, if_true]
  · simp only [empty, if_false]

/-- The second loop never raises, and stages the row of each group. -/
theorem stageGroups_eq (nonneg : 0 ≤ reqIndex) (tables : BlockTables) (i : Nat) (items : List (TableGroup × List Int)) :
    ∃ next, stageGroups reqIndex overwrite tables i items = (.ok (), next) ∧ (∀ j, j < i → next j = tables j) ∧
      (∀ k, items[k]? = none → next (i + k) = tables (i + k)) ∧
      ∀ k group blockIds, items[k]? = some (group, blockIds) →
        next (i + k) = (tables (i + k)).stagedWith reqIndex overwrite group blockIds := by
  induction items generalizing tables i with
  | nil => exact ⟨tables, rfl, fun _ _ => rfl, fun _ _ => rfl, nofun⟩
  | cons head rest ih =>
      obtain ⟨group, blockIds⟩ := head
      obtain ⟨next, staged, before, beyond, each⟩ :=
        ih (Function.update tables i ((tables i).stagedWith reqIndex overwrite group blockIds)) (i + 1)
      refine ⟨next, ?_, ?_, ?_, ?_⟩
      · rw [stageGroups, stageGroup_eq nonneg]
        exact staged
      · intro j below
        rw [before j (by omega), Function.update_of_ne (by omega)]
      · intro k absent
        cases k with
        | zero => cases absent
        | succ k =>
            have shifted : i + (k + 1) = i + 1 + k := by omega
            rw [shifted, beyond k absent, Function.update_of_ne (by omega)]
      · intro k other ids place
        cases k with
        | zero =>
            cases place
            rw [Nat.add_zero, before i (by omega), Function.update_self]
        | succ k =>
            have shifted : i + (k + 1) = i + 1 + k := by omega
            rw [shifted, each k other ids place, Function.update_of_ne (by omega)]

end Append

/-- The rows of a group: the host counts them, the device will hold them after the next application of
the staged writes, and these stay inside their rows. -/
structure RowsExact (group : TableGroup) (maxNumReqs : Nat) (state : TableState) (rows : Nat → List Int) : Prop where
  count : ∀ req, req < maxNumReqs → state.numBlocks req = (rows req).length
  width : ∀ req, req < maxNumReqs → (rows req).length ≤ group.width
  held : ∀ req, req < maxNumReqs →
    (state.applyWrite group.stride).gpu.read (req * group.stride) (rows req).length = rows req

/-- A row after an update: an overwrite begins it anew. -/
def extendRow (overwrite : Bool) (row values : List Int) : List Int := (if overwrite then [] else row) ++ values

variable {group : TableGroup} {maxNumReqs : Nat} {state : TableState} {rows : Nat → List Int}

/-- Staging a row is one more write behind the staged ones. -/
theorem stagedWith_gpu (reqIndex : Int) (overwrite : Bool) (blockIds : List Int) :
    ((state.stagedWith reqIndex overwrite group blockIds).applyWrite group.stride).gpu =
      (state.applyWrite group.stride).gpu.write
        (reqIndex.toNat * group.stride + startOf reqIndex overwrite state) (group.expand blockIds) := by
  unfold TableState.applyWrite TableState.stagedWith
  simp only
  split
  case isTrue empty =>
    rw [empty]
    funext cell
    exact (Buffer.write_outside (by simp only [List.length_nil]; omega)).symm
  case isFalse =>
    rw [List.foldl_append]
    rfl

/-- An update that fits leaves the columns of every other row as they were. -/
theorem stagedWith_other {reqIndex : Int} {overwrite : Bool} {blockIds : List Int} {other column : Nat}
    (fits : Fits reqIndex overwrite state group blockIds) (different : other ≠ reqIndex.toNat)
    (below : column < group.stride) :
    ((state.stagedWith reqIndex overwrite group blockIds).applyWrite group.stride).gpu (other * group.stride + column) =
      (state.applyWrite group.stride).gpu (other * group.stride + column) := by
  rw [stagedWith_gpu]
  exact Buffer.write_outside (group.row_apart different fits below)

/-- The start of an update is the length of what it keeps. -/
theorem RowsExact.start (sound : RowsExact group maxNumReqs state rows) {reqIndex : Int}
    (inside : reqIndex.toNat < maxNumReqs) (overwrite : Bool) :
    startOf reqIndex overwrite state = (if overwrite then [] else rows reqIndex.toNat).length := by
  cases overwrite with
  | true => rfl
  | false => exact sound.count _ inside

/-- The updated row holds what it kept and then the new columns. -/
theorem RowsExact.staged_row (sound : RowsExact group maxNumReqs state rows) {reqIndex : Int}
    (inside : reqIndex.toNat < maxNumReqs) (overwrite : Bool) (blockIds : List Int) :
    ((state.stagedWith reqIndex overwrite group blockIds).applyWrite group.stride).gpu.read
        (reqIndex.toNat * group.stride) (extendRow overwrite (rows reqIndex.toNat) (group.expand blockIds)).length =
      extendRow overwrite (rows reqIndex.toNat) (group.expand blockIds) := by
  rw [stagedWith_gpu, sound.start inside, extendRow]
  have kept : ∀ column, column < (if overwrite then [] else rows reqIndex.toNat).length →
      (if overwrite then [] else rows reqIndex.toNat)[column]? =
        some ((state.applyWrite group.stride).gpu (reqIndex.toNat * group.stride + column)) := by
    intro column below
    cases overwrite with
    | true => simp at below
    | false =>
        have held := sound.held _ inside
        simp only [Bool.false_eq_true, if_false] at below ⊢
        rw [← Buffer.getElem?_read _ _ below, held]
  generalize (if overwrite then [] else rows reqIndex.toNat) = row at kept ⊢
  apply List.ext_getElem?
  intro column
  by_cases below : column < (row ++ group.expand blockIds).length
  · rw [Buffer.getElem?_read _ _ below]
    by_cases early : column < row.length
    · rw [Buffer.write_outside (by omega), List.getElem?_append_left early, kept column early]
    · obtain ⟨offset, rfl⟩ := Nat.exists_eq_add_of_le (not_lt.mp early)
      rw [List.length_append] at below
      have later : offset < (group.expand blockIds).length := by omega
      rw [List.getElem?_append_right (Nat.le_add_right _ _), Nat.add_sub_cancel_left,
        List.getElem?_eq_getElem later, ← Nat.add_assoc, Buffer.write_inside (List.getElem?_eq_getElem later)]
  · rw [List.getElem?_eq_none (by rw [Buffer.length_read]; omega), List.getElem?_eq_none (by omega)]

theorem RowsExact.staged (sound : RowsExact group maxNumReqs state rows) {reqIndex : Int}
    (inside : reqIndex.toNat < maxNumReqs) {overwrite : Bool} {blockIds : List Int}
    (fits : Fits reqIndex overwrite state group blockIds) :
    RowsExact group maxNumReqs (state.stagedWith reqIndex overwrite group blockIds)
      (Function.update rows reqIndex.toNat (extendRow overwrite (rows reqIndex.toNat) (group.expand blockIds))) := by
  have length : (extendRow overwrite (rows reqIndex.toNat) (group.expand blockIds)).length =
      startOf reqIndex overwrite state + (group.expand blockIds).length := by
    rw [extendRow, List.length_append, sound.start inside]
  constructor
  · intro req below
    by_cases same : req = reqIndex.toNat
    · subst same
      rw [Function.update_self, length]
      exact Function.update_self ..
    · rw [Function.update_of_ne same]
      exact (Function.update_of_ne same ..).trans (sound.count req below)
  · intro req below
    by_cases same : req = reqIndex.toNat
    · subst same
      rw [Function.update_self, length]
      exact fits
    · rw [Function.update_of_ne same]
      exact sound.width req below
  · intro req below
    by_cases same : req = reqIndex.toNat
    · subst same
      rw [Function.update_self]
      exact sound.staged_row inside overwrite blockIds
    · rw [Function.update_of_ne same]
      refine (Buffer.read_congr ?_).trans (sound.held req below)
      intro cell lower upper
      obtain ⟨column, rfl⟩ := Nat.exists_eq_add_of_le lower
      have wide := (sound.width req below).trans group.width_le_stride
      exact stagedWith_other fits same (by omega)

theorem applyWrite_twice (state : TableState) (stride : Nat) :
    ((state.applyWrite stride).copyToUva.applyWrite stride).gpu = (state.applyWrite stride).gpu := rfl

theorem RowsExact.applied (sound : RowsExact group maxNumReqs state rows) :
    RowsExact group maxNumReqs (state.applyWrite group.stride).copyToUva rows :=
  ⟨sound.count, sound.width, sound.held⟩

theorem RowsExact.fresh (group : TableGroup) (maxNumReqs i : Nat) :
    RowsExact group maxNumReqs (freshTables i) fun _ => [] :=
  ⟨fun _ _ => rfl, fun _ _ => Nat.zero_le _, fun _ _ => rfl⟩

/-- A call of `append_block_ids`. -/
structure AppendCall where
  reqIndex : Int
  newBlockIds : List (List Int)
  overwrite : Bool

inductive TableAction where
  | append (call : AppendCall)
  | apply

section Runs

variable (groups : List TableGroup) (maxNumReqs : Nat)

def AppendCall.on (call : AppendCall) (tables : BlockTables) : Except TableError Unit × BlockTables :=
  appendBlockIds groups maxNumReqs tables call.reqIndex call.newBlockIds call.overwrite

/-- An action, and the successful calls of `append_block_ids` so far. -/
def tableStep (state : BlockTables × List AppendCall) : TableAction → BlockTables × List AppendCall
  | .append call =>
      match call.on groups maxNumReqs state.1 with
      | (.ok _, next) => (next, state.2 ++ [call])
      | (.error _, next) => (next, state.2)
  | .apply => (applyStagedWrites groups state.1, state.2)

/-- The tables after some actions, whatever calls of them raised. -/
def tablesAfter (actions : List TableAction) : BlockTables × List AppendCall :=
  actions.foldl (tableStep groups maxNumReqs) (freshTables, [])

end Runs

/-- The row of a request in a group: the kernel blocks of its successful calls since the last overwrite. -/
def rowOf (group : TableGroup) (i : Nat) (calls : List AppendCall) (req : Nat) : List Int :=
  calls.foldl (fun row (call : AppendCall) =>
    if call.reqIndex = (req : Int) then extendRow call.overwrite row (group.expand (call.newBlockIds.getD i []))
    else row) []

/-- A call that is to be refused: a wrong request or group count, or a row that would not fit. -/
def Refused (groups : List TableGroup) (maxNumReqs : Nat) (calls : List AppendCall) (call : AppendCall) : Prop :=
  ¬(0 ≤ call.reqIndex ∧ call.reqIndex < maxNumReqs) ∨ call.newBlockIds.length ≠ groups.length ∨
    ∃ i group, groups[i]? = some group ∧ group.width <
      (extendRow call.overwrite (rowOf group i calls call.reqIndex.toNat)
        (group.expand (call.newBlockIds.getD i []))).length

/-- The tables of all groups are exact for the calls so far. -/
def TablesExact (groups : List TableGroup) (maxNumReqs : Nat) (state : BlockTables × List AppendCall) : Prop :=
  ∀ i group, groups[i]? = some group → RowsExact group maxNumReqs (state.1 i) (rowOf group i state.2)

theorem rowOf_append (group : TableGroup) (i : Nat) (calls : List AppendCall) {call : AppendCall}
    (nonneg : 0 ≤ call.reqIndex) :
    rowOf group i (calls ++ [call]) = Function.update (rowOf group i calls) call.reqIndex.toNat
      (extendRow call.overwrite (rowOf group i calls call.reqIndex.toNat)
        (group.expand (call.newBlockIds.getD i []))) := by
  funext req
  rw [rowOf, List.foldl_append]
  simp only [List.foldl_cons, List.foldl_nil]
  by_cases same : req = call.reqIndex.toNat
  · subst same
    rw [Function.update_self, if_pos (Int.toNat_of_nonneg nonneg).symm]
    rfl
  · rw [Function.update_of_ne same, if_neg (by omega)]
    rfl

theorem zip_getElem? {groups : List TableGroup} {newBlockIds : List (List Int)}
    (counted : newBlockIds.length = groups.length) {i : Nat} {group : TableGroup} (place : groups[i]? = some group) :
    (groups.zip newBlockIds)[i]? = some (group, newBlockIds.getD i []) := by
  obtain ⟨bound, same⟩ := List.getElem?_eq_some_iff.mp place
  have inside : i < newBlockIds.length := by omega
  rw [List.getElem?_zip_eq_some]
  refine ⟨place, ?_⟩
  rw [List.getD_eq_getElem?_getD, List.getElem?_eq_getElem inside, Option.getD_some]

variable {groups : List TableGroup} {tables : BlockTables} {calls : List AppendCall}

/-- Whether a group's row fits, told from the calls so far. -/
theorem fits_iff (sound : TablesExact groups maxNumReqs (tables, calls)) {call : AppendCall}
    (inside : call.reqIndex.toNat < maxNumReqs) {i : Nat} {group : TableGroup} (place : groups[i]? = some group) :
    Fits call.reqIndex call.overwrite (tables i) group (call.newBlockIds.getD i []) ↔
      (extendRow call.overwrite (rowOf group i calls call.reqIndex.toNat)
        (group.expand (call.newBlockIds.getD i []))).length ≤ group.width := by
  rw [Fits, (sound i group place).start inside, extendRow, List.length_append]

/-- A call raises with everything as it was exactly when it is to be refused; otherwise each group has
its row staged. -/
theorem append_cases (sound : TablesExact groups maxNumReqs (tables, calls)) (call : AppendCall) :
    (Refused groups maxNumReqs calls call ∧
        ∃ text, call.on groups maxNumReqs tables = (.error (.value text), tables)) ∨
      (¬Refused groups maxNumReqs calls call ∧ ∃ next, call.on groups maxNumReqs tables = (.ok (), next) ∧
        (∀ i, groups[i]? = none → next i = tables i) ∧
        ∀ i group, groups[i]? = some group →
          Fits call.reqIndex call.overwrite (tables i) group (call.newBlockIds.getD i []) ∧
          next i = (tables i).stagedWith call.reqIndex call.overwrite group (call.newBlockIds.getD i [])) := by
  unfold AppendCall.on appendBlockIds
  split
  case isTrue wrong =>
    exact .inl ⟨wrong.elim .inl fun count => .inr (.inl count), _, rfl⟩
  case isFalse right =>
    obtain ⟨known, counted⟩ := not_or.mp right
    rw [not_not] at known counted
    have inside : call.reqIndex.toNat < maxNumReqs := by omega
    rcases @checkGroups_cases call.reqIndex call.overwrite tables 0
      (groups.zip call.newBlockIds) with ⟨passed, fits⟩ | ⟨⟨text, failed⟩, i, group, blockIds, place, large⟩
    · rw [passed]
      have each : ∀ i group, groups[i]? = some group →
          Fits call.reqIndex call.overwrite (tables i) group (call.newBlockIds.getD i []) := by
        intro i group place
        have fit := fits i group _ (zip_getElem? counted place)
        rwa [Nat.zero_add] at fit
      refine .inr ⟨?_, ?_⟩
      · rintro (unknown | miscounted | ⟨i, group, place, large⟩)
        · exact unknown known
        · exact miscounted counted
        · exact absurd ((fits_iff sound inside place).mp (each i group place)) (not_le.mpr large)
      · obtain ⟨next, staged, -, beyond, rows⟩ :=
          @stageGroups_eq call.reqIndex call.overwrite known.1 tables 0 (groups.zip call.newBlockIds)
        refine ⟨next, staged, ?_, ?_⟩
        · intro i absent
          have past : (groups.zip call.newBlockIds)[i]? = none := by
            rw [List.getElem?_eq_none_iff] at absent ⊢
            rw [List.length_zip]
            omega
          have kept := beyond i past
          rwa [Nat.zero_add] at kept
        · intro i group place
          have row := rows i group _ (zip_getElem? counted place)
          rw [Nat.zero_add] at row
          exact ⟨each i group place, row⟩
    · rw [failed]
      rw [List.getElem?_zip_eq_some] at place
      rw [Nat.zero_add] at large
      have ids : call.newBlockIds.getD i [] = blockIds := by
        rw [List.getD_eq_getElem?_getD, place.2, Option.getD_some]
      rw [← ids, fits_iff sound inside place.1, not_le] at large
      exact .inl ⟨.inr (.inr ⟨i, group, place.1, large⟩), text, rfl⟩

theorem applyStagedWrites_at (tables : BlockTables) {i : Nat} {group : TableGroup} (place : groups[i]? = some group) :
    applyStagedWrites groups tables i = ((tables i).applyWrite group.stride).copyToUva := by
  rw [applyStagedWrites, place]

/-- Every action keeps the tables exact. -/
theorem TablesExact.step (sound : TablesExact groups maxNumReqs (tables, calls)) (action : TableAction) :
    TablesExact groups maxNumReqs (tableStep groups maxNumReqs (tables, calls) action) := by
  intro i group place
  cases action with
  | append call =>
      rcases append_cases sound call with ⟨_, text, raised⟩ | ⟨accepted, next, staged, _, rows⟩
      · rw [tableStep, raised]
        exact sound i group place
      · obtain ⟨fits, row⟩ := rows i group place
        have known : 0 ≤ call.reqIndex ∧ call.reqIndex < maxNumReqs := not_not.mp fun unknown => accepted (.inl unknown)
        rw [tableStep, staged]
        show RowsExact group maxNumReqs (next i) (rowOf group i (calls ++ [call]))
        rw [row, rowOf_append group i calls known.1]
        exact (sound i group place).staged (by omega) fits
  | apply =>
      show RowsExact group maxNumReqs (applyStagedWrites groups tables i) (rowOf group i calls)
      rw [applyStagedWrites_at tables place]
      exact (sound i group place).applied

/-- Along every sequence of calls, raised ones included. -/
theorem tablesAfter_exact (groups : List TableGroup) (maxNumReqs : Nat) (actions : List TableAction) :
    TablesExact groups maxNumReqs (tablesAfter groups maxNumReqs actions) := by
  induction actions using List.reverseRecOn with
  | nil => exact fun i group _ => RowsExact.fresh group maxNumReqs i
  | append_singleton before action ih =>
      rw [tablesAfter, List.foldl_append]
      exact ih.step action

section Gather

variable {idxMapping : Nat → Nat} {numReqs : Nat}

/-- What a program copies or clears: so many columns of its row, with these values. -/
def gatheredCount (group : TableGroup) (state : TableState) (idxMapping : Nat → Nat) (numReqs batchIdx : Nat) : Nat :=
  if batchIdx ≥ numReqs then group.stride else min (state.numBlocksGpu (idxMapping batchIdx)) group.stride

def gatheredValue (group : TableGroup) (state : TableState) (idxMapping : Nat → Nat) (numReqs batchIdx column : Nat) :
    Int :=
  if batchIdx ≥ numReqs then 0 else state.gpu (idxMapping batchIdx * group.stride + column)

theorem mem_maskedRow {count base i : Nat} {value : Nat → Int} {store : (Nat × Nat) × Int} :
    (store ∈ (rangeStep 0 count gatherBlockSize).flatMap fun tile =>
        (arange tile gatherBlockSize).flatMap fun offset => maskedStore (offset < count) (i, base + offset) (value offset)) ↔
      ∃ column, column < count ∧ store = ((i, base + column), value column) := by
  have lanes := flatMap_lanes 0 count gatherBlockSize (by decide)
    (fun offset => maskedStore (offset < count) (i, base + offset) (value offset)) fun offset beyond =>
      if_neg (by omega)
  rw [lanes]
  simp only [List.mem_flatMap, mem_maskedStore, List.mem_range'_1, Nat.sub_zero, Nat.zero_add, Nat.zero_le, true_and]
  constructor
  · rintro ⟨column, _, below, same⟩
    exact ⟨column, below, same⟩
  · rintro ⟨column, below, same⟩
    exact ⟨column, below, below, same⟩

/-- The stores of a program stay in its row. -/
theorem mem_gatherStores {i batchIdx : Nat} {store : (Nat × Nat) × Int} :
    store ∈ gatherStores groups tables idxMapping numReqs (i, batchIdx) ↔
      ∃ group, groups[i]? = some group ∧ ∃ column,
        column < gatheredCount group (tables i) idxMapping numReqs batchIdx ∧
          store = ((i, batchIdx * group.stride + column),
            gatheredValue group (tables i) idxMapping numReqs batchIdx column) := by
  simp only [gatherStores, gatheredCount, gatheredValue]
  cases place : groups[i]? with
  | none => simp
  | some group =>
      simp only [Option.some.injEq, exists_eq_left']
      by_cases padded : batchIdx ≥ numReqs
      · simp only [padded, if_true]
        exact mem_maskedRow
      · simp only [padded, if_false, mem_maskedRow]
        constructor
        · rintro ⟨column, below, same⟩
          exact ⟨column, below, by rw [same, maskedLoad, if_pos below]⟩
        · rintro ⟨column, below, same⟩
          exact ⟨column, below, by rw [same, maskedLoad, if_pos below]⟩

theorem gatheredCount_le (group : TableGroup) (state : TableState) (idxMapping : Nat → Nat) (numReqs batchIdx : Nat) :
    gatheredCount group state idxMapping numReqs batchIdx ≤ group.stride := by
  unfold gatheredCount
  split
  · exact le_rfl
  · exact min_le_right _ _

variable {numReqsPadded : Nat} {memory final : Nat × Nat → Int} {i : Nat} {group : TableGroup}

/-- A column inside the stride belongs to one row. -/
theorem row_unique (group : TableGroup) {row other column place : Nat} (below : column < group.stride)
    (inside : place < group.stride) (same : row * group.stride + column = other * group.stride + place) :
    row = other ∧ column = place := by
  have rows : row = other := by
    by_contra different
    rcases Nat.lt_or_gt_of_ne different with before | after
    · have next := Nat.mul_le_mul_right group.stride (show row + 1 ≤ other from before)
      rw [Nat.succ_mul] at next
      omega
    · have next := Nat.mul_le_mul_right group.stride (show other + 1 ≤ row from after)
      rw [Nat.succ_mul] at next
      omega
  subst rows
  exact ⟨rfl, by omega⟩

/-- A row of the launch gets the columns that its program copies or clears, and no others. -/
theorem gather_row (place : groups[i]? = some group)
    (launched : Launched (gatherGrid groups numReqsPadded) (gatherStores groups tables idxMapping numReqs) memory final)
    {batchIdx column : Nat} (row : batchIdx < numReqsPadded) (below : column < group.stride) :
    final (i, batchIdx * group.stride + column) =
      if column < gatheredCount group (tables i) idxMapping numReqs batchIdx then
        gatheredValue group (tables i) idxMapping numReqs batchIdx column
      else memory (i, batchIdx * group.stride + column) := by
  have mine : ∀ program value, ((i, batchIdx * group.stride + column), value) ∈
      gatherStores groups tables idxMapping numReqs program →
        column < gatheredCount group (tables i) idxMapping numReqs batchIdx ∧
          value = gatheredValue group (tables i) idxMapping numReqs batchIdx column := by
    rintro ⟨j, other⟩ value stored
    obtain ⟨there, found, offset, inside, same⟩ := mem_gatherStores.mp stored
    obtain ⟨⟨rfl, address⟩, rfl⟩ : (i = j ∧ _) ∧ _ := by
      simpa only [Prod.mk.injEq] using same
    rw [place] at found
    cases found
    obtain ⟨rfl, rfl⟩ := row_unique group below (inside.trans_le (gatheredCount_le ..)) address
    exact ⟨inside, rfl⟩
  split
  case isTrue copied =>
    apply launched.written
    · refine ⟨(i, batchIdx), ?_, mem_gatherStores.mpr ⟨group, place, column, copied, rfl⟩⟩
      exact List.pair_mem_product.mpr ⟨List.mem_range.mpr (List.getElem?_eq_some_iff.mp place).1, List.mem_range.mpr row⟩
    · exact fun program _ value stored => (mine program value stored).2
  case isFalse kept =>
    apply launched.other
    exact fun program _ value stored => kept (mine program value stored).1

end Gather

/-- A call changes no other row, neither by itself nor through the next application. -/
theorem append_other (sound : TablesExact groups maxNumReqs (tables, calls)) (call : AppendCall) {i : Nat}
    {group : TableGroup} (place : groups[i]? = some group) {other column : Nat} (different : (other : Int) ≠ call.reqIndex)
    (below : column < group.width) :
    (applyStagedWrites groups (call.on groups maxNumReqs tables).2 i).gpu (other * group.stride + column) =
      (applyStagedWrites groups tables i).gpu (other * group.stride + column) := by
  rcases append_cases sound call with ⟨_, text, raised⟩ | ⟨accepted, next, staged, _, rows⟩
  · rw [raised]
  · obtain ⟨fits, row⟩ := rows i group place
    have known : 0 ≤ call.reqIndex ∧ call.reqIndex < maxNumReqs := not_not.mp fun unknown => accepted (.inl unknown)
    rw [staged, applyStagedWrites_at _ place, applyStagedWrites_at _ place]
    show ((next i).applyWrite group.stride).gpu _ = ((tables i).applyWrite group.stride).gpu _
    rw [row]
    exact stagedWith_other fits (by omega) (below.trans_le group.width_le_stride)

/-- What a gather after an application makes of a live row. -/
theorem gather_live {rows : Nat → List Int} (sound : RowsExact group maxNumReqs state rows) {idxMapping : Nat → Nat}
    {numReqs batchIdx column : Nat} (live : batchIdx < numReqs) (known : idxMapping batchIdx < maxNumReqs) (kept : Int) :
    (if column < gatheredCount group (state.applyWrite group.stride).copyToUva idxMapping numReqs batchIdx then
        gatheredValue group (state.applyWrite group.stride).copyToUva idxMapping numReqs batchIdx column
      else kept) = (rows (idxMapping batchIdx))[column]?.getD kept := by
  have count : gatheredCount group (state.applyWrite group.stride).copyToUva idxMapping numReqs batchIdx =
      (rows (idxMapping batchIdx)).length := by
    rw [gatheredCount, if_neg (not_le.mpr live)]
    show min (state.numBlocks (idxMapping batchIdx)) group.stride = _
    rw [sound.count _ known]
    exact min_eq_left ((sound.width _ known).trans group.width_le_stride)
  rw [count]
  split
  case isTrue below =>
    have held := Buffer.getElem?_read (state.applyWrite group.stride).gpu (idxMapping batchIdx * group.stride) below
    rw [sound.held _ known] at held
    rw [held, Option.getD_some, gatheredValue, if_neg (not_le.mpr live)]
    rfl
  case isFalse above => rw [List.getElem?_eq_none (not_lt.mp above), Option.getD_none]

/-- A call raises with nothing changed exactly when it is to be refused. The staged writes of a call reach
the device with the next application, where each group's row is what the successful calls appended since
the last overwrite, and every other row is what it is without the call. A gather copies those columns for
the live rows, clears the padded ones, and leaves all other columns of its output. -/
theorem block_tables_atomic_exact (groups : List TableGroup) (maxNumReqs : Nat) (actions : List TableAction) :
    let state := tablesAfter groups maxNumReqs actions
    let applied := applyStagedWrites groups state.1
    (∀ call : AppendCall,
      ((Refused groups maxNumReqs state.2 call ∧
          ∃ text, call.on groups maxNumReqs state.1 = (.error (.value text), state.1)) ∨
        (¬Refused groups maxNumReqs state.2 call ∧
          ∃ next, call.on groups maxNumReqs state.1 = (.ok (), next))) ∧
      ∀ i group, groups[i]? = some group → ∀ other column : Nat, (other : Int) ≠ call.reqIndex →
        column < group.width →
        (applyStagedWrites groups (call.on groups maxNumReqs state.1).2 i).gpu (other * group.stride + column) =
          (applied i).gpu (other * group.stride + column)) ∧
    (∀ i group, groups[i]? = some group → ∀ req, req < maxNumReqs →
      (applied i).numBlocks req = (rowOf group i state.2 req).length ∧
      (rowOf group i state.2 req).length ≤ group.width ∧
      (applied i).gpu.read (req * group.stride) (rowOf group i state.2 req).length = rowOf group i state.2 req) ∧
    ∀ (idxMapping : Nat → Nat) numReqs numReqsPadded memory final,
      Launched (gatherGrid groups numReqsPadded) (gatherStores groups applied idxMapping numReqs) memory final →
      ∀ i group, groups[i]? = some group → ∀ batchIdx, batchIdx < numReqsPadded →
        (numReqs ≤ batchIdx → ∀ column, column < group.width → final (i, batchIdx * group.stride + column) = 0) ∧
        (batchIdx < numReqs → idxMapping batchIdx < maxNumReqs → ∀ column, column < group.width →
          final (i, batchIdx * group.stride + column) =
            (rowOf group i state.2 (idxMapping batchIdx))[column]?.getD
              (memory (i, batchIdx * group.stride + column))) := by
  intro state applied
  have sound : TablesExact groups maxNumReqs (state.1, state.2) := tablesAfter_exact groups maxNumReqs actions
  have at_ : ∀ i group, groups[i]? = some group → applied i = ((state.1 i).applyWrite group.stride).copyToUva :=
    fun i group place => applyStagedWrites_at state.1 place
  refine ⟨?_, ?_, ?_⟩
  · intro call
    refine ⟨?_, fun i group place other column different below => append_other sound call place different below⟩
    rcases append_cases sound call with ⟨refused, raised⟩ | ⟨accepted, next, staged, _⟩
    · exact .inl ⟨refused, raised⟩
    · exact .inr ⟨accepted, next, staged⟩
  · intro i group place req below
    rw [at_ i group place]
    have row := (sound i group place).applied
    exact ⟨row.count req below, row.width req below, (sound i group place).held req below⟩
  · intro idxMapping numReqs numReqsPadded memory final launched i group place batchIdx inside
    have row := fun column (below : column < group.width) =>
      gather_row place launched inside (below.trans_le group.width_le_stride)
    constructor
    · intro padded column below
      rw [row column below, gatheredCount, gatheredValue, if_pos padded, if_pos padded,
        if_pos (below.trans_le group.width_le_stride)]
    · intro live known column below
      rw [row column below, at_ i group place]
      exact gather_live (sound i group place) live known _

end DgxSpark.Dcp
