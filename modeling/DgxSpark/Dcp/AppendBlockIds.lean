import DgxSpark.Library.Buffer
import DgxSpark.Library.Grid

/-
This file embeds `append_block_ids`, `apply_staged_writes` and `gather_block_tables` of
`worker/gpu/block_table.py`, which are the same in both overlays. Integers are exact.
-/

namespace DgxSpark.Dcp
open DgxSpark.Library

/-- A KV cache group as the constructor sees it. A kernel block is part of a KV block. -/
structure TableGroup where
  blockSize : Nat
  kernelBlockSize : Nat
  maxNumBlocks : Nat
  kernelBlockSize_pos : 0 < kernelBlockSize
  kernelBlockSize_le : kernelBlockSize ≤ blockSize

namespace TableGroup

def blocksPerKvBlock (group : TableGroup) : Nat := group.blockSize / group.kernelBlockSize

def width (group : TableGroup) : Nat := group.maxNumBlocks * group.blocksPerKvBlock

/-- The row stride of the tensor; that of a tensor without columns is one. -/
def stride (group : TableGroup) : Nat := max group.width 1

/-- The kernel blocks of some KV blocks. -/
def expand (group : TableGroup) (blockIds : List Int) : List Int :=
  let bpk := group.blocksPerKvBlock
  if bpk > 1 then blockIds.flatMap fun b => (List.range bpk).map fun k => b * bpk + (k : Int)
  else blockIds

end TableGroup

structure StagedWrite where
  row : Nat
  start : Nat
  values : List Int

/-- The table of a group: its staged writes, its memory on the device, and its row of `num_blocks` on the
host and on the device. -/
structure TableState where
  staged : List StagedWrite
  gpu : Buffer Int
  numBlocks : Nat → Nat
  numBlocksGpu : Nat → Nat

abbrev BlockTables := Nat → TableState

inductive TableError where
  | value (text : String)
  | assertion
deriving DecidableEq

/-- The tensors begin with zeros. -/
def freshTables : BlockTables := fun _ => ⟨[], fun _ => 0, fun _ => 0, fun _ => 0⟩

/-- `stage_write` of the staged tensor. -/
def TableState.stageWrite (state : TableState) (index : Int) (start : Nat) (x : List Int) :
    Except TableError Unit × TableState :=
  if index < 0 then (.error .assertion, state)
  else if x = [] then (.ok (), state)
  else (.ok (), { state with staged := state.staged ++ [⟨index.toNat, start, x⟩] })

/-- One staged write reaches the memory at its row and start. -/
def applyOne (stride : Nat) (gpu : Buffer Int) (write : StagedWrite) : Buffer Int :=
  gpu.write (write.row * stride + write.start) write.values

/-- `apply_write` of the staged tensor. -/
def TableState.applyWrite (state : TableState) (stride : Nat) : TableState :=
  { state with gpu := state.staged.foldl (applyOne stride) state.gpu, staged := [] }

/-- `num_blocks.copy_to_uva`. -/
def TableState.copyToUva (state : TableState) : TableState := { state with numBlocksGpu := state.numBlocks }

section Append

variable (reqIndex : Int) (overwrite : Bool)

def startOf (state : TableState) : Nat := if overwrite then 0 else state.numBlocks reqIndex.toNat

/-- The first loop: no group's columns may end behind its width. -/
def checkGroups (tables : BlockTables) : Nat → List (TableGroup × List Int) → Except TableError Unit
  | _, [] => .ok ()
  | i, (group, blockIds) :: rest =>
      let start := startOf reqIndex overwrite (tables i)
      let stop := start + blockIds.length * group.blocksPerKvBlock
      if ¬(0 ≤ start ∧ start ≤ stop ∧ stop ≤ group.width) then
        .error (.value s!"KV group {i} block-table overflow: request={reqIndex} columns={start}:{stop}, capacity={group.width}")
      else checkGroups tables (i + 1) rest

/-- What the second loop does for one group. -/
def stageGroup (tables : BlockTables) (i : Nat) (group : TableGroup) (blockIds : List Int) :
    Except TableError Unit × BlockTables :=
  let start := startOf reqIndex overwrite (tables i)
  let blockIds := group.expand blockIds
  match (tables i).stageWrite reqIndex start blockIds with
  | (.error error, state) => (.error error, Function.update tables i state)
  | (.ok _, state) =>
      (.ok (), Function.update tables i
        { state with numBlocks := Function.update state.numBlocks reqIndex.toNat (start + blockIds.length) })

def stageGroups : BlockTables → Nat → List (TableGroup × List Int) → Except TableError Unit × BlockTables
  | tables, _, [] => (.ok (), tables)
  | tables, i, (group, blockIds) :: rest =>
      match stageGroup reqIndex overwrite tables i group blockIds with
      | (.error error, next) => (.error error, next)
      | (.ok _, next) => stageGroups next (i + 1) rest

end Append

section Tables

variable (groups : List TableGroup) (maxNumReqs : Nat)

/-- How the call ends, and the tables that it leaves. -/
def appendBlockIds (tables : BlockTables) (reqIndex : Int) (newBlockIds : List (List Int)) (overwrite : Bool) :
    Except TableError Unit × BlockTables :=
  if ¬(0 ≤ reqIndex ∧ reqIndex < maxNumReqs) ∨ newBlockIds.length ≠ groups.length then
    (.error (.value "invalid request or KV group count for block-table update"), tables)
  else
    match checkGroups reqIndex overwrite tables 0 (groups.zip newBlockIds) with
    | .error error => (.error error, tables)
    | .ok _ => stageGroups reqIndex overwrite tables 0 (groups.zip newBlockIds)

/-- Every group's table is written, by its own launch or a fused one, and the counts are copied. -/
def applyStagedWrites (tables : BlockTables) : BlockTables := fun i =>
  match groups[i]? with
  | none => tables i
  | some group => ((tables i).applyWrite group.stride).copyToUva

end Tables

/-- `BLOCK_SIZE` of the launch. -/
def gatherBlockSize : Nat := 1024

/-- The stores of one program of `_gather_block_tables_kernel`, as group and place in its table. -/
def gatherStores (groups : List TableGroup) (tables : BlockTables) (idxMapping : Nat → Nat) (numReqs : Nat)
    (program : Nat × Nat) : List ((Nat × Nat) × Int) :=
  let (groupId, batchIdx) := program
  match groups[groupId]? with
  | none => []
  | some group =>
      let maxNumBlocks := group.stride
      let dstRow := batchIdx * group.stride
      if batchIdx ≥ numReqs then
        (rangeStep 0 maxNumBlocks gatherBlockSize).flatMap fun i =>
          (arange i gatherBlockSize).flatMap fun offset =>
            maskedStore (offset < maxNumBlocks) (groupId, dstRow + offset) 0
      else
        let reqIdx := idxMapping batchIdx
        let numBlocks := min ((tables groupId).numBlocksGpu reqIdx) maxNumBlocks
        let srcRow := reqIdx * group.stride
        (rangeStep 0 numBlocks gatherBlockSize).flatMap fun i =>
          (arange i gatherBlockSize).flatMap fun offset =>
            let blockIds := maskedLoad (offset < numBlocks) ((tables groupId).gpu (srcRow + offset)) 0
            maskedStore (offset < numBlocks) (groupId, dstRow + offset) blockIds

/-- The programs of the launch: one for each group and each row, padded rows included. -/
def gatherGrid (groups : List TableGroup) (numReqsPadded : Nat) : List (Nat × Nat) :=
  List.range groups.length ×ˢ List.range numReqsPadded

end DgxSpark.Dcp
