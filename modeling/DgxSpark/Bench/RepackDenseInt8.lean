import DgxSpark.Library.Buffer
import DgxSpark.Library.ByteLanes
import DgxSpark.Library.Extreme
import DgxSpark.Library.Fallible
import DgxSpark.Library.Grid
import DgxSpark.Library.Rounding
import Mathlib.Data.Rat.Floor

/-
This file embeds `block_rows` and `quantize` of `repack_dense_int8.py`. The numbers are exact, so every weight is finite;
the cast of a scale to its stored type is any function. A tensor is its cells in row-major order, which `reshape` keeps.
-/

namespace DgxSpark.Repack
open DgxSpark.Library

/-- What the code raises, or an operation it uses. -/
inductive Raised where
  | valueError (message : String)
  | other
deriving DecidableEq

def ROW_VALUES : Nat := 256 * 1024

def blockRows (n k requested : Nat) : Except Raised Nat :=
  if ROW_VALUES < k then .error (.valueError "matrix row exceeds bounded RTN scratch width")
  else .ok (min (min n requested) (ROW_VALUES / k))

def groupOf (scheme : String) (k : Nat) : Nat :=
  if scheme = "per-channel" then k else if scheme = "group-128" then 128 else 0

section Block

variable (weight : Nat → Nat → ℚ) (k group : Nat) (cast : ℚ → ℚ) (begin : Nat)

/-- The cells of `weight[begin:end]`. -/
def blockValue (flat : Nat) : ℚ := weight (begin + flat / k) (flat % k)

/-- `values.abs().amax(dim=-1)`. -/
def blockMaximum (g : Nat) : ℚ :=
  ((List.range group).map fun j => |blockValue weight k begin (g * group + j)|).foldl max 0

def blockScale (g : Nat) : ℚ :=
  let maximum := blockMaximum weight k group begin g
  cast (if maximum = 0 then 1 else maximum / 127)

def blockQuantized (flat : Nat) : Int :=
  clamp (-127) 127
    (roundHalfEven (blockValue weight k begin flat / blockScale weight k group cast begin (flat / group)))

def blockLane (flat : Nat) : BitVec 32 := BitVec.ofInt 32 (blockQuantized weight k group cast begin flat + 128)

def blockPacked (w : Nat) : BitVec 32 :=
  packLanes fun lane => blockLane weight k group cast begin (w * 4 + lane)

end Block

/-- The two tensors that the loop fills. -/
structure Filling where
  packed : Buffer (BitVec 32)
  scales : Buffer ℚ

structure Quantized where
  weightPacked : List (BitVec 32)
  weightScale : List ℚ
  weightShape : Nat × Nat

section Loop

variable (weight : Nat → Nat → ℚ) (n k group : Nat) (cast : ℚ → ℚ) (rowBlock : Nat)

/-- A turn of the loop over the row blocks. -/
def quantizeBlock (filling : Filling) (begin : Nat) : Except Raised Filling :=
  let stop := min n (begin + rowBlock)
  let scale := (List.range ((stop - begin) * (k / group))).map (blockScale weight k group cast begin)
  if ¬∀ value ∈ scale, 0 < value then
    .error (.valueError "scale overflow/underflow; use a wider checkpoint dtype")
  else
    .ok ⟨filling.packed.write (begin * (k / 4))
        ((List.range ((stop - begin) * (k / 4))).map (blockPacked weight k group cast begin)),
      filling.scales.write (begin * (k / group)) scale⟩

end Loop

/-- `blank` is what `torch.empty` finds in memory. -/
def quantize (scheme : String) (n k : Nat) (weight : Nat → Nat → ℚ) (cast : ℚ → ℚ) (blank : Filling) (rowBlock : Nat) :
    Except Raised Quantized := do
  if rowBlock < 1 then
    throw (.valueError "expected a CPU matrix and a positive row block")
  let group := groupOf scheme k
  if group = 0 ∨ n = 0 ∨ k = 0 ∨ k % 4 ≠ 0 ∨ k % group ≠ 0 then
    throw (.valueError "K must divide packing factor four and the requested group size")
  let rowBlock ← blockRows n k rowBlock
  let filled ← (rangeStep 0 n rowBlock).foldlM (quantizeBlock weight n k group cast rowBlock) blank
  return ⟨filled.packed.read 0 (n * (k / 4)), filled.scales.read 0 (n * (k / group)), (n, k)⟩

section Group

variable {weight : Nat → Nat → ℚ} {k group begin g : Nat} {cast : ℚ → ℚ}

/-- A scale of a positive cast is positive. -/
theorem blockScale_pos (positive : ∀ scale, 0 < scale → 0 < cast scale) (g : Nat) :
    0 < blockScale weight k group cast begin g := by
  have nonneg : 0 ≤ blockMaximum weight k group begin g := (foldl_max_le _ 0).1
  refine positive _ ?_
  split
  case isTrue => exact one_pos
  case isFalse nonzero =>
    have some := lt_of_le_of_ne nonneg (Ne.symm nonzero)
    linarith

theorem blockQuantized_within (flat : Nat) :
    -127 ≤ blockQuantized weight k group cast begin flat ∧ blockQuantized weight k group cast begin flat ≤ 127 :=
  clamp_within (by decide) _

/-- No other point of the grid of the stored scale is nearer to the cell. -/
theorem blockQuantized_nearest (flat : Nat) (scaled : 0 < blockScale weight k group cast begin (flat / group)) {m : Int}
    (inside : -127 ≤ m ∧ m ≤ 127) :
    |blockValue weight k begin flat -
        blockQuantized weight k group cast begin flat * blockScale weight k group cast begin (flat / group)| ≤
      |blockValue weight k begin flat - m * blockScale weight k group cast begin (flat / group)| := by
  have nearest := clamp_nearest inside
    (blockValue weight k begin flat / blockScale weight k group cast begin (flat / group))
  rw [← blockQuantized] at nearest
  generalize blockScale weight k group cast begin (flat / group) = scale at scaled nearest ⊢
  have spread : ∀ q : Int, |blockValue weight k begin flat - q * scale| =
      |blockValue weight k begin flat / scale - q| * scale := by
    intro q
    rw [← abs_of_pos scaled, ← abs_mul, abs_of_pos scaled, sub_mul, div_mul_cancel₀ _ scaled.ne']
  rw [spread, spread]
  exact mul_le_mul_of_nonneg_right nearest scaled.le

theorem blockQuantized_zero {flat : Nat} (zero : blockValue weight k begin flat = 0) :
    blockQuantized weight k group cast begin flat = 0 := by
  rw [blockQuantized, zero, zero_div, roundHalfEven_zero]
  rfl

/-- A lane is a byte of the quantized cell, moved by 128. -/
theorem blockLane_byte (flat : Nat) :
    (blockLane weight k group cast begin flat).toNat < 256 ∧
      ((blockLane weight k group cast begin flat).toNat : Int) - 128 = blockQuantized weight k group cast begin flat := by
  have within : -127 ≤ blockQuantized weight k group cast begin flat ∧
    blockQuantized weight k group cast begin flat ≤ 127 := blockQuantized_within flat
  rw [blockLane, BitVec.toNat_ofInt]
  omega

theorem unpack_blockPacked (w : Nat) {lane : Nat} (inside : lane < 4) :
    (unpackLane (blockPacked weight k group cast begin w) lane : Int) - 128 =
      blockQuantized weight k group cast begin (w * 4 + lane) := by
  rw [blockPacked, unpack_pack (fun lane => (blockLane_byte (w * 4 + lane)).1) inside]
  exact (blockLane_byte (w * 4 + lane)).2

end Group

section Shift

variable {weight : Nat → Nat → ℚ} {k group : Nat} {cast : ℚ → ℚ} {begin : Nat}

/-- A cell of a block is one of the matrix. -/
theorem blockValue_shift (cols : 0 < k) (flat : Nat) :
    blockValue weight k begin flat = blockValue weight k 0 (begin * k + flat) := by
  rw [blockValue, blockValue, Nat.mul_comm, Nat.mul_add_div cols, Nat.mul_add_mod, Nat.zero_add]

variable (cols : 0 < k) (groups : k = k / group * group)

include cols groups

theorem blockScale_shift (g : Nat) :
    blockScale weight k group cast begin g = blockScale weight k group cast 0 (begin * (k / group) + g) := by
  have maximum : blockMaximum weight k group begin g = blockMaximum weight k group 0 (begin * (k / group) + g) := by
    unfold blockMaximum
    congr 1
    refine List.map_congr_left fun j _ => ?_
    rw [blockValue_shift cols, Nat.add_mul, Nat.mul_assoc, ← groups, Nat.add_assoc]
  rw [blockScale, blockScale, maximum]

theorem blockQuantized_shift (someGroup : 0 < group) (flat : Nat) :
    blockQuantized weight k group cast begin flat = blockQuantized weight k group cast 0 (begin * k + flat) := by
  have place : (begin * k + flat) / group = begin * (k / group) + flat / group := by
    conv_lhs => rw [groups, ← Nat.mul_assoc, Nat.mul_comm _ group, Nat.mul_add_div someGroup]
  rw [blockQuantized, blockQuantized, blockValue_shift cols, blockScale_shift cols groups, place]

theorem blockPacked_shift (someGroup : 0 < group) (words : k = k / 4 * 4) (w : Nat) :
    blockPacked weight k group cast begin w = blockPacked weight k group cast 0 (begin * (k / 4) + w) := by
  unfold blockPacked blockLane
  congr 1
  funext lane
  rw [blockQuantized_shift cols groups someGroup, Nat.add_mul, Nat.mul_assoc, ← words, Nat.add_assoc]

end Shift

section Fill

variable {weight : Nat → Nat → ℚ} {n k group rowBlock : Nat} {cast : ℚ → ℚ}

/-- The rows of the blocks so far have the words and the scales of the matrix. -/
def Filled (weight : Nat → Nat → ℚ) (n k group : Nat) (cast : ℚ → ℚ) (rowBlock : Nat) (begins : List Nat)
    (filling : Filling) : Prop :=
  ∀ begin ∈ begins,
    (∀ w, begin * (k / 4) ≤ w → w < min n (begin + rowBlock) * (k / 4) →
      filling.packed w = blockPacked weight k group cast 0 w) ∧
    ∀ g, begin * (k / group) ≤ g → g < min n (begin + rowBlock) * (k / group) →
      filling.scales g = blockScale weight k group cast 0 g

variable (cols : 0 < k) (groups : k = k / group * group) (someGroup : 0 < group) (words : k = k / 4 * 4)

include cols groups someGroup words

/-- A turn writes the words and the scales of its rows. -/
theorem quantizeBlock_ok {filling next : Filling} {begin : Nat} (inside : begin < n)
    (turned : quantizeBlock weight n k group cast rowBlock filling begin = .ok next) :
    next.packed = (fun w => if begin * (k / 4) ≤ w ∧ w < min n (begin + rowBlock) * (k / 4) then
      blockPacked weight k group cast 0 w else filling.packed w) ∧
    next.scales = fun g => if begin * (k / group) ≤ g ∧ g < min n (begin + rowBlock) * (k / group) then
      blockScale weight k group cast 0 g else filling.scales g := by
  have rows : ∀ width, begin * width + (min n (begin + rowBlock) - begin) * width = min n (begin + rowBlock) * width := by
    intro width
    rw [← Nat.add_mul, Nat.add_sub_cancel' (by omega)]
  have packed : blockPacked weight k group cast begin =
      fun w => blockPacked weight k group cast 0 (begin * (k / 4) + w) := by
    funext w
    exact blockPacked_shift cols groups someGroup words w
  have scales : blockScale weight k group cast begin =
      fun g => blockScale weight k group cast 0 (begin * (k / group) + g) := by
    funext g
    exact blockScale_shift cols groups g
  simp only [quantizeBlock, packed, scales] at turned
  split at turned
  case isTrue => cases turned
  case isFalse =>
    cases turned
    dsimp only
    rw [Buffer.write_range, Buffer.write_range, rows, rows]
    exact ⟨rfl, rfl⟩

theorem Filled.step {filling next : Filling} {begins : List Nat} {begin : Nat}
    (filled : Filled weight n k group cast rowBlock begins filling) (inside : begin < n)
    (turned : quantizeBlock weight n k group cast rowBlock filling begin = .ok next) :
    Filled weight n k group cast rowBlock (begins ++ [begin]) next := by
  obtain ⟨packed, scales⟩ := quantizeBlock_ok cols groups someGroup words inside turned
  intro other member
  rw [packed, scales]
  rcases List.mem_append.mp member with old | new
  · constructor
    · intro w low high
      dsimp only
      rw [(filled other old).1 w low high, ite_self]
    · intro g low high
      dsimp only
      rw [(filled other old).2 g low high, ite_self]
  · rw [List.mem_singleton.mp new]
    exact ⟨fun w low high => if_pos ⟨low, high⟩, fun g low high => if_pos ⟨low, high⟩⟩

/-- The loop fills every row, whatever the block and whatever was there. -/
theorem filled_all (positive : ∀ scale, 0 < scale → 0 < cast scale) (someRow : 0 < rowBlock) (blank : Filling) :
    ∃ last, (rangeStep 0 n rowBlock).foldlM (quantizeBlock weight n k group cast rowBlock) blank = .ok last ∧
      (∀ w, w < n * (k / 4) → last.packed w = blockPacked weight k group cast 0 w) ∧
      ∀ g, g < n * (k / group) → last.scales g = blockScale weight k group cast 0 g := by
  cases looped : (rangeStep 0 n rowBlock).foldlM (quantizeBlock weight n k group cast rowBlock) blank with
  | error raised =>
      obtain ⟨_, begin, _, middle, -, -, failed⟩ := foldlM_fails looped
      have passed : ∀ value ∈ (List.range ((min n (begin + rowBlock) - begin) * (k / group))).map
          (blockScale weight k group cast begin), 0 < value := by
        intro value member
        obtain ⟨g, -, rfl⟩ := List.mem_map.mp member
        exact blockScale_pos positive g
      rw [quantizeBlock, if_neg (not_not.mpr passed)] at failed
      cases failed
  | ok last =>
      have filled : Filled weight n k group cast rowBlock (rangeStep 0 n rowBlock) last :=
        foldlM_carries (Filled weight n k group cast rowBlock)
          (fun before begin after state next split filled turned => by
            have member : begin ∈ rangeStep 0 n rowBlock := by
              rw [split]
              simp
            exact filled.step cols groups someGroup words ((mem_rangeStep someRow).mp member).1 turned)
          (fun begin member => absurd member List.not_mem_nil) looped
      -- Each row is in the block that starts at the multiple of the block size before it.
      have covered : ∀ row, row < n → row / rowBlock * rowBlock ∈ rangeStep 0 n rowBlock ∧
          row / rowBlock * rowBlock ≤ row ∧ row < min n (row / rowBlock * rowBlock + rowBlock) := by
        intro row inside
        have low := Nat.div_mul_le_self row rowBlock
        have high := Nat.lt_div_mul_add someRow (a := row)
        exact ⟨(mem_rangeStep someRow).mpr ⟨by omega, row / rowBlock, (Nat.zero_add _).symm⟩, low, by omega⟩
      have place : ∀ width cell, cell < n * width → cell / width < n ∧
          ∀ low high, low ≤ cell / width → cell / width < high → low * width ≤ cell ∧ cell < high * width := by
        intro width cell inside
        have someWidth : 0 < width := Nat.pos_of_ne_zero fun none => by simp [none] at inside
        refine ⟨(Nat.div_lt_iff_lt_mul someWidth).mpr inside, fun low high below above => ?_⟩
        exact ⟨(Nat.le_div_iff_mul_le someWidth).mp below, (Nat.div_lt_iff_lt_mul someWidth).mp above⟩
      refine ⟨last, rfl, fun w inside => ?_, fun g inside => ?_⟩
      · obtain ⟨row, within⟩ := place (k / 4) w inside
        obtain ⟨member, low, high⟩ := covered (w / (k / 4)) row
        obtain ⟨start, stop⟩ := within _ _ low high
        exact (filled _ member).1 w start stop
      · obtain ⟨row, within⟩ := place (k / group) g inside
        obtain ⟨member, low, high⟩ := covered (g / (k / group)) row
        obtain ⟨start, stop⟩ := within _ _ low high
        exact (filled _ member).2 g start stop

end Fill

section Quantize

variable {scheme : String} {n k rowBlock : Nat} {weight : Nat → Nat → ℚ} {cast : ℚ → ℚ}

/-- A matrix that fits either scheme. -/
structure Fits (scheme : String) (n k : Nat) : Prop where
  known : scheme = "per-channel" ∨ scheme = "group-128"
  rows : 0 < n
  cols : 0 < k
  words : k % 4 = 0
  groups : k % groupOf scheme k = 0

theorem Fits.group_pos (fits : Fits scheme n k) : 0 < groupOf scheme k := by
  rcases fits.known with rfl | rfl
  · exact fits.cols
  · rw [groupOf, if_neg (by decide), if_pos rfl]
    decide

theorem blockRows_pos (rows : 0 < n) (cols : 0 < k) (narrow : k ≤ ROW_VALUES) (requested : 0 < rowBlock) :
    ∃ count, blockRows n k rowBlock = .ok count ∧ 0 < count := by
  have wide : 0 < ROW_VALUES / k := Nat.div_pos narrow cols
  exact ⟨_, if_neg (not_lt.mpr narrow), by omega⟩

/-- The words and the scales, without blocks. -/
def quantizedWhole (scheme : String) (n k : Nat) (weight : Nat → Nat → ℚ) (cast : ℚ → ℚ) : Quantized :=
  let group := groupOf scheme k
  ⟨(List.range (n * (k / 4))).map (blockPacked weight k group cast 0),
    (List.range (n * (k / group))).map (blockScale weight k group cast 0), (n, k)⟩

/-- The row blocks leave no trace in the result. -/
theorem quantize_eq (fits : Fits scheme n k) (positive : ∀ scale, 0 < scale → 0 < cast scale) (blank : Filling)
    (requested : 1 ≤ rowBlock) : quantize scheme n k weight cast blank rowBlock =
      if ROW_VALUES < k then .error (.valueError "matrix row exceeds bounded RTN scratch width")
      else .ok (quantizedWhole scheme n k weight cast) := by
  have checked : ¬(groupOf scheme k = 0 ∨ n = 0 ∨ k = 0 ∨ k % 4 ≠ 0 ∨ k % groupOf scheme k ≠ 0) := by
    have group := fits.group_pos
    have rows := fits.rows
    have cols := fits.cols
    have words := fits.words
    have groups := fits.groups
    omega
  have asked : ¬rowBlock < 1 := not_lt.mpr requested
  simp only [quantize, if_neg asked, if_neg checked]
  by_cases wide : ROW_VALUES < k
  · rw [if_pos wide, blockRows, if_pos wide]
    rfl
  · obtain ⟨count, rows, some⟩ := blockRows_pos fits.rows fits.cols (not_lt.mp wide) (Nat.lt_of_succ_le requested)
    obtain ⟨last, looped, packed, scales⟩ := @filled_all weight n k (groupOf scheme k) count cast fits.cols
      (Nat.div_mul_cancel (Nat.dvd_of_mod_eq_zero fits.groups)).symm fits.group_pos
      (Nat.div_mul_cancel (Nat.dvd_of_mod_eq_zero fits.words)).symm positive some blank
    have words : last.packed.read 0 (n * (k / 4)) = (quantizedWhole scheme n k weight cast).weightPacked :=
      List.map_congr_left fun w member => by rw [Nat.zero_add, packed w (List.mem_range.mp member)]
    have values : last.scales.read 0 (n * (k / groupOf scheme k)) = (quantizedWhole scheme n k weight cast).weightScale :=
      List.map_congr_left fun g member => by rw [Nat.zero_add, scales g (List.mem_range.mp member)]
    rw [if_neg wide, rows]
    change ((rangeStep 0 n count).foldlM (quantizeBlock weight n k (groupOf scheme k) cast count) blank >>= fun filled =>
      .ok (⟨filled.packed.read 0 (n * (k / 4)), filled.scales.read 0 (n * (k / groupOf scheme k)), (n, k)⟩ : Quantized)) = _
    rw [looped]
    change Except.ok (⟨last.packed.read 0 (n * (k / 4)), last.scales.read 0 (n * (k / groupOf scheme k)), (n, k)⟩ :
      Quantized) = _
    rw [words, values]
    rfl

/-- A cell of the matrix is at its place in row-major order. -/
theorem cell_place (cols : 0 < k) (row : Nat) {col : Nat} (inside : col < k) :
    (row * k + col) / k = row ∧ (row * k + col) % k = col := by
  rw [Nat.mul_comm, Nat.mul_add_div cols, Nat.mul_add_mod, Nat.div_eq_of_lt inside, Nat.mod_eq_of_lt inside]
  exact ⟨Nat.add_zero row, rfl⟩

/-- A part of the row is at its place among the parts. -/
theorem part_place {part : Nat} (some : 0 < part) (parts : k = k / part * part) (row col : Nat) :
    (row * k + col) / part = row * (k / part) + col / part := by
  conv_lhs => rw [parts, ← Nat.mul_assoc, Nat.mul_comm _ part, Nat.mul_add_div some]

theorem part_lt {part row col : Nat} (some : 0 < part) (parts : k = k / part * part) (rowInside : row < n)
    (inside : col < k) : row * (k / part) + col / part < n * (k / part) := by
  have short : col / part < k / part := by
    rw [Nat.div_lt_iff_lt_mul some, ← parts]
    exact inside
  have next := Nat.mul_le_mul_right (k / part) (Nat.succ_le_of_lt rowInside)
  rw [Nat.succ_mul] at next
  omega

/-- The result is the same for every row block: an error for a row that is too wide, and else a word and a positive
stored scale for each weight, whose lane is a point of the grid that no other point is nearer to the weight than; a group
of zeros gives zeros. -/
theorem quantize_exact (fits : Fits scheme n k) (positive : ∀ scale, 0 < scale → 0 < cast scale) :
    ∃ outcome, (∀ blank rowBlock, 1 ≤ rowBlock → quantize scheme n k weight cast blank rowBlock = outcome) ∧
      (ROW_VALUES < k → outcome = .error (.valueError "matrix row exceeds bounded RTN scratch width")) ∧
      (k ≤ ROW_VALUES → ∃ result, outcome = .ok result ∧ result.weightShape = (n, k) ∧
        ∀ row col, row < n → col < k → ∃ word scale, result.weightPacked[row * (k / 4) + col / 4]? = some word ∧
          result.weightScale[row * (k / groupOf scheme k) + col / groupOf scheme k]? = some scale ∧ 0 < scale ∧
          -127 ≤ (unpackLane word (col % 4) : Int) - 128 ∧ (unpackLane word (col % 4) : Int) - 128 ≤ 127 ∧
          (∀ m : Int, -127 ≤ m ∧ m ≤ 127 →
            |weight row col - ((unpackLane word (col % 4) : Int) - 128 : Int) * scale| ≤ |weight row col - m * scale|) ∧
          ((∀ other, other < k → other / groupOf scheme k = col / groupOf scheme k → weight row other = 0) →
            ((unpackLane word (col % 4) : Int) - 128 : Int) * scale = 0)) := by
  refine ⟨_, fun blank rowBlock requested => quantize_eq fits positive blank requested, fun wide => if_pos wide, ?_⟩
  intro narrow
  refine ⟨quantizedWhole scheme n k weight cast, if_neg (not_lt.mpr narrow), rfl, fun row col rowInside inside => ?_⟩
  have words : k = k / 4 * 4 := (Nat.div_mul_cancel (Nat.dvd_of_mod_eq_zero fits.words)).symm
  have groups : k = k / groupOf scheme k * groupOf scheme k :=
    (Nat.div_mul_cancel (Nat.dvd_of_mod_eq_zero fits.groups)).symm
  have group := part_place fits.group_pos groups row col
  have value : blockValue weight k 0 (row * k + col) = weight row col := by
    obtain ⟨quotient, rest⟩ := cell_place fits.cols row inside
    rw [blockValue, quotient, rest, Nat.zero_add]
  have flat : (row * (k / 4) + col / 4) * 4 + col % 4 = row * k + col := by
    rw [Nat.add_mul, Nat.mul_assoc, ← words, Nat.add_assoc, Nat.div_add_mod']
  have lane : (unpackLane (blockPacked weight k (groupOf scheme k) cast 0 (row * (k / 4) + col / 4)) (col % 4) : Int) -
      128 = blockQuantized weight k (groupOf scheme k) cast 0 (row * k + col) := by
    rw [unpack_blockPacked _ (Nat.mod_lt _ (by decide)), flat]
  have scaled : 0 < blockScale weight k (groupOf scheme k) cast 0
      (row * (k / groupOf scheme k) + col / groupOf scheme k) := blockScale_pos positive _
  have within : -127 ≤ blockQuantized weight k (groupOf scheme k) cast 0 (row * k + col) ∧
    blockQuantized weight k (groupOf scheme k) cast 0 (row * k + col) ≤ 127 := blockQuantized_within _
  refine ⟨blockPacked weight k (groupOf scheme k) cast 0 (row * (k / 4) + col / 4), _, ?_, ?_, scaled, ?_⟩
  · rw [quantizedWhole, List.getElem?_map, List.getElem?_range (part_lt (by decide) words rowInside inside)]
    rfl
  · rw [quantizedWhole, List.getElem?_map, List.getElem?_range (part_lt fits.group_pos groups rowInside inside)]
    rfl
  · rw [lane]
    refine ⟨within.1, within.2, fun m grid => ?_, fun zeros => ?_⟩
    · have nearest := @blockQuantized_nearest weight k (groupOf scheme k) 0 cast (row * k + col)
        (by rw [group]; exact scaled) m grid
      rw [group, value] at nearest
      exact nearest
    · have zero : weight row col = 0 := zeros col inside rfl
      rw [blockQuantized_zero (value.trans zero), Int.cast_zero, zero_mul]

/-- One row of four weights by its channel, with a cast that keeps the scale. -/
theorem quantize_exact_oneRow : ∃ result : Quantized, (∀ blank rowBlock, 1 ≤ rowBlock →
      quantize "per-channel" 1 4 (fun _ col => [-127, 1 / 2, 3 / 2, 127].getD col 0) id blank rowBlock = .ok result) ∧
    ∃ (word : BitVec 32) (scale : ℚ), result.weightPacked[0]? = some word ∧ result.weightScale[0]? = some scale ∧
      ∀ m : Int, -127 ≤ m ∧ m ≤ 127 →
        |(3 / 2 : ℚ) - ((unpackLane word 2 : Int) - 128 : Int) * scale| ≤ |(3 / 2 : ℚ) - m * scale| := by
  have fits : Fits "per-channel" 1 4 := ⟨.inl rfl, by decide, by decide, rfl, by simp [groupOf]⟩
  have narrow : 4 ≤ ROW_VALUES := by decide
  obtain ⟨outcome, same, -, returned⟩ := quantize_exact (n := 1) (k := 4) fits
    (fun scale positive => show 0 < id scale from positive)
  obtain ⟨result, rfl, -, cells⟩ := returned narrow
  obtain ⟨word, scale, packed, stored, -, -, -, nearest, -⟩ := cells 0 2 (by decide) (by decide)
  refine ⟨result, same, word, scale, packed, ?_, nearest⟩
  simpa [groupOf] using stored

end Quantize

end DgxSpark.Repack
