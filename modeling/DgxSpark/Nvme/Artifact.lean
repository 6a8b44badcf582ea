import DgxSpark.Library.Run

/-
This file embeds `publish` and `inspect` of `spark_nvme/artifact.py`. The JSON values of a manifest are
compared as values; its digests are parameters.
-/

namespace DgxSpark.Nvme

/-- `ALIGN` of `transport.py`. -/
def ALIGN : Nat := 4096

def align (n : Int) : Int := (n + ALIGN - 1) / ALIGN * ALIGN

/-- The same for a length. -/
def alignNat (n : Nat) : Nat := (n + ALIGN - 1) / ALIGN * ALIGN

theorem align_natCast (n : Nat) : align n = alignNat n := by
  simp only [align, alignNat, ALIGN]
  omega

theorem le_alignNat (n : Nat) : n ≤ alignNat n := by
  simp only [alignNat, ALIGN]
  omega

theorem alignNat_lt (n : Nat) : alignNat n < n + ALIGN := by
  simp only [alignNat, ALIGN]
  omega

theorem dvd_alignNat (n : Nat) : ALIGN ∣ alignNat n := Dvd.intro_left _ rfl

/-- The starts of `range(0, total, step)`. -/
def starts (total step : Nat) : List Nat := (List.range ((total + step - 1) / step)).map (· * step)

structure Chunk where
  storage : Int
  start : Int
  length : Int
  offset : Int
  sha256 : String
deriving DecidableEq

/-- A manifest without its `artifact_id`. -/
structure Manifest (Contract Schema State : Type) where
  version : Int
  phase : String
  contract : Contract
  schema : Schema
  chunkBytes : Int
  chunks : List Chunk
  storageBytes : List Int
  loaderState : State
  fileBytes : Int

/-- A published directory: the manifest, the id written into it, and the bytes of `weights.bin`. -/
structure Artifact (Contract Schema State : Type) where
  manifest : Manifest Contract Schema State
  artifactId : String
  weights : List UInt8

/-- What `inventory` finds of a model: its schema and the bytes of its storages. -/
structure Inventory (Schema : Type) where
  schema : Schema
  storages : List (List UInt8)

inductive ArtifactError where
  | fileExists
  | value (text : String)
  | os (text : String)
deriving DecidableEq

/-- How many bytes a write of so many bytes at a position of the file takes; nothing where it raises. -/
abbrev Writes := Nat → Nat → Option Nat

/-- A write takes at least one byte, and no more than it is given. -/
def Writes.Legal (writes : Writes) : Prop :=
  ∀ position length taken, writes position length = some taken → taken ≤ length ∧ (0 < length → 0 < taken)

def artifactVersion : Int := 1

def artifactPhase : String := "before-native-postprocess"

section Publish

variable (writes : Writes)

/-- The loop over the short writes of a chunk. -/
def writeAll (file view : List UInt8) : Except ArtifactError (List UInt8) :=
  if view = [] then .ok file
  else
    match writes file.length view.length with
    | none => .error (.os "write")
    | some 0 => .error (.os "zero-length artifact write")
    | some (taken + 1) => writeAll (file ++ view.take (taken + 1)) (view.drop (taken + 1))
  termination_by view.length
  decreasing_by
    rename_i nonempty
    have := List.length_pos_iff.mpr nonempty
    rw [List.length_drop]
    omega

/-- One call of `f.write`. -/
def writeOnce (file data : List UInt8) : Except ArtifactError (List UInt8) :=
  match writes file.length data.length with
  | none => .error (.os "write")
  | some taken => .ok (file ++ data.take taken)

variable (sha256 : List UInt8 → String)

/-- What `publish` writes for a piece of a storage: its bytes, then the padding in one call. -/
def publishChunk (state : List UInt8 × List Chunk) (piece : Nat × Nat × List UInt8) :
    Except ArtifactError (List UInt8 × List Chunk) := do
  let (storage, start, data) := piece
  let n := data.length
  let chunk : Chunk := ⟨storage, start, n, state.1.length, sha256 data⟩
  let file ← writeAll writes state.1 data
  let file ← writeOnce writes file (List.replicate (alignNat n - n) 0)
  pure (file, state.2 ++ [chunk])

/-- The pieces in the order of the two loops. -/
def pieces (storages : List (List UInt8)) (chunkBytes : Nat) : List (Nat × Nat × List UInt8) :=
  storages.zipIdx.flatMap fun (raw, storage) =>
    (starts raw.length chunkBytes).map fun start => (storage, start, (raw.drop start).take chunkBytes)

variable {Contract Schema State : Type} [DecidableEq Schema]
variable (digest : Manifest Contract Schema State → String)

def publish (present : Bool) (inventory : Inventory Schema) (expectedSchema : Option Schema) (contract : Contract)
    (chunkBytes : Int) (loaderState : State) : Except ArtifactError (Artifact Contract Schema State) := do
  if present then throw .fileExists
  if ∃ expected, expectedSchema = some expected ∧ inventory.schema ≠ expected then
    throw (.value "native load changed tensor schema; requires a model adapter")
  if chunkBytes ≤ 0 ∨ chunkBytes % 4096 ≠ 0 then throw (.value "invalid chunk size")
  let (file, chunks) ← (pieces inventory.storages chunkBytes.toNat).foldlM (publishChunk writes sha256) ([], [])
  let manifest : Manifest Contract Schema State := {
    version := artifactVersion
    phase := artifactPhase
    contract := contract
    schema := inventory.schema
    chunkBytes := chunkBytes
    chunks := chunks
    storageBytes := inventory.storages.map fun raw => raw.length
    loaderState := loaderState
    fileBytes := file.length }
  pure ⟨manifest, digest manifest, file⟩

end Publish

section Inspect

/-- The coverage loop: a cursor for each storage and one for the file. -/
def checkChunk (chunkBytes : Int) (state : List Int × Int) (chunk : Chunk) :
    Except ArtifactError (List Int × Int) :=
  if chunk.storage < 0 ∨ state.1[chunk.storage.toNat]? ≠ some chunk.start then
    .error (.value "invalid/overlapping artifact storage extent")
  else if ¬(0 < chunk.length ∧ chunk.length ≤ chunkBytes) ∨ chunk.offset ≠ state.2 then
    .error (.value "invalid artifact file extent")
  else .ok (state.1.set chunk.storage.toNat (chunk.start + chunk.length), state.2 + align chunk.length)

variable {Contract Schema State : Type} [DecidableEq Contract]
variable (digest : Manifest Contract Schema State → String)

/-- `inspect` returns the manifest; the id stands beside it. -/
def inspect (artifact : Artifact Contract Schema State) (contract : Contract) :
    Except ArtifactError (Manifest Contract Schema State) := do
  let m := artifact.manifest
  if digest m ≠ artifact.artifactId then throw (.value "manifest checksum mismatch")
  if m.version ≠ artifactVersion ∨ m.phase ≠ artifactPhase then throw (.value "unsupported artifact format")
  if m.contract ≠ contract then throw (.value "artifact runtime/model/topology contract mismatch")
  if (artifact.weights.length : Int) ≠ m.fileBytes then throw (.value "artifact file size mismatch")
  let (cursors, fileCursor) ← m.chunks.foldlM (checkChunk m.chunkBytes) (m.storageBytes.map fun _ => 0, 0)
  if cursors ≠ m.storageBytes ∨ fileCursor ≠ m.fileBytes then throw (.value "incomplete artifact coverage")
  pure m

end Inspect

end DgxSpark.Nvme
