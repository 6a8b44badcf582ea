import DgxSpark.Bench.RepackDenseInt8
import DgxSpark.Library.Json
import DgxSpark.Library.LittleEndian
import DgxSpark.Library.OrderedDict
import Mathlib.Data.List.Sort

/-
This file embeds the safetensors reader and writer of `repack_dense_int8.py`. A file is its bytes; the parser of JSON,
its printer and the hash are any functions.
-/

namespace DgxSpark.Repack
open DgxSpark.Library

variable {F : Type}

def DTYPE_BYTES : List (String × Nat) :=
  [("BF16", 2), ("F16", 2), ("F32", 4), ("F64", 8), ("I8", 1), ("U8", 1), ("I16", 2), ("I32", 4), ("I64", 8), ("BOOL", 1),
    ("F8_E4M3", 1), ("F8_E5M2", 1)]

section Parse

def addPair (result : OrderedDict String (Json F)) (pair : String × Json F) :
    Except Raised (OrderedDict String (Json F)) :=
  if pair.1 ∈ result.keys then .error (.valueError ("duplicate JSON key: " ++ pair.1)) else .ok (result.set pair.1 pair.2)

def uniqueObject (pairs : List (String × Json F)) : Except Raised (OrderedDict String (Json F)) :=
  pairs.foldlM addPair .empty

mutual

/-- `uniqueObject` as the hook of every object of a value, the inner ones first. -/
def hooked : Json F → Except Raised (Json F)
  | .list items => do
      let items ← hookedItems items
      return .list items
  | .object pairs => do
      let pairs ← hookedPairs pairs
      let result ← uniqueObject pairs
      return .object result.entries
  | value => .ok value

def hookedItems : List (Json F) → Except Raised (List (Json F))
  | [] => .ok []
  | item :: rest => do
      let item ← hooked item
      let rest ← hookedItems rest
      return item :: rest

def hookedPairs : List (String × Json F) → Except Raised (List (String × Json F))
  | [] => .ok []
  | (key, value) :: rest => do
      let value ← hooked value
      let rest ← hookedPairs rest
      return (key, value) :: rest

end

/-- `json.loads` with the hook. -/
def loads (parse : List UInt8 → Option (Json F)) (raw : List UInt8) : Except Raised (Json F) :=
  match parse raw with
  | some value => hooked value
  | none => .error .other

end Parse

section Header

/-- A tensor of a file: its name and what the header says of it. -/
abbrev Entry (F : Type) : Type := String × Json F

/-- A tensor with its `data_offsets`. -/
abbrev Located (F : Type) : Type := Entry F × Int × Int

/-- The `data_offsets` that the checks let pass. -/
def offsetsOf (info : Json F) : Option (Int × Int) :=
  match info.field? "data_offsets" with
  | some (.list [.int first, .int last]) => some (first, last)
  | _ => none

/-- What a loop over a value goes through. -/
def iterated : Json F → Option (List (Json F))
  | .list items => some items
  | .str value => some (value.toList.map fun char => .str (String.singleton char))
  | .object fields => some (fields.map fun field => .str field.1)
  | _ => none

def size? : Json F → Option Nat
  | .int n => if 0 ≤ n then some n.toNat else none
  | _ => none

/-- The checks of one tensor; `stop` is where the one before it ends. -/
def checkEntry (stop : Int) (located : Located F) : Except Raised Int :=
  let ((name, info), first, last) := located
  let invalid : Except Raised Int := .error (.valueError ("invalid safetensors tensor: " ++ name))
  match info.field? "shape", info.field? "dtype" with
  | some shape, some (.str dtype) =>
      match DTYPE_BYTES.lookup dtype, iterated shape with
      | none, _ => invalid
      | some _, none => .error .other
      | some width, some items =>
          match items.mapM size? with
          | none => invalid
          | some sizes => if first ≠ stop ∨ last - first ≠ (sizes.prod * width : Nat) then invalid else .ok last
  | some _, some .null => invalid
  | some _, some (.bool _) => invalid
  | some _, some (.int _) => invalid
  | some _, some (.float _) => invalid
  | _, _ => .error .other

/-- `item[1]['data_offsets']` as the key: pairs are compared from the left. -/
def sortOffsets (entries : List (Located F)) : List (Located F) :=
  entries.insertionSort fun first second => toLex first.2 ≤ toLex second.2

def withOffsets (entry : Entry F) : Option (Located F) := (offsetsOf entry.2).map fun offsets => (entry, offsets)

variable (parse : List UInt8 → Option (Json F)) (sha256 : List UInt8 → String)

/-- `header` on the bytes of the file. Where an entry has no pair of whole numbers, the sort or the check of that entry
raises. -/
def header (file : List UInt8) : Except Raised (List (Entry F) × Nat × String) :=
  let lead := file.take 8
  if lead.length ≠ 8 then .error (.valueError "truncated safetensors length")
  else
    let size := LittleEndian.decode lead
    if ¬(2 ≤ size ∧ size ≤ 64 * 1024 ^ 2) then .error (.valueError "safetensors header exceeds bound")
    else
      let raw := (file.drop 8).take size
      if raw.length ≠ size then .error (.valueError "truncated safetensors header")
      else do
        let data ← loads parse raw
        match data.fields? with
        | none => .error .other
        | some fields =>
            let entries := fields.filter fun entry => entry.1 ≠ "__metadata__"
            match entries.mapM withOffsets with
            | none => .error .other
            | some located => do
                let stop ← (sortOffsets located).foldlM checkEntry 0
                if (file.length : Int) ≠ (8 + size : Nat) + stop then
                  .error (.valueError "safetensors payload length mismatch")
                else .ok (entries, 8 + size, sha256 (lead ++ raw))

end Header

section Tensors

inductive TorchDtype where
  | bfloat16
  | float16
  | float32
  | int32
  | int64
  | other (name : String) (elementSize : Nat)
deriving DecidableEq

def TorchDtype.elementSize : TorchDtype → Nat
  | .bfloat16 => 2
  | .float16 => 2
  | .float32 => 4
  | .int32 => 4
  | .int64 => 8
  | .other _ size => size

def dtypeNames : TorchDtype → Option String
  | .bfloat16 => some "BF16"
  | .float16 => some "F16"
  | .float32 => some "F32"
  | .int32 => some "I32"
  | .int64 => some "I64"
  | .other _ _ => none

def dtypes : List (String × TorchDtype) :=
  [("BF16", .bfloat16), ("F16", .float16), ("F32", .float32), ("I32", .int32), ("I64", .int64)]

/-- A tensor, and its bytes in row-major order. -/
structure Tensor where
  dtype : TorchDtype
  shape : List Nat
  cpu : Bool
  contiguous : Bool
  bytes : List UInt8
  sized : bytes.length = shape.prod * dtype.elementSize

/-- The entry of a tensor at an offset of the payload. -/
def infoOf (dtype : String) (tensor : Tensor) (offset : Nat) : Json F :=
  .object [("dtype", .str dtype), ("shape", .list (tensor.shape.map fun n : Nat => .int (n : Int))),
    ("data_offsets", .list [.int offset, .int (offset + tensor.bytes.length : Nat)])]

def addTensor (state : OrderedDict String (Json F) × Nat) (entry : String × Tensor) :
    Except Raised (OrderedDict String (Json F) × Nat) :=
  if entry.2.cpu = false ∨ entry.2.contiguous = false then
    .error (.valueError "writer requires contiguous CPU tensors")
  else
    match dtypeNames entry.2.dtype with
    | none => .error .other
    | some dtype =>
        .ok (state.1.set entry.1 (infoOf dtype entry.2 state.2), state.2 + entry.2.bytes.length)

/-- The bytes of a tensor seen as such: the view needs a dimension, and its cast no empty one. -/
def cellsOf (tensor : Tensor) : Except Raised (List UInt8) :=
  if tensor.shape = [] ∨ 0 ∈ tensor.shape then .error .other else .ok tensor.bytes

/-- `write_tensors` to a new file. -/
def writeTensors (dumps : Json F → List UInt8) (tensors : OrderedDict String Tensor) : Except Raised (List UInt8) := do
  let (metadata, _) ← tensors.entries.foldlM addTensor
    (OrderedDict.empty.set "__metadata__" (.object [("format", .str "pt")]), 0)
  let text := dumps (.object metadata.entries)
  let raw := text ++ List.replicate (-(text.length : Int) % 8).toNat 32
  let payload ← tensors.entries.mapM fun entry => cellsOf entry.2
  return LittleEndian.encode 8 raw.length ++ raw ++ payload.flatten

/-- `load_tensor`; a buffer of no bytes and a shape that is no list are refused. -/
def loadTensor (parse : List UInt8 → Option (Json F)) (sha256 : List UInt8 → String) (file : List UInt8)
    (name : String) : Except Raised (TorchDtype × List Nat × List UInt8) := do
  let (entries, start, _) ← header parse sha256 file
  match entries.lookup name with
  | none => .error .other
  | some info =>
      match info.field? "dtype", offsetsOf info with
      | some (.str code), some (first, last) =>
          match dtypes.lookup code with
          | none => .error (.valueError ("unsupported conversion dtype: " ++ code))
          | some dtype =>
              let raw := (file.drop (start + first.toNat)).take (last - first).toNat
              if raw.length ≠ (last - first).toNat then .error (.valueError "truncated tensor payload")
              else
                match (info.field? "shape").bind Json.items? with
                | none => .error .other
                | some items =>
                    match items.mapM size?, raw with
                    | some _, [] => .error .other
                    | some sizes, _ => .ok (dtype, sizes, raw)
                    | none, _ => .error .other
      | _, _ => .error .other

end Tensors

section Accepted

/-- Ranges that follow each other from a place to another. -/
def Tiled : Int → List (Int × Int) → Int → Prop
  | start, [], stop => start = stop
  | start, range :: rest, stop => range.1 = start ∧ range.1 ≤ range.2 ∧ Tiled range.2 rest stop

theorem Tiled.le {start stop : Int} {ranges : List (Int × Int)} (tiled : Tiled start ranges stop) : start ≤ stop := by
  induction ranges generalizing start with
  | nil => exact le_of_eq tiled
  | cons range rest ih =>
      obtain ⟨rfl, forward, later⟩ := tiled
      exact forward.trans (ih later)

/-- Each of them lies between the two places. -/
theorem Tiled.within {start stop : Int} {ranges : List (Int × Int)} (tiled : Tiled start ranges stop)
    {range : Int × Int} (member : range ∈ ranges) : start ≤ range.1 ∧ range.1 ≤ range.2 ∧ range.2 ≤ stop := by
  induction ranges generalizing start with
  | nil => cases member
  | cons head rest ih =>
      obtain ⟨rfl, forward, later⟩ := tiled
      rcases List.mem_cons.mp member with rfl | among
      · exact ⟨le_rfl, forward, later.le⟩
      · obtain ⟨low, middle, high⟩ := ih later among
        exact ⟨forward.trans low, middle, high⟩

/-- The length that shape and dtype imply. -/
def Implied (info : Json F) (length : Int) : Prop :=
  ∃ code width shape items sizes, info.field? "dtype" = some (.str code) ∧ DTYPE_BYTES.lookup code = some width ∧
    info.field? "shape" = some shape ∧ iterated shape = some items ∧ items.mapM size? = some sizes ∧
    length = (sizes.prod * width : Nat)

theorem checkEntry_ok {stop next : Int} {located : Located F} (passed : checkEntry stop located = .ok next) :
    located.2.1 = stop ∧ next = located.2.2 ∧ Implied located.1.2 (located.2.2 - located.2.1) := by
  obtain ⟨⟨name, info⟩, first, last⟩ := located
  simp only [checkEntry] at passed
  split at passed
  case h_1 shape code shaped typed =>
    split at passed
    case h_1 => cases passed
    case h_2 => cases passed
    case h_3 width items known iterates =>
      split at passed
      case h_1 => cases passed
      case h_2 sizes sized =>
        split at passed
        case isTrue => cases passed
        case isFalse exact =>
          rw [not_or, not_not, not_not] at exact
          cases passed
          exact ⟨exact.1, rfl, code, width, shape, items, sizes, typed, known, shaped, iterates, sized, exact.2⟩
  all_goals cases passed

theorem checkEntries_ok {start stop : Int} {located : List (Located F)}
    (passed : located.foldlM checkEntry start = .ok stop) :
    Tiled start (located.map Prod.snd) stop ∧ ∀ entry ∈ located, Implied entry.1.2 (entry.2.2 - entry.2.1) := by
  induction located generalizing start with
  | nil =>
      cases passed
      exact ⟨rfl, List.forall_mem_nil _⟩
  | cons head rest ih =>
      rw [List.foldlM_cons, bind_ok] at passed
      obtain ⟨middle, here, later⟩ := passed
      obtain ⟨first, rfl, implied⟩ := checkEntry_ok here
      obtain ⟨tiled, others⟩ := ih later
      have forward : head.2.1 ≤ head.2.2 := by
        obtain ⟨_, _, _, _, _, -, -, -, -, -, length⟩ := implied
        omega
      exact ⟨⟨first, forward, tiled⟩, List.forall_mem_cons.mpr ⟨implied, others⟩⟩

theorem sortOffsets_perm (entries : List (Located F)) : (sortOffsets entries).Perm entries := List.perm_insertionSort _ entries

theorem sortOffsets_sorted (entries : List (Located F)) :
    (sortOffsets entries).Pairwise fun first second => toLex first.2 ≤ toLex second.2 := by
  have total : Std.Total fun first second : Located F => toLex first.2 ≤ toLex second.2 :=
    ⟨fun first second => le_total (toLex first.2) (toLex second.2)⟩
  have trans : IsTrans (Located F) fun first second => toLex first.2 ≤ toLex second.2 := ⟨fun _ _ _ => le_trans⟩
  exact List.pairwise_insertionSort _ entries

theorem mapM_withOffsets {entries : List (Entry F)} {located : List (Located F)}
    (found : entries.mapM withOffsets = some located) :
    located.map Prod.fst = entries ∧ ∀ entry ∈ located, offsetsOf entry.1.2 = some entry.2 := by
  induction entries generalizing located with
  | nil =>
      cases found
      exact ⟨rfl, List.forall_mem_nil _⟩
  | cons head rest ih =>
      simp only [List.mapM_cons, Option.bind_eq_bind, Option.bind_eq_some_iff, withOffsets, Option.map_eq_some_iff] at found
      obtain ⟨_, ⟨offsets, here, rfl⟩, others, later, same⟩ := found
      cases same
      obtain ⟨entries, paired⟩ := ih later
      exact ⟨by rw [List.map_cons, entries], List.forall_mem_cons.mpr ⟨here, paired⟩⟩

variable {parse : List UInt8 → Option (Json F)} {sha256 : List UInt8 → String} {file : List UInt8}
  {entries : List (Entry F)} {start : Nat} {digest : String}

/-- An accepted file is its header and then the ranges of its tensors. -/
theorem header_ok (accepted : header parse sha256 file = .ok (entries, start, digest)) :
    ∃ located : List (Located F), ∃ stop : Int, located.map Prod.fst = entries ∧
      (∀ entry ∈ located, offsetsOf entry.1.2 = some entry.2) ∧
      Tiled 0 ((sortOffsets located).map Prod.snd) stop ∧ (file.length : Int) = start + stop ∧
      ∀ entry ∈ sortOffsets located, Implied entry.1.2 (entry.2.2 - entry.2.1) := by
  unfold header at accepted
  dsimp only at accepted
  split at accepted
  · cases accepted
  split at accepted
  · cases accepted
  split at accepted
  · cases accepted
  rw [bind_ok] at accepted
  obtain ⟨data, -, accepted⟩ := accepted
  split at accepted
  · cases accepted
  split at accepted
  · cases accepted
  case h_2 located found =>
    rw [bind_ok] at accepted
    obtain ⟨stop, passed, accepted⟩ := accepted
    split at accepted
    · cases accepted
    case isFalse exact =>
      cases accepted
      obtain ⟨same, paired⟩ := mapM_withOffsets found
      obtain ⟨tiled, implied⟩ := checkEntries_ok passed
      exact ⟨located, stop, same, paired, tiled, not_not.mp exact, implied⟩

end Accepted

section Written

/-- A tensor that the writer takes: of a dtype it has a name for, on the CPU, contiguous, with a dimension and none
empty. -/
structure Tensor.Writable (tensor : Tensor) : Prop where
  cpu : tensor.cpu = true
  contiguous : tensor.contiguous = true
  named : ∃ code, dtypeNames tensor.dtype = some code
  dimension : tensor.shape ≠ []
  nonempty : 0 ∉ tensor.shape

def Tensor.code (tensor : Tensor) : String := (dtypeNames tensor.dtype).getD ""

/-- The entries of tensors one after another. -/
def layout : Nat → List (String × Tensor) → List (Entry F)
  | _, [] => []
  | offset, (name, tensor) :: rest =>
      (name, infoOf tensor.code tensor offset) :: layout (offset + tensor.bytes.length) rest

/-- The header that the writer prints. -/
def metadataOf (tensors : OrderedDict String Tensor) : Json F :=
  .object (("__metadata__", .object [("format", .str "pt")]) :: layout 0 tensors.entries)

def payloadOf (tensors : List (String × Tensor)) : List UInt8 := (tensors.map fun entry => entry.2.bytes).flatten

theorem payloadOf_cons (head : String × Tensor) (rest : List (String × Tensor)) :
    payloadOf (head :: rest) = head.2.bytes ++ payloadOf rest := rfl

theorem layout_names (offset : Nat) (tensors : List (String × Tensor)) :
    (layout offset tensors : List (Entry F)).map Prod.fst = tensors.map Prod.fst := by
  induction tensors generalizing offset with
  | nil => rfl
  | cons head rest ih => rw [layout, List.map_cons, List.map_cons, ih]

theorem addTensors_ok {tensors : List (String × Tensor)} (writable : ∀ entry ∈ tensors, entry.2.Writable)
    (distinct : (tensors.map Prod.fst).Nodup) (dict : OrderedDict String (Json F)) (offset : Nat)
    (fresh : ∀ entry ∈ tensors, entry.1 ∉ dict.keys) :
    ∃ last stop, tensors.foldlM addTensor (dict, offset) = .ok (last, stop) ∧
      last.entries = dict.entries ++ layout offset tensors := by
  induction tensors generalizing dict offset with
  | nil => exact ⟨dict, offset, rfl, (List.append_nil _).symm⟩
  | cons head rest ih =>
      obtain ⟨name, tensor⟩ := head
      obtain ⟨here, others⟩ := List.forall_mem_cons.mp writable
      obtain ⟨absent, apart⟩ := List.nodup_cons.mp distinct
      obtain ⟨new, later⟩ := List.forall_mem_cons.mp fresh
      obtain ⟨code, named⟩ := here.named
      have cpu : tensor.cpu = true := here.cpu
      have contiguous : tensor.contiguous = true := here.contiguous
      have known : dtypeNames tensor.dtype = some code := named
      have added : addTensor (dict, offset) (name, tensor) =
          .ok (dict.set name (infoOf code tensor offset), offset + tensor.bytes.length) := by
        simp [addTensor, cpu, contiguous, known]
      have still : ∀ entry ∈ rest, entry.1 ∉ (dict.set name (infoOf code tensor offset)).keys := by
        intro entry member inside
        rw [OrderedDict.keys, OrderedDict.set_entries_fresh new, List.map_append, List.mem_append] at inside
        rcases inside with old | same
        · exact later entry member old
        · rw [List.map_singleton, List.mem_singleton] at same
          exact absent (List.mem_map.mpr ⟨entry, member, same⟩)
      obtain ⟨last, stop, looped, entries⟩ := ih others apart _ (offset + tensor.bytes.length) still
      refine ⟨last, stop, ?_, ?_⟩
      · rw [List.foldlM_cons, added]
        exact looped
      · rw [entries, OrderedDict.set_entries_fresh new, List.append_assoc, layout, Tensor.code, known]
        rfl

theorem cells_ok {tensors : List (String × Tensor)} (writable : ∀ entry ∈ tensors, entry.2.Writable) :
    tensors.mapM (fun entry => cellsOf entry.2) = .ok (tensors.map fun entry => entry.2.bytes) := by
  induction tensors with
  | nil => rfl
  | cons head rest ih =>
      obtain ⟨here, others⟩ := List.forall_mem_cons.mp writable
      have cells : cellsOf head.2 = .ok head.2.bytes :=
        if_neg fun bad => bad.elim here.dimension here.nonempty
      rw [List.mapM_cons, cells, ih others]
      rfl

section Loaded

/-- Pairs of distinct keys are kept as they are. -/
theorem addPairs_ok {pairs : List (String × Json F)} (distinct : (pairs.map Prod.fst).Nodup)
    (dict : OrderedDict String (Json F)) (fresh : ∀ pair ∈ pairs, pair.1 ∉ dict.keys) :
    ∃ last, pairs.foldlM addPair dict = .ok last ∧ last.entries = dict.entries ++ pairs := by
  induction pairs generalizing dict with
  | nil => exact ⟨dict, rfl, (List.append_nil _).symm⟩
  | cons head rest ih =>
      obtain ⟨absent, apart⟩ := List.nodup_cons.mp distinct
      obtain ⟨new, later⟩ := List.forall_mem_cons.mp fresh
      have still : ∀ pair ∈ rest, pair.1 ∉ (dict.set head.1 head.2).keys := by
        intro pair member inside
        rw [OrderedDict.keys, OrderedDict.set_entries_fresh new, List.map_append, List.mem_append] at inside
        rcases inside with old | same
        · exact later pair member old
        · rw [List.map_singleton, List.mem_singleton] at same
          exact absent (List.mem_map.mpr ⟨pair, member, same⟩)
      obtain ⟨last, looped, entries⟩ := ih apart _ still
      refine ⟨last, ?_, ?_⟩
      · rw [List.foldlM_cons, addPair, if_neg new]
        exact looped
      · rw [entries, OrderedDict.set_entries_fresh new, List.append_assoc]
        rfl

theorem uniqueObject_ok {pairs : List (String × Json F)} (distinct : (pairs.map Prod.fst).Nodup) :
    ∃ dict, uniqueObject pairs = .ok dict ∧ dict.entries = pairs :=
  addPairs_ok distinct .empty fun _ _ member => absurd member List.not_mem_nil

theorem hookedPairs_ok {pairs : List (String × Json F)} (each : ∀ pair ∈ pairs, hooked pair.2 = .ok pair.2) :
    hookedPairs pairs = .ok pairs := by
  induction pairs with
  | nil => rfl
  | cons head rest ih =>
      obtain ⟨here, others⟩ := List.forall_mem_cons.mp each
      rw [hookedPairs, here, ih others]
      rfl

theorem hookedItems_ok {items : List (Json F)} (each : ∀ item ∈ items, hooked item = .ok item) :
    hookedItems items = .ok items := by
  induction items with
  | nil => rfl
  | cons head rest ih =>
      obtain ⟨here, others⟩ := List.forall_mem_cons.mp each
      rw [hookedItems, here, ih others]
      rfl

theorem hooked_object {pairs : List (String × Json F)} (distinct : (pairs.map Prod.fst).Nodup)
    (each : ∀ pair ∈ pairs, hooked pair.2 = .ok pair.2) : hooked (.object pairs) = .ok (.object pairs) := by
  obtain ⟨dict, unique, entries⟩ := uniqueObject_ok distinct
  rw [hooked, hookedPairs_ok each]
  change (uniqueObject pairs >>= fun result => pure (Json.object result.entries)) = _
  rw [unique]
  change Except.ok (Json.object dict.entries) = _
  rw [entries]

theorem hooked_list {items : List (Json F)} (each : ∀ item ∈ items, hooked item = .ok item) :
    hooked (.list items) = .ok (.list items) := by
  rw [hooked, hookedItems_ok each]
  rfl

theorem hooked_infoOf (code : String) (tensor : Tensor) (offset : Nat) :
    hooked (infoOf code tensor offset : Json F) = .ok (infoOf code tensor offset) := by
  refine hooked_object (by simp) ?_
  simp only [List.forall_mem_cons]
  refine ⟨by simp [hooked], hooked_list ?_, hooked_list ?_, List.forall_mem_nil _⟩
  · intro item member
    obtain ⟨n, -, rfl⟩ := List.mem_map.mp member
    simp [hooked]
  · simp [hooked]

theorem hooked_layout (offset : Nat) (tensors : List (String × Tensor)) :
    ∀ entry ∈ (layout offset tensors : List (Entry F)), hooked entry.2 = .ok entry.2 := by
  induction tensors generalizing offset with
  | nil => exact List.forall_mem_nil _
  | cons head rest ih => exact List.forall_mem_cons.mpr ⟨hooked_infoOf _ _ _, ih _⟩

theorem hooked_metadata {tensors : OrderedDict String Tensor} (reserved : "__metadata__" ∉ tensors.keys) :
    hooked (metadataOf tensors : Json F) = .ok (metadataOf tensors) := by
  refine hooked_object ?_ (List.forall_mem_cons.mpr ⟨?_, hooked_layout 0 _⟩)
  · rw [List.map_cons, layout_names]
    exact List.nodup_cons.mpr ⟨reserved, tensors.nodup⟩
  · exact hooked_object (by simp) (by simp [hooked])

end Loaded

/-- The entries of tensors one after another, with their offsets. -/
def placed : Nat → List (String × Tensor) → List (Located F)
  | _, [] => []
  | offset, (name, tensor) :: rest =>
      ((name, infoOf tensor.code tensor offset), offset, (offset + tensor.bytes.length : Nat)) ::
        placed (offset + tensor.bytes.length) rest

@[simp] theorem infoOf_dtype (code : String) (tensor : Tensor) (offset : Nat) :
    (infoOf code tensor offset : Json F).field? "dtype" = some (.str code) := by
  simp [infoOf, Json.field?, Json.fields?]

@[simp] theorem infoOf_shape (code : String) (tensor : Tensor) (offset : Nat) :
    (infoOf code tensor offset : Json F).field? "shape" =
      some (.list (tensor.shape.map fun n : Nat => .int (n : Int))) := by
  simp [infoOf, Json.field?, Json.fields?, List.lookup_cons]

@[simp] theorem infoOf_offsets (code : String) (tensor : Tensor) (offset : Nat) :
    offsetsOf (infoOf code tensor offset : Json F) = some ((offset : Int), ((offset + tensor.bytes.length : Nat) : Int)) := by
  simp [offsetsOf, infoOf, Json.field?, Json.fields?, List.lookup_cons]

theorem withOffsets_layout (offset : Nat) (tensors : List (String × Tensor)) :
    (layout offset tensors : List (Entry F)).mapM withOffsets = some (placed offset tensors) := by
  induction tensors generalizing offset with
  | nil => rfl
  | cons head rest ih =>
      rw [layout, List.mapM_cons, withOffsets, infoOf_offsets, ih]
      rfl

theorem Tensor.Writable.bytes_pos {tensor : Tensor} (writable : tensor.Writable) : 0 < tensor.bytes.length := by
  obtain ⟨code, named⟩ := writable.named
  have size : 0 < tensor.dtype.elementSize := by
    cases dtype : tensor.dtype with
    | other name size =>
        rw [dtype] at named
        cases named
    | _ => decide
  rw [tensor.sized]
  exact Nat.mul_pos (Nat.pos_of_ne_zero (List.prod_ne_zero writable.nonempty)) size

/-- The reader knows the names that the writer gives. -/
theorem Tensor.Writable.code_known {tensor : Tensor} (writable : tensor.Writable) :
    DTYPE_BYTES.lookup tensor.code = some tensor.dtype.elementSize ∧ dtypes.lookup tensor.code = some tensor.dtype := by
  obtain ⟨code, named⟩ := writable.named
  rw [Tensor.code]
  cases dtype : tensor.dtype with
  | other name size =>
      rw [dtype] at named
      cases named
  | _ => exact ⟨by decide, by decide⟩

theorem sizes_shape (shape : List Nat) :
    (shape.map fun n : Nat => (.int (n : Int) : Json F)).mapM size? = some shape := by
  induction shape with
  | nil => rfl
  | cons n rest ih =>
      rw [List.map_cons, List.mapM_cons, ih, size?, if_pos (Int.natCast_nonneg n), Int.toNat_natCast]
      rfl

theorem placed_sorted {tensors : List (String × Tensor)} (writable : ∀ entry ∈ tensors, entry.2.Writable) (offset : Nat) :
    (placed offset tensors : List (Located F)).Pairwise (fun first second => toLex first.2 ≤ toLex second.2) ∧
      ∀ located ∈ (placed offset tensors : List (Located F)), (offset : Int) ≤ located.2.1 := by
  induction tensors generalizing offset with
  | nil => exact ⟨List.Pairwise.nil, List.forall_mem_nil _⟩
  | cons head rest ih =>
      obtain ⟨here, others⟩ := List.forall_mem_cons.mp writable
      have some := here.bytes_pos
      obtain ⟨sorted, later⟩ := ih others (offset + head.2.bytes.length)
      refine ⟨List.pairwise_cons.mpr ⟨fun located member => ?_, sorted⟩, List.forall_mem_cons.mpr ⟨le_rfl, ?_⟩⟩
      · have after := later located member
        rw [Prod.Lex.toLex_le_toLex]
        left
        push_cast at after
        change (offset : Int) < located.2.1
        omega
      · intro located member
        have after := later located member
        push_cast at after
        omega

/-- The written entries pass the checks. -/
theorem checkEntries_placed {tensors : List (String × Tensor)} (writable : ∀ entry ∈ tensors, entry.2.Writable)
    (offset : Nat) : (placed offset tensors : List (Located F)).foldlM checkEntry (offset : Int) =
      .ok ((offset + (payloadOf tensors).length : Nat) : Int) := by
  induction tensors generalizing offset with
  | nil => rfl
  | cons head rest ih =>
      obtain ⟨here, others⟩ := List.forall_mem_cons.mp writable
      have known := here.code_known.1
      have length : ((offset + head.2.bytes.length : Nat) : Int) - offset =
          (head.2.shape.prod * head.2.dtype.elementSize : Nat) := by
        rw [← head.2.sized]
        omega
      have passed : checkEntry (offset : Int) (((head.1, infoOf head.2.code head.2 offset), (offset : Int),
          ((offset + head.2.bytes.length : Nat) : Int)) : Located F) = .ok ((offset + head.2.bytes.length : Nat) : Int) := by
        simp only [checkEntry, infoOf_shape, infoOf_dtype, known, iterated, sizes_shape, length, ne_eq, not_true_eq_false,
          or_self, if_false]
      rw [placed, List.foldlM_cons, passed]
      change (placed (offset + head.2.bytes.length) rest).foldlM checkEntry _ = _
      rw [ih others, payloadOf_cons, List.length_append, Nat.add_assoc]

/-- A tensor is found in the layout, and its bytes at its offset of the payload. -/
theorem layout_lookup {tensors : List (String × Tensor)} {name : String} {tensor : Tensor} (offset : Nat)
    (found : tensors.lookup name = some tensor) :
    ∃ place, (layout offset tensors : List (Entry F)).lookup name = some (infoOf tensor.code tensor (offset + place)) ∧
      ((payloadOf tensors).drop place).take tensor.bytes.length = tensor.bytes := by
  induction tensors generalizing offset with
  | nil => cases found
  | cons head rest ih =>
      obtain ⟨other, first⟩ := head
      rw [List.lookup_cons] at found
      rw [layout, List.lookup_cons, payloadOf_cons]
      split at found
      case h_1 =>
        cases found
        exact ⟨0, rfl, by simp⟩
      case h_2 =>
        obtain ⟨place, entry, bytes⟩ := ih (offset + first.bytes.length) found
        refine ⟨first.bytes.length + place, ?_, ?_⟩
        · rw [entry, Nat.add_assoc]
        · rw [List.drop_append, List.drop_eq_nil_of_le (Nat.le_add_right _ _), List.nil_append, Nat.add_sub_cancel_left]
          exact bytes

variable {parse : List UInt8 → Option (Json F)} {dumps : Json F → List UInt8} {sha256 : List UInt8 → String}
  {tensors : OrderedDict String Tensor}

/-- The printed header with its padding. -/
def paddedHeader (dumps : Json F → List UInt8) (tensors : OrderedDict String Tensor) : List UInt8 :=
  let text := dumps (metadataOf tensors)
  text ++ List.replicate (-(text.length : Int) % 8).toNat 32

theorem writeTensors_ok (writable : ∀ entry ∈ tensors.entries, entry.2.Writable)
    (reserved : "__metadata__" ∉ tensors.keys) : writeTensors dumps tensors =
      .ok (LittleEndian.encode 8 (paddedHeader dumps tensors).length ++ paddedHeader dumps tensors ++
        payloadOf tensors.entries) := by
  have fresh : ∀ entry ∈ tensors.entries, entry.1 ∉
      ((OrderedDict.empty : OrderedDict String (Json F)).set "__metadata__" (.object [("format", .str "pt")])).keys := by
    intro entry member inside
    have same : entry.1 = "__metadata__" := List.mem_singleton.mp inside
    exact reserved (List.mem_map.mpr ⟨entry, member, same⟩)
  obtain ⟨metadata, stop, looped, entries⟩ := addTensors_ok writable tensors.nodup _ 0 fresh
  have printed : (Json.object metadata.entries : Json F) = metadataOf tensors := by
    rw [entries]
    rfl
  rw [writeTensors, looped]
  change (tensors.entries.mapM (fun entry => cellsOf entry.2) >>= fun payload => _) = _
  rw [cells_ok writable, printed]
  rfl

/-- The header of a written file is accepted, with the layout as its entries. -/
theorem header_written (writable : ∀ entry ∈ tensors.entries, entry.2.Writable)
    (reserved : "__metadata__" ∉ tensors.keys)
    (inverts : parse (paddedHeader dumps tensors) = some (metadataOf tensors))
    (bounded : 2 ≤ (paddedHeader dumps tensors).length ∧ (paddedHeader dumps tensors).length ≤ 64 * 1024 ^ 2) :
    header parse sha256 (LittleEndian.encode 8 (paddedHeader dumps tensors).length ++ paddedHeader dumps tensors ++
        payloadOf tensors.entries) =
      .ok (layout 0 tensors.entries, 8 + (paddedHeader dumps tensors).length,
        sha256 (LittleEndian.encode 8 (paddedHeader dumps tensors).length ++ paddedHeader dumps tensors)) := by
  have fits : (paddedHeader dumps tensors).length < 256 ^ 8 := lt_of_le_of_lt bounded.2 (by norm_num)
  have decoded := LittleEndian.decode_encode fits
  have loaded : loads parse (paddedHeader dumps tensors) = .ok (metadataOf tensors) := by
    rw [loads, inverts]
    exact hooked_metadata reserved
  generalize paddedHeader dumps tensors = raw at bounded decoded loaded ⊢
  have lead : (LittleEndian.encode 8 raw.length ++ raw ++ payloadOf tensors.entries).take 8 =
      LittleEndian.encode 8 raw.length := by
    rw [List.append_assoc, List.take_left' (LittleEndian.encode_length 8 raw.length)]
  have middle : ((LittleEndian.encode 8 raw.length ++ raw ++ payloadOf tensors.entries).drop 8).take raw.length = raw := by
    rw [List.append_assoc, List.drop_left' (LittleEndian.encode_length 8 raw.length), List.take_left' rfl]
  have names : (("__metadata__", Json.object [("format", .str "pt")]) :: layout 0 tensors.entries : List (Entry F)).filter
      (fun entry => entry.1 ≠ "__metadata__") = layout 0 tensors.entries := by
    rw [List.filter_cons_of_neg (by simp), List.filter_eq_self]
    intro entry member
    have named : entry.1 ∈ tensors.keys := by
      rw [OrderedDict.keys, ← layout_names 0]
      exact List.mem_map_of_mem member
    exact decide_eq_true fun same : entry.1 = "__metadata__" => reserved (same ▸ named)
  have sorted : sortOffsets (placed 0 tensors.entries : List (Located F)) = placed 0 tensors.entries :=
    (placed_sorted writable 0).1.insertionSort_eq
  have passed : (placed 0 tensors.entries : List (Located F)).foldlM checkEntry (0 : Int) =
      .ok ((0 + (payloadOf tensors.entries).length : Nat) : Int) := checkEntries_placed writable 0
  have length : ((LittleEndian.encode 8 raw.length ++ raw ++ payloadOf tensors.entries).length : Int) =
      (8 + raw.length : Nat) + ((0 + (payloadOf tensors.entries).length : Nat) : Int) := by
    rw [List.length_append, List.length_append, LittleEndian.encode_length]
    push_cast
    omega
  simp only [header, lead, LittleEndian.encode_length, decoded, middle, bounded, and_self, not_true_eq_false, ne_eq,
    if_false, loaded, ok_bind, metadataOf, Json.fields?, names, withOffsets_layout, sorted, passed, length]

/-- Each tensor of a written file is read back. -/
theorem loadTensor_written (writable : ∀ entry ∈ tensors.entries, entry.2.Writable)
    (reserved : "__metadata__" ∉ tensors.keys)
    (inverts : parse (paddedHeader dumps tensors) = some (metadataOf tensors))
    (bounded : 2 ≤ (paddedHeader dumps tensors).length ∧ (paddedHeader dumps tensors).length ≤ 64 * 1024 ^ 2)
    {name : String} {tensor : Tensor} (found : tensors.get? name = some tensor) :
    loadTensor parse sha256 (LittleEndian.encode 8 (paddedHeader dumps tensors).length ++ paddedHeader dumps tensors ++
      payloadOf tensors.entries) name = .ok (tensor.dtype, tensor.shape, tensor.bytes) := by
  have here := writable _ (OrderedDict.mem_of_get? found)
  have known : dtypes.lookup tensor.code = some tensor.dtype := here.code_known.2
  have some := here.bytes_pos
  obtain ⟨place, entry, bytes⟩ := layout_lookup (F := F) 0 found
  rw [Nat.zero_add] at entry
  have front : (LittleEndian.encode 8 (paddedHeader dumps tensors).length ++ paddedHeader dumps tensors).length =
      8 + (paddedHeader dumps tensors).length := by
    rw [List.length_append, LittleEndian.encode_length]
  have raw : ((LittleEndian.encode 8 (paddedHeader dumps tensors).length ++ paddedHeader dumps tensors ++
      payloadOf tensors.entries).drop (8 + (paddedHeader dumps tensors).length + place)).take tensor.bytes.length =
        tensor.bytes := by
    rw [← List.drop_drop, List.drop_left' front]
    exact bytes
  have count : (((place + tensor.bytes.length : Nat) : Int) - (place : Int)).toNat = tensor.bytes.length := by omega
  simp only [loadTensor, header_written writable reserved inverts bounded, ok_bind, entry, infoOf_dtype, infoOf_offsets,
    known, Int.toNat_natCast, count, raw, ne_eq, not_true_eq_false, if_false, infoOf_shape, Option.bind_some, Json.items?,
    sizes_shape]
  cases filled : tensor.bytes with
  | nil =>
      rw [filled] at some
      cases some
  | cons first rest => rfl

end Written

section Files

variable {parse : List UInt8 → Option (Json F)} {sha256 : List UInt8 → String} {file raw : List UInt8}
  {entries : List (Entry F)} {start : Nat} {digest : String}

/-- The hook leaves no key twice. -/
theorem loads_distinct {data : Json F} {fields : List (Entry F)} (loaded : loads parse raw = .ok data)
    (object : data.fields? = some fields) : (fields.map Prod.fst).Nodup := by
  rw [loads] at loaded
  split at loaded
  case h_2 => cases loaded
  case h_1 value parsed =>
    cases value with
    | object pairs =>
        rw [hooked, bind_ok] at loaded
        obtain ⟨pairs, -, loaded⟩ := loaded
        rw [bind_ok] at loaded
        obtain ⟨result, -, same⟩ := loaded
        cases same
        cases object
        exact result.nodup
    | list items =>
        rw [hooked, bind_ok] at loaded
        obtain ⟨items, -, same⟩ := loaded
        cases same
        cases object
    | _ =>
        cases loaded
        cases object

theorem header_distinct (accepted : header parse sha256 file = .ok (entries, start, digest)) :
    (entries.map Prod.fst).Nodup := by
  unfold header at accepted
  dsimp only at accepted
  split at accepted
  · cases accepted
  split at accepted
  · cases accepted
  split at accepted
  · cases accepted
  rw [bind_ok] at accepted
  obtain ⟨data, loaded, accepted⟩ := accepted
  split at accepted
  · cases accepted
  case h_2 fields object =>
    split at accepted
    · cases accepted
    rw [bind_ok] at accepted
    obtain ⟨stop, -, accepted⟩ := accepted
    split at accepted
    · cases accepted
    · cases accepted
      exact (loads_distinct loaded object).sublist (List.filter_sublist.map Prod.fst)

/-- What is loaded are the bytes between the offsets. -/
theorem loadTensor_ok (accepted : header parse sha256 file = .ok (entries, start, digest)) {name : String}
    {loaded : TorchDtype × List Nat × List UInt8} (returned : loadTensor parse sha256 file name = .ok loaded) :
    ∃ info first last, entries.lookup name = some info ∧ offsetsOf info = some (first, last) ∧
      loaded.2.2 = (file.drop (start + first.toNat)).take (last - first).toNat := by
  rw [loadTensor, accepted, ok_bind] at returned
  dsimp only at returned
  split at returned
  · cases returned
  case h_2 info found =>
    split at returned
    case h_2 => cases returned
    case h_1 code first last typed offsets =>
      split at returned
      · cases returned
      split at returned
      · cases returned
      split at returned
      · cases returned
      split at returned
      · cases returned
      · cases returned
        exact ⟨info, first, last, found, offsets, rfl⟩
      · cases returned

/-- A written file is accepted and gives every tensor back. In an accepted file the entries, sorted by their offsets, are
ranges from 0 to the end of the file that follow each other and have the lengths that shape and dtype imply; what is
loaded of an entry are the bytes of its range. -/
theorem tensor_files (parse : List UInt8 → Option (Json F)) (dumps : Json F → List UInt8) (sha256 : List UInt8 → String) :
    (∀ tensors : OrderedDict String Tensor, (∀ entry ∈ tensors.entries, entry.2.Writable) →
      "__metadata__" ∉ tensors.keys → parse (paddedHeader dumps tensors) = some (metadataOf tensors) →
      2 ≤ (paddedHeader dumps tensors).length → (paddedHeader dumps tensors).length ≤ 64 * 1024 ^ 2 →
      ∃ file, writeTensors dumps tensors = .ok file ∧ (∃ accepted, header parse sha256 file = .ok accepted) ∧
        ∀ name tensor, tensors.get? name = some tensor →
          loadTensor parse sha256 file name = .ok (tensor.dtype, tensor.shape, tensor.bytes)) ∧
    ∀ file entries start digest, header parse sha256 file = .ok (entries, start, digest) →
      ∃ sorted : List (Located F), (sorted.map Prod.fst).Perm entries ∧
        (∀ located ∈ sorted, offsetsOf located.1.2 = some located.2) ∧
        sorted.Pairwise (fun first second => toLex first.2 ≤ toLex second.2) ∧
        Tiled 0 (sorted.map Prod.snd) ((file.length : Int) - start) ∧
        (∀ located ∈ sorted, Implied located.1.2 (located.2.2 - located.2.1)) ∧
        ∀ entry ∈ entries, ∃ first last, offsetsOf entry.2 = some (first, last) ∧ 0 ≤ first ∧ first ≤ last ∧
          start + last ≤ file.length ∧ ∀ loaded, loadTensor parse sha256 file entry.1 = .ok loaded →
            loaded.2.2 = (file.drop (start + first.toNat)).take (last - first).toNat := by
  constructor
  · intro tensors writable reserved inverts low high
    refine ⟨_, writeTensors_ok writable reserved, ⟨_, header_written writable reserved inverts ⟨low, high⟩⟩, ?_⟩
    intro name tensor found
    exact loadTensor_written writable reserved inverts ⟨low, high⟩ found
  · intro file entries start digest accepted
    obtain ⟨located, stop, same, paired, tiled, length, implied⟩ := header_ok accepted
    have order := sortOffsets_perm located
    have payload : (file.length : Int) - start = stop := by omega
    rw [payload]
    refine ⟨sortOffsets located, same ▸ order.map Prod.fst, fun entry member => paired entry (order.mem_iff.mp member),
      sortOffsets_sorted located, tiled, implied, fun entry member => ?_⟩
    rw [← same] at member
    obtain ⟨⟨found, first, last⟩, among, rfl⟩ := List.mem_map.mp member
    have range : 0 ≤ first ∧ first ≤ last ∧ last ≤ stop :=
      tiled.within (List.mem_map_of_mem (order.mem_iff.mpr among))
    have offsets : offsetsOf found.2 = some (first, last) := paired _ among
    refine ⟨first, last, offsets, range.1, range.2.1, by omega, fun loaded returned => ?_⟩
    obtain ⟨info, low, high, looked, between, bytes⟩ := loadTensor_ok accepted returned
    have listed : (found.1, found.2) ∈ entries := same ▸ member
    rw [OrderedDict.lookup_of_mem (header_distinct accepted) listed] at looked
    cases looked
    rw [offsets] at between
    cases between
    exact bytes

/-- The text of a header with one tensor `w`. -/
def oneText : List UInt8 :=
  [123, 34, 95, 95, 109, 101, 116, 97, 100, 97, 116, 97, 95, 95, 34, 58, 123, 34, 102, 111, 114, 109, 97, 116,
    34, 58, 34, 112, 116, 34, 125, 44, 34, 119, 34, 58, 123, 34, 100, 116, 121, 112, 101, 34, 58, 34, 73, 51,
    50, 34, 44, 34, 115, 104, 97, 112, 101, 34, 58, 91, 49, 93, 44, 34, 100, 97, 116, 97, 95, 111, 102, 102,
    115, 101, 116, 115, 34, 58, 91, 48, 44, 52, 93, 125, 125]

def oneTensor : OrderedDict String Tensor := OrderedDict.empty.set "w" ⟨.int32, [1], true, true, [1, 2, 3, 4], rfl⟩

/-- A parser that reads that header. -/
def oneParse (raw : List UInt8) : Option (Json Nat) :=
  if raw = paddedHeader (F := Nat) (fun _ => oneText) oneTensor then some (metadataOf oneTensor) else none

theorem tensor_files_oneTensor : ∃ file, writeTensors (F := Nat) (fun _ => oneText) oneTensor = .ok file ∧
    loadTensor oneParse (fun _ => "") file "w" = .ok (.int32, [1], [1, 2, 3, 4]) := by
  have writable : ∀ entry ∈ oneTensor.entries, entry.2.Writable := by
    intro entry member
    rw [List.mem_singleton.mp member]
    exact ⟨rfl, rfl, ⟨"I32", rfl⟩, by simp, by simp⟩
  have length : (paddedHeader (F := Nat) (fun _ => oneText) oneTensor).length = 88 := by decide +kernel
  obtain ⟨file, written, -, reads⟩ := (tensor_files oneParse (fun _ => oneText) (fun _ => "")).1 oneTensor writable
    (by decide) (if_pos rfl) (by rw [length]; decide) (by rw [length]; decide)
  exact ⟨file, written, reads "w" _ (OrderedDict.get?_set_self _ _ _)⟩

end Files

end DgxSpark.Repack
