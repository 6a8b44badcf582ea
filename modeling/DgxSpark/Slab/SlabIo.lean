import Mathlib.Tactic
import DgxSpark.Library.Medium
import DgxSpark.Slab.Header

/-
This file models the slot-level I/O of one rank: the order of the writes of a slot, the checks of
a read, and the scans over the headers. The replies are the byte counts that the successive
`pread`, `pwrite`, `pwritev` and `preadv` calls return; a call without a reply fails.
-/

namespace DgxSpark.Slab

open LittleEndian Crc32

/-- `_drain_iov` drops the first `count` bytes from a list of buffers. -/
def drainIov {Item : Type} : List (List Item) → Nat → List (List Item)
  | [], _ => []
  | view :: rest, count =>
      if view.length ≤ count then drainIov rest (count - view.length)
      else view.drop count :: rest

/-- `header` gives the sealed header of a block, or fails where `struct.pack` does. -/
def sealedHeader (group : Nat) (key : List UInt8) (length : Nat) (seq epoch : Int)
    (payloadCrc : Nat) : Option Header :=
  if key.length = 36 ∧ group < 256 ^ 4 ∧ (0 ≤ epoch ∧ epoch < 256 ^ 4) ∧ length < 256 ^ 4 ∧
      (0 ≤ seq ∧ seq < 256 ^ 8) ∧ payloadCrc < 256 ^ 4 then
    some (Header.withChecksum
      { magic := slabMagic, version := slabVersion, group := group, epoch := epoch.toNat,
        length := length, seq := seq.toNat, key := key, payloadCrc := payloadCrc, headerCrc := 0 })
  else none

/-- `parse_header` refuses short, foreign and torn headers. -/
def parseHeader (raw : List UInt8) : Option Header :=
  if raw.length < slabHeaderBytes then none
  else
    let header := Header.unpack (raw.take slabHeaderBytes)
    if header.magic ≠ slabMagic ∨ header.version ≠ slabVersion then none
    else if header.Sealed then some header
    else none

/-- The higher of an epoch found so far and the epoch of one more header. -/
def raiseEpoch (best : Option Nat) (header : Header) : Option Nat :=
  if best.all (· < header.epoch) then some header.epoch else best

/-- What a write loop leaves: the file, and the replies to come if the loop ran to its end. -/
structure Progress where
  medium : Medium
  rest : Option (List Nat)

/-- The next loop starts where the one before it ended. -/
def Progress.next (progress : Progress) (loop : Medium → List Nat → Progress) : Progress :=
  match progress.rest with
  | none => progress
  | some replies => loop progress.medium replies

/-- `_pwrite_all` writes until no byte is left or a call fails. -/
def pwriteAll (medium : Medium) (data : List UInt8) (offset : Nat) : List Nat → Progress
  | [] => if data = [] then ⟨medium, some []⟩ else ⟨medium, none⟩
  | reply :: replies =>
      if data = [] then ⟨medium, some (reply :: replies)⟩
      else
        let count := min reply data.length
        if count = 0 then ⟨medium, none⟩
        else pwriteAll (medium.pwrite (data.take count) offset) (data.drop count) (offset + count)
          replies

/-- The payload loop of `write`: `pwritev` until every buffer is drained or a call fails. -/
def pwritevAll (medium : Medium) (remaining : List (List UInt8)) (pos : Nat) : List Nat → Progress
  | [] => if remaining = [] then ⟨medium, some []⟩ else ⟨medium, none⟩
  | reply :: replies =>
      if remaining = [] then ⟨medium, some (reply :: replies)⟩
      else
        let count := min reply remaining.flatten.length
        if count = 0 then ⟨medium, none⟩
        else pwritevAll (medium.pwrite (remaining.flatten.take count) pos)
          (drainIov remaining count) (pos + count) replies

/-- The payload loop of `read`: `preadv` until every buffer is full or a call fails. -/
def preadvAll (medium : Medium) (remaining : List (List UInt8)) (pos : Nat) (filled : List UInt8) :
    List Nat → Option (List UInt8)
  | [] => if remaining = [] then some filled else none
  | reply :: replies =>
      if remaining = [] then some filled
      else
        let data := (medium.pread remaining.flatten.length pos).take reply
        if data = [] then none
        else preadvAll medium (drainIov remaining data.length) (pos + data.length) (filled ++ data)
          replies

/-- Buffers of the given sizes are filled one after the other. -/
def fillViews : List (List UInt8) → List UInt8 → List (List UInt8)
  | [], _ => []
  | view :: rest, data => data.take view.length :: fillViews rest (data.drop view.length)

/-- The slot writes in their order: blank header, payload, sealed header. -/
def writeSlot (medium : Medium) (offset : Nat) (views : List (List UInt8))
    (header : Option Header) (replies : List Nat) : Progress :=
  ((pwriteAll medium (List.replicate slabHeaderBytes 0) offset replies).next
    fun medium replies => pwritevAll medium views (offset + slabHeaderBytes) replies).next
    fun medium replies =>
      match header with
      | none => ⟨medium, none⟩
      | some header => pwriteAll medium header.pack offset replies

/-- An open rank directory: the geometry of its slabs and the epoch it was opened with. -/
structure SlabIo (groups : Nat) where
  slotBytes : Fin groups → Nat
  slotCounts : Fin groups → Nat
  epoch : Int

/-- The slab files of one rank. -/
abbrev Disk (groups : Nat) := Fin groups → Medium

namespace SlabIo

variable {groups : Nat}

/-- The bytes that the slots of a group take. -/
def capacity (io : SlabIo groups) (group : Fin groups) : Nat :=
  io.slotBytes group * io.slotCounts group

/-- `_off` gives the offset of a slot that the group has. -/
def offset (io : SlabIo groups) (group : Fin groups) (slot : Nat) : Option Nat :=
  if slot < io.slotCounts group then some (slot * io.slotBytes group) else none

/-- Opening the files drops what lies past the slots. -/
def opened (io : SlabIo groups) (disk : Disk groups) : Disk groups := fun group =>
  if io.capacity group < (disk group).size then (disk group).truncate (io.capacity group)
  else disk group

variable (group : List UInt8 → Option (Fin groups))

/-- `write` stores a block in its slot; it returns whether it ran to its end. -/
def write (io : SlabIo groups) (disk : Disk groups) (key : List UInt8) (slot : Nat)
    (views : List (List UInt8)) (seq : Int) (epoch : Option Int) (replies : List Nat) :
    Disk groups × Bool :=
  match group key with
  | none => (disk, false)
  | some g =>
      match io.offset g slot with
      | none => (disk, false)
      | some offset =>
          let length := views.flatten.length
          if slabHeaderBytes + length ≤ io.slotBytes g then
            let payloadCrc := (views.foldl update 0).toNat
            let header := sealedHeader g key length seq (epoch.getD io.epoch) payloadCrc
            let progress := writeSlot (disk g) offset views header replies
            (Function.update disk g progress.medium, progress.rest.isSome)
          else (disk, false)

/-- `read` returns the buffers it filled, or nothing where it raises. -/
def read (io : SlabIo groups) (disk : Disk groups) (key : List UInt8) (slot : Nat)
    (views : List (List UInt8)) (epoch : Option Int) (replies : List Nat) :
    Option (List (List UInt8)) := do
  let g ← group key
  let offset ← io.offset g slot
  let reply ← replies.head?
  let header ← parseHeader (((disk g).pread slabHeaderBytes offset).take reply)
  if header.key ≠ key ∨ header.length ≠ views.flatten.length then none
  else if ∃ wanted, epoch = some wanted ∧ (header.epoch : Int) ≠ wanted then none
  else do
    let filled ← preadvAll (disk g) views (offset + slabHeaderBytes) [] replies.tail
    if ((fillViews views filled).foldl update 0).toNat ≠ header.payloadCrc then none
    else some (fillViews views filled)

/-- `sync` makes the writes of a group durable. -/
def sync (disk : Disk groups) (group : Fin groups) : Disk groups :=
  Function.update disk group (disk group).sync

/-- The header of a slot, where the file reaches it and `parse_header` accepts it. -/
def view (io : SlabIo groups) (disk : Disk groups) (group : Fin groups) (slot : Nat) : Option Header :=
  parseHeader ((disk group).pread slabHeaderBytes (slot * io.slotBytes group))

/-- The valid headers of a group in slot order, up to the first slot that the file does not reach. -/
def headers (io : SlabIo groups) (disk : Disk groups) (group : Fin groups) : List (Nat × Header) :=
  ((List.range (io.slotCounts group)).takeWhile fun slot =>
    slabHeaderBytes ≤ ((disk group).pread slabHeaderBytes (slot * io.slotBytes group)).length).filterMap
      fun slot => (io.view disk group slot).map fun header => (slot, header)

/-- `scan` yields slot, sequence number and key of every valid slot of an epoch. -/
def scan (io : SlabIo groups) (disk : Disk groups) (group : Fin groups) (epoch : Int) :
    List (Nat × Nat × List UInt8) :=
  (io.headers disk group).filterMap fun found =>
    if found.2.group ≠ group.val ∨ (found.2.epoch : Int) ≠ epoch then none
    else some (found.1, found.2.seq, found.2.key)

/-- `max_epoch` is the highest epoch in any valid header. -/
def maxEpoch (io : SlabIo groups) (disk : Disk groups) : Option Nat :=
  (List.finRange groups).foldl (fun best group =>
    (io.headers disk group).foldl (fun best found => raiseEpoch best found.2) best) none

/-- `wipe` empties every slab durably. -/
def wipe (disk : Disk groups) : Disk groups := fun group => ((disk group).truncate 0).sync

end SlabIo

/-! ### What the loops do -/

theorem drainIov_flatten {Item : Type} (views : List (List Item)) (count : Nat) :
    (drainIov views count).flatten = views.flatten.drop count := by
  induction views generalizing count with
  | nil => simp only [drainIov, List.flatten_nil, List.drop_nil]
  | cons view rest ih =>
      unfold drainIov
      split
      case isTrue whole =>
        rw [ih, List.flatten_cons, List.drop_append, List.drop_of_length_le whole, List.nil_append]
      case isFalse part =>
        rw [List.flatten_cons, List.flatten_cons, List.drop_append_of_le_length (by omega)]

section Within

variable {allowed : Nat → UInt8 → Prop}

theorem Progress.next_within {progress : Progress} {loop : Medium → List Nat → Progress}
    (before : progress.medium.Within allowed)
    (keeps : ∀ medium replies, medium.Within allowed → (loop medium replies).medium.Within allowed) :
    (progress.next loop).medium.Within allowed := by
  unfold Progress.next
  split
  · exact before
  · exact keeps _ _ before

/-- A prefix of allowed data is allowed, and so is what follows it. -/
theorem covered_take {data : List UInt8} {offset : Nat} (count : Nat)
    (covered : ∀ index byte, data[index]? = some byte → allowed (offset + index) byte) :
    ∀ index byte, (data.take count)[index]? = some byte → allowed (offset + index) byte := by
  intro index byte found
  rw [List.getElem?_take] at found
  split at found
  · exact covered index byte found
  · cases found

theorem covered_drop {data : List UInt8} {offset : Nat} (count : Nat)
    (covered : ∀ index byte, data[index]? = some byte → allowed (offset + index) byte) :
    ∀ index byte, (data.drop count)[index]? = some byte → allowed (offset + count + index) byte := by
  intro index byte found
  rw [List.getElem?_drop] at found
  have moved := covered _ _ found
  rwa [← Nat.add_assoc] at moved

theorem pwriteAll_within {medium : Medium} {data : List UInt8} {offset : Nat} (replies : List Nat)
    (within : medium.Within allowed)
    (covered : ∀ index byte, data[index]? = some byte → allowed (offset + index) byte) :
    (pwriteAll medium data offset replies).medium.Within allowed := by
  induction replies generalizing medium data offset with
  | nil =>
      unfold pwriteAll
      split
      · exact within
      · exact within
  | cons reply rest ih =>
      unfold pwriteAll
      dsimp only
      split
      · exact within
      · split
        · exact within
        · exact ih (within.pwrite (covered_take _ covered)) (covered_drop _ covered)

theorem pwritevAll_within {medium : Medium} {remaining : List (List UInt8)} {pos : Nat}
    (replies : List Nat) (within : medium.Within allowed)
    (covered : ∀ index byte, remaining.flatten[index]? = some byte → allowed (pos + index) byte) :
    (pwritevAll medium remaining pos replies).medium.Within allowed := by
  induction replies generalizing medium remaining pos with
  | nil =>
      unfold pwritevAll
      split
      · exact within
      · exact within
  | cons reply rest ih =>
      unfold pwritevAll
      dsimp only
      split
      · exact within
      · split
        · exact within
        · refine ih (within.pwrite (covered_take _ covered)) ?_
          rw [drainIov_flatten]
          exact covered_drop _ covered

theorem writeSlot_within {medium : Medium} {offset : Nat} {views : List (List UInt8)}
    {header : Option Header} (replies : List Nat) (within : medium.Within allowed)
    (blank : ∀ position, allowed position 0)
    (payload : ∀ index byte, views.flatten[index]? = some byte →
      allowed (offset + slabHeaderBytes + index) byte)
    (sealing : ∀ sealed, header = some sealed → ∀ index byte, sealed.pack[index]? = some byte →
      allowed (offset + index) byte) :
    (writeSlot medium offset views header replies).medium.Within allowed := by
  have zeros : ∀ index byte, (List.replicate slabHeaderBytes (0 : UInt8))[index]? = some byte →
      allowed (offset + index) byte := by
    intro index byte found
    rw [List.eq_of_mem_replicate (List.mem_of_getElem? found)]
    exact blank _
  apply Progress.next_within
  · apply Progress.next_within
    · exact pwriteAll_within replies within zeros
    · intro medium replies within
      exact pwritevAll_within replies within payload
  · intro medium replies within
    cases header with
    | none => exact within
    | some sealed => exact pwriteAll_within replies within (sealing sealed rfl)

end Within

/-- A payload loop that ends has read the whole stretch behind its start. -/
theorem preadvAll_eq_some {medium : Medium} {remaining : List (List UInt8)} {pos : Nat}
    {filled result : List UInt8} {replies : List Nat}
    (done : preadvAll medium remaining pos filled replies = some result) :
    result = filled ++ medium.pread remaining.flatten.length pos ∧
      (medium.pread remaining.flatten.length pos).length = remaining.flatten.length := by
  induction replies generalizing remaining pos filled with
  | nil =>
      unfold preadvAll at done
      split at done
      case isTrue drained =>
        cases done
        simp [drained, Medium.pread]
      case isFalse => cases done
  | cons reply rest ih =>
      unfold preadvAll at done
      dsimp only at done
      split at done
      case isTrue drained =>
        cases done
        simp [drained, Medium.pread]
      case isFalse =>
        split at done
        · cases done
        · rw [Medium.pread_take] at done
          -- one call reads a front part, the rest of the loop the bytes behind it
          obtain ⟨joined, full⟩ := ih done
          have short := Medium.pread_length medium (min reply remaining.flatten.length) pos
          have front := Medium.pread_self medium (min reply remaining.flatten.length) pos
          rw [drainIov_flatten, List.length_drop] at joined full
          have whole : remaining.flatten.length =
              (medium.pread (min reply remaining.flatten.length) pos).length +
                (remaining.flatten.length -
                  (medium.pread (min reply remaining.flatten.length) pos).length) := by omega
          have split := Medium.pread_append medium (remaining.flatten.length -
            (medium.pread (min reply remaining.flatten.length) pos).length)
            (congrArg List.length front)
          rw [← whole, front] at split
          constructor
          · rw [joined, split, List.append_assoc]
          · rw [split, List.length_append, full]
            omega

theorem fillViews_flatten {views : List (List UInt8)} {data : List UInt8}
    (size : data.length = views.flatten.length) : (fillViews views data).flatten = data := by
  induction views generalizing data with
  | nil => exact (List.eq_nil_of_length_eq_zero size).symm
  | cons view rest ih =>
      rw [List.flatten_cons, List.length_append] at size
      rw [fillViews, List.flatten_cons, ih (by rw [List.length_drop]; omega), List.take_append_drop]

/-- The filled buffers have the sizes they were given with. -/
theorem fillViews_lengths {views : List (List UInt8)} {data : List UInt8}
    (size : data.length = views.flatten.length) :
    (fillViews views data).map List.length = views.map List.length := by
  induction views generalizing data with
  | nil => rfl
  | cons view rest ih =>
      rw [List.flatten_cons, List.length_append] at size
      rw [fillViews, List.map_cons, List.map_cons, ih (by rw [List.length_drop]; omega),
        List.length_take, Nat.min_eq_left (by omega)]

/-! ### What the headers say -/

theorem parseHeader_eq_some {raw : List UInt8} {header : Header}
    (parsed : parseHeader raw = some header) :
    slabHeaderBytes ≤ raw.length ∧ header = Header.unpack (raw.take slabHeaderBytes) ∧
      header.magic = slabMagic ∧ header.version = slabVersion ∧ header.Sealed := by
  unfold parseHeader at parsed
  split at parsed
  · cases parsed
  · dsimp only at parsed
    split at parsed
    · cases parsed
    · split at parsed
      · cases parsed
        rename_i long genuine whole
        simp only [not_or, not_not] at genuine
        exact ⟨by omega, rfl, genuine.1, genuine.2, whole⟩
      · cases parsed

/-- A sealed header carries the fields of its block and passes every check. -/
theorem sealedHeader_eq_some {group : Nat} {key : List UInt8} {length : Nat} {seq epoch : Int}
    {payloadCrc : Nat} {header : Header}
    (packed : sealedHeader group key length seq epoch payloadCrc = some header) :
    header.Fits ∧ header.Sealed ∧ header.magic = slabMagic ∧ header.version = slabVersion ∧
      header.group = group ∧ header.key = key ∧ header.length = length ∧
      (header.seq : Int) = seq ∧ (header.epoch : Int) = epoch ∧ header.payloadCrc = payloadCrc := by
  unfold sealedHeader at packed
  split at packed
  case isTrue ranges =>
    obtain ⟨keySize, groupRange, ⟨epochLow, epochHigh⟩, lengthRange, ⟨seqLow, seqHigh⟩, crcRange⟩ :=
      ranges
    cases packed
    have version : slabVersion < 256 ^ 4 := by decide
    refine ⟨⟨rfl, version, groupRange, ?_, lengthRange, ?_, keySize, crcRange, ?_⟩, rfl, rfl, rfl,
      rfl, rfl, rfl, ?_, ?_, rfl⟩
    · simp only [Header.withChecksum]
      omega
    · simp only [Header.withChecksum]
      omega
    · exact (crc32 _).isLt
    · simp only [Header.withChecksum]
      omega
    · simp only [Header.withChecksum]
      omega
  case isFalse => cases packed

namespace SlabIo

variable {groups : Nat} {group : List UInt8 → Option (Fin groups)}

theorem offset_eq_some {io : SlabIo groups} {g : Fin groups} {slot offset : Nat}
    (found : io.offset g slot = some offset) :
    slot < io.slotCounts g ∧ offset = slot * io.slotBytes g := by
  unfold SlabIo.offset at found
  split at found
  case isTrue inside => exact ⟨inside, (Option.some.inj found).symm⟩
  case isFalse => cases found

/-- What a read that returns has checked of the slot, and what it has returned. -/
structure Served (io : SlabIo groups) (medium : Medium) (g : Fin groups) (key : List UInt8)
    (slot : Nat) (views : List (List UInt8)) (epoch : Option Int) (header : Header)
    (result : List (List UInt8)) : Prop where
  inside : slot < io.slotCounts g
  parsed : parseHeader (medium.pread slabHeaderBytes (slot * io.slotBytes g)) = some header
  key : header.key = key
  length : header.length = views.flatten.length
  epoch : ∀ wanted, epoch = some wanted → (header.epoch : Int) = wanted
  payload : result.flatten =
    medium.pread views.flatten.length (slot * io.slotBytes g + slabHeaderBytes)
  sizes : result.map List.length = views.map List.length
  crc : (crc32 result.flatten).toNat = header.payloadCrc

/-- Cutting a header short never lets another one through. -/
theorem parseHeader_take {raw : List UInt8} {count : Nat} {header : Header}
    (size : raw.length ≤ slabHeaderBytes) (parsed : parseHeader (raw.take count) = some header) :
    parseHeader raw = some header := by
  have enough := (parseHeader_eq_some parsed).1
  rw [List.length_take] at enough
  rwa [List.take_of_length_le (by omega)] at parsed

theorem read_eq_some {io : SlabIo groups} {disk : Disk groups} {key : List UInt8} {slot : Nat}
    {views result : List (List UInt8)} {epoch : Option Int} {replies : List Nat}
    (returned : io.read group disk key slot views epoch replies = some result) :
    ∃ g header, group key = some g ∧
      io.Served (disk g) g key slot views epoch header result := by
  simp only [SlabIo.read, Option.bind_eq_bind, Option.bind_eq_some_iff] at returned
  obtain ⟨g, grouped, offset, found, reply, -, header, parsed, rest⟩ := returned
  obtain ⟨inside, rfl⟩ := offset_eq_some found
  have whole := parseHeader_take (by rw [Medium.pread_length]; omega) parsed
  split at rest
  · cases rest
  case isFalse named =>
    split at rest
    · cases rest
    case isFalse current =>
      simp only [Option.bind_eq_some_iff] at rest
      obtain ⟨filled, done, checked⟩ := rest
      obtain ⟨joined, full⟩ := preadvAll_eq_some done
      rw [List.nil_append] at joined
      split at checked
      · cases checked
      case isFalse verified =>
        cases checked
        rw [← joined] at full
        have flat := fillViews_flatten full
        refine ⟨g, header, grouped, ⟨inside, whole, ?_, ?_, ?_, flat.trans joined,
          fillViews_lengths full, ?_⟩⟩
        · by_contra other
          exact named (.inl other)
        · by_contra other
          exact named (.inr other)
        · intro wanted asked
          by_contra other
          exact current ⟨wanted, asked, other⟩
        · rw [foldl_update] at verified
          exact not_not.mp verified

end SlabIo

end DgxSpark.Slab
